import Mathlib.Algebra.BigOperators.Group.List.Basic
import Veysrs.Http2.Receiver

/-!
# Credit for received data

The peer may have so much DATA in flight as the server has given it credit for, and every DATA
frame costs it the length in the frame's header, padding included.  The server answers each DATA
frame at once with WINDOW_UPDATE, for the connection and for the stream; the two agree exactly
where no frame is padded, because what is given back is the length of the data without padding.
-/

namespace Veysrs

open Core List

namespace Event

/-- The credit a WINDOW_UPDATE written on stream `sid` gives (stream 0 is the connection). -/
def granted (sid : ℕ) : Event → ℕ
  | .wrote ⟨h, .windowUpdate n⟩ => if h.streamId = sid then n else 0
  | _ => 0

/-- What a received DATA frame costs the peer on stream `sid`, and on the connection. -/
def spent (sid : ℕ) : Event → ℕ
  | .received ⟨h, .data _ _⟩ => if sid = 0 ∨ h.streamId = sid then h.length else 0
  | _ => 0

end Event

def granted (sid : ℕ) (log : List Event) : ℕ := (log.map (Event.granted sid)).sum

def spent (sid : ℕ) (log : List Event) : ℕ := (log.map (Event.spent sid)).sum

/-- The log after the calls. -/
def logAfter (config : ServerConfig) (secure : Bool) (calls : List (Env × Call)) : List Event :=
  (stateAfter config secure calls).trace

/-- Each DATA frame among the calls is answered with WINDOW_UPDATE for all it cost the peer, on the
connection and on its stream, and over the whole log the peer has got back what it has spent. -/
structure CreditConserved (config : ServerConfig) (secure : Bool) (calls : List (Env × Call)) :
    Prop where
  answered : ∀ before env f after data es, calls = before ++ (env, .frame f) :: after →
    f.1.payload = .data data es →
    ∃ answer, logAfter config secure (before ++ [(env, .frame f)]) =
        logAfter config secure before ++ .received f.1 :: answer ∧
      granted 0 answer = f.1.header.length ∧
      granted f.1.header.streamId answer = f.1.header.length
  balanced : ∀ sid, granted sid (logAfter config secure calls) =
    spent sid (logAfter config secure calls)

/-! ## Sums over the log -/

section Sums

variable {log ev : List Event} {sid : ℕ}

@[simp] lemma granted_append (sid : ℕ) (log ev : List Event) :
    granted sid (log ++ ev) = granted sid log + granted sid ev := by
  simp [granted]

@[simp] lemma spent_append (sid : ℕ) (log ev : List Event) :
    spent sid (log ++ ev) = spent sid log + spent sid ev := by
  simp [spent]

lemma Event.Plain.granted {e : Event} (h : e.Plain) (sid : ℕ) : e.granted sid = 0 := by
  cases e with
  | wrote f =>
    obtain ⟨header, payload⟩ := f
    cases payload with
    | windowUpdate n => exact absurd rfl (h.credit header n)
    | _ => rfl
  | received f => rfl
  | bodyRead i outcome => rfl

lemma Event.Plain.spent {e : Event} (h : e.Plain) (sid : ℕ) : e.spent sid = 0 := by
  cases e with
  | received f => exact absurd rfl (h.received f)
  | wrote f => rfl
  | bodyRead i outcome => rfl

lemma granted_of_plain (h : ∀ e ∈ ev, e.Plain) : granted sid ev = 0 := by
  apply sum_eq_zero
  intro n hn
  obtain ⟨e, he, rfl⟩ := mem_map.mp hn
  exact (h e he).granted sid

lemma spent_of_plain (h : ∀ e ∈ ev, e.Plain) : spent sid ev = 0 := by
  apply sum_eq_zero
  intro n hn
  obtain ⟨e, he, rfl⟩ := mem_map.mp hn
  exact (h e he).spent sid

lemma spent_wrote (frames : List Frame) : spent sid (frames.map .wrote) = 0 := by
  induction frames with
  | nil => rfl
  | cons f rest ih => simpa [spent, Event.spent] using ih

/-- The two updates that answer data. -/
lemma granted_creditFrames {i n : ℕ} (hi : i ≠ 0) :
    granted sid ((creditFrames i n).map .wrote) = if sid = 0 ∨ i = sid then n else 0 := by
  unfold creditFrames
  split_ifs with hn hs hs
  · rcases hs with rfl | rfl
    · simp [granted, Event.granted, windowUpdateFrame, hi]
    · simp [granted, Event.granted, windowUpdateFrame, Ne.symm hi]
  · simp only [not_or] at hs
    simp [granted, Event.granted, windowUpdateFrame, Ne.symm hs.1, hs.2]
  · simp only [Nat.not_lt, Nat.le_zero] at hn
    simp [granted, hn]
  · simp [granted]

end Sums

/-! ## One frame -/

/-- A DATA frame off the wire is as long as its data exactly if it is not padded. -/
lemma data_length_iff {f : Frame} (h : f.Parsed) {data : Bytes} {es : Bool}
    (hf : f.payload = .data data es) :
    (data.length % 2 ^ 32 = f.header.length ↔ Flags.has f.header.flags Flags.padded = false) ∧
      f.header.streamId ≠ 0 := by
  have hfi := h.fits
  have hlt := h.length_lt
  rw [hf] at hfi
  obtain ⟨_, hs, _, hl⟩ := hfi
  refine ⟨?_, hs⟩
  cases hp : Flags.has f.header.flags Flags.padded with
  | true =>
    rw [hp] at hl
    obtain ⟨pad, hl⟩ := hl
    have hne : data.length % 2 ^ 32 ≠ f.header.length := by
      omega
    exact iff_of_false hne (by simp)
  | false =>
    rw [hp, if_neg (by simp)] at hl
    rw [hl, Nat.mod_eq_of_lt (by omega)]
    simp

/-- A DATA frame that is accepted is answered with its data's length on both levels. -/
lemma data_granted {s t : ConnState} {f : ParsedFrame} {data : Bytes} {es : Bool}
    (h : CallDone s t (.frame f)) (hf : f.1.payload = .data data es) :
    ∃ answer, t.trace = s.trace ++ .received f.1 :: answer ∧
      ∀ sid, granted sid answer =
        if sid = 0 ∨ f.1.header.streamId = sid then data.length % 2 ^ 32 else 0 := by
  obtain ⟨_, _, _, ev, ht, hev⟩ := h
  refine ⟨_, ht, ?_⟩
  intro sid
  have hc : creditFor f.1 = creditFrames f.1.header.streamId (data.length % 2 ^ 32) := by
    rw [creditFor, hf]
  rw [granted_append, granted_of_plain hev, hc,
    granted_creditFrames (data_length_iff f.2 hf).2, Nat.add_zero]

/-- A call gives back what it cost the peer, unless it is a padded DATA frame. -/
lemma CallDone.balanced {s t : ConnState} {c : Call} (h : CallDone s t c)
    (hpad : ∀ f data es, c = .frame f → f.1.payload = .data data es →
      Flags.has f.1.header.flags Flags.padded = false) (sid : ℕ) :
    ∃ ev, t.trace = s.trace ++ ev ∧ granted sid ev = spent sid ev := by
  cases c with
  | pollHeaders =>
    obtain ⟨⟨ev, ht, hev⟩, _⟩ := h
    exact ⟨ev, ht, by rw [granted_of_plain hev, spent_of_plain hev]⟩
  | schedule =>
    obtain ⟨⟨ev, ht, hev⟩, _⟩ := h
    exact ⟨ev, ht, by rw [granted_of_plain hev, spent_of_plain hev]⟩
  | frame f =>
    obtain ⟨_, _, _, ev, ht, hev⟩ := h
    refine ⟨_, ht, ?_⟩
    have hs : spent sid (.received f.1 :: ((creditFor f.1).map .wrote ++ ev)) =
        (Event.received f.1).spent sid := by
      rw [← singleton_append, spent_append, spent_append, spent_wrote,
        spent_of_plain hev]
      simp [spent]
    have hg : granted sid (.received f.1 :: ((creditFor f.1).map .wrote ++ ev)) =
        granted sid ((creditFor f.1).map .wrote) := by
      rw [← singleton_append, granted_append, granted_append, granted_of_plain hev]
      simp [granted, Event.granted]
    rw [hs, hg]
    obtain ⟨⟨header, payload⟩, hp⟩ := f
    cases payload with
    | data data es =>
      obtain ⟨hl, hsid⟩ := data_length_iff hp rfl
      simp only [creditFor, Event.spent, granted_creditFrames hsid,
        hl.mpr (hpad _ data es rfl rfl)]
    | _ => simp [creditFor, Event.spent, granted]

/-! ## Runs -/

/-- Without padding the peer has got back what it has spent, by induction on the calls from the
last one on. -/
lemma balanced_of_run {config : ServerConfig} {secure : Bool} {calls : List (Env × Call)}
    {s : ConnState} (hr : (runCalls calls).run (ConnState.start config secure) = .ok () s)
    (hp : ∀ env f data es, (env, .frame f) ∈ calls → f.1.payload = .data data es →
      Flags.has f.1.header.flags Flags.padded = false) (sid : ℕ) :
    granted sid s.trace = spent sid s.trace := by
  induction calls using List.reverseRecOn generalizing s with
  | nil =>
    cases hr
    rfl
  | append_singleton calls last ih =>
    obtain ⟨env, c⟩ := last
    obtain ⟨t, hbe, hl⟩ := runCalls_append.mp hr
    have hih := ih hbe fun env f data es hm => hp env f data es (by simp [hm])
    have hd := callDone_of_ok (runCalls_single.mp hl)
    obtain ⟨ev, ht, hb⟩ := hd.balanced
      (fun f data es hc => hp env f data es (by simp [hc])) sid
    rw [ht, granted_append, spent_append, hih, hb]

/-- **Credit is conserved exactly in the runs without padding.** -/
theorem credit_conserved_iff {config : ServerConfig} {secure : Bool} {calls : List (Env × Call)}
    {s : ConnState} (hrun : (runCalls calls).run (ConnState.start config secure) = .ok () s) :
    CreditConserved config secure calls ↔
      ∀ env f data es, (env, .frame f) ∈ calls → f.1.payload = .data data es →
        Flags.has f.1.header.flags Flags.padded = false := by
  have hlog : ∀ {cs : List (Env × Call)} {t : ConnState},
      (runCalls cs).run (ConnState.start config secure) = .ok () t →
      logAfter config secure cs = t.trace := by
    intro cs t h
    rw [logAfter, stateAfter_of_run h]
  constructor
  · intro h env f data es hmem hf
    obtain ⟨before, after, rfl⟩ := append_of_mem hmem
    obtain ⟨answer, hanswer, hconn, _⟩ := h.answered before env f after data es rfl hf
    obtain ⟨t, t', hbefore, hcall, hafter⟩ := runCalls_split hrun
    obtain ⟨answer', htrace, hgranted⟩ :=
      data_granted (callDone_of_ok hcall) hf
    rw [hlog hafter, hlog hbefore, htrace, append_cancel_left_eq, List.cons.injEq] at hanswer
    rw [← hanswer.2, hgranted, if_pos (.inl rfl)] at hconn
    exact (data_length_iff f.2 hf).1.mp hconn
  · intro hpad
    refine ⟨?_, ?_⟩
    · intro before env f after data es hcalls hf
      subst hcalls
      obtain ⟨t, t', hbefore, hcall, hafter⟩ := runCalls_split hrun
      obtain ⟨answer, htrace, hgranted⟩ :=
        data_granted (callDone_of_ok hcall) hf
      have hlen := (data_length_iff f.2 hf).1.mpr (hpad env f data es (by simp) hf)
      refine ⟨answer, by rw [hlog hafter, hlog hbefore, htrace], ?_, ?_⟩
      · rw [hgranted, if_pos (.inl rfl), hlen]
      · rw [hgranted, if_pos (.inr rfl), hlen]
    · intro sid
      rw [hlog hrun]
      exact balanced_of_run hrun hpad sid

/-- Two bytes of data on stream 3. -/
def sampleData : ParsedFrame :=
  ⟨{ header := { length := 2, frameType := .data, flags := 0, streamId := 3 }
     payload := .data [1, 2] false },
    [0, 0, 2, 0, 0, 0, 0, 0, 3], [1, 2], rfl, rfl⟩

/-- The same with three bytes of padding. -/
def samplePadded : ParsedFrame :=
  ⟨{ header := { length := 6, frameType := .data, flags := 8, streamId := 3 }
     payload := .data [1, 2] false },
    [0, 0, 6, 0, 8, 0, 0, 0, 3], [3, 1, 2, 0, 0, 0], rfl, rfl⟩

/-- Without padding both bytes are given back. -/
theorem credit_conserved_sample :
    CreditConserved {} false
      [(sampleOutside, .frame samplePost), (sampleOutside, .frame sampleData)] := by
  have hrun := eq_ok_of_isOk (r := (runCalls [(sampleOutside, .frame samplePost),
    (sampleOutside, .frame sampleData)]).run (ConnState.start {} false)) (by decide)
  refine (credit_conserved_iff hrun).mpr ?_
  intro env f data es hmem hf
  simp only [mem_cons, Prod.mk.injEq, Call.frame.injEq, not_mem_nil, or_false] at hmem
  rcases hmem with ⟨_, rfl⟩ | ⟨_, rfl⟩
  · cases hf
  · rfl

/-- With padding the peer is four bytes short after one frame. -/
theorem padded_data_short :
    isOk ((runCalls [(sampleOutside, .frame samplePost),
      (sampleOutside, .frame samplePadded)]).run (ConnState.start {} false)) = true ∧
    granted 0 (logAfter {} false [(sampleOutside, .frame samplePost),
      (sampleOutside, .frame samplePadded)]) = 2 ∧
    spent 0 (logAfter {} false [(sampleOutside, .frame samplePost),
      (sampleOutside, .frame samplePadded)]) = 6 ∧
    ¬ CreditConserved {} false [(sampleOutside, .frame samplePost),
      (sampleOutside, .frame samplePadded)] := by
  have hgranted : granted 0 (logAfter {} false [(sampleOutside, .frame samplePost),
      (sampleOutside, .frame samplePadded)]) = 2 := by decide
  have hspent : spent 0 (logAfter {} false [(sampleOutside, .frame samplePost),
      (sampleOutside, .frame samplePadded)]) = 6 := by decide
  refine ⟨by decide, hgranted, hspent, ?_⟩
  intro h
  have hbalanced := h.balanced 0
  rw [hgranted, hspent] at hbalanced
  cases hbalanced

end Veysrs
