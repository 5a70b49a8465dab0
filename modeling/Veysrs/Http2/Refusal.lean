import Veysrs.Http2.Receiver
import Veysrs.Http2.Simulation

/-!
# Refused streams

A stream for which there is no room is answered with RST_STREAM(REFUSED_STREAM).  The client has
not seen that yet, and what it has sent on the stream meanwhile still arrives.  RST_STREAM is
accepted at any time and WINDOW_UPDATE as long as the stream is among those remembered as closed;
CONTINUATION and DATA are errors of the whole connection.
-/

namespace Veysrs

open Core

/-- Every stream but `sid` is as it was: its state, its send window and what is queued for it. -/
structure OthersKept (sid : ℕ) (c c' : Http2Connection) : Prop where
  active : ∀ i, i ≠ sid → c'.activeStreams.lookup i = c.activeStreams.lookup i
  window : ∀ i, i ≠ sid → c'.sendStreamWindows.lookup i = c.sendStreamWindows.lookup i
  awaiting : ∀ i, i ≠ sid → c'.pendingHeaderResponses.filter (·.streamId = i) =
    c.pendingHeaderResponses.filter (·.streamId = i)
  sending : ∀ i, i ≠ sid → c'.pendingResponses.filter (·.streamId = i) =
    c.pendingResponses.filter (·.streamId = i)

/-- A frame that a client may have in flight on a stream it has opened.  Between the fragments of
another stream's header block it sends none. -/
structure InFlight (sid : ℕ) (c : Http2Connection) (g : Frame) : Prop where
  stream : g.header.streamId = sid
  kind : (∃ block eh, g.payload = .continuation block eh) ∨ (∃ data es, g.payload = .data data es) ∨
    (∃ n, g.payload = .windowUpdate n) ∨ ∃ e, g.payload = .rstStream e
  between : c.pendingHeadersStreamId = none

/-- The frames that do no harm on a stream that has been refused. -/
def Tolerated (sid : ℕ) (c : Http2Connection) (g : Frame) : Prop :=
  (∃ e, g.payload = .rstStream e) ∨ ((∃ n, g.payload = .windowUpdate n) ∧ sid ∈ c.closedStreams)

/-! ## The refusal -/

variable {s : ConnState} {f : ParsedFrame}

/-- HEADERS for which there is no room: RST_STREAM, and the stream is remembered as closed. -/
lemma processHeaders_refused (env : Env) (sid : ℕ) (block : Bytes) (es eh : Bool)
    (hc : s.conn.canAcceptNewStream = false) :
    wp (processHeaders env sid block es eh) s
      (fun _ t => s.conn.lastStreamId < sid ∧
        t.conn = ({ s.conn with lastStreamId := sid } : Http2Connection).markClosedStream sid ∧
        t.trace = s.trace ++ [.wrote (rstFrame sid .refusedStream)])
      (fun _ _ => True) := by
  simp only [processHeaders, wp_bind, wp_failIf, wp_modifyConn]
  refine ⟨fun _ => trivial, fun _ => ⟨fun _ => trivial, fun hl => ?_⟩⟩
  rw [if_neg (by simp [hc]), wp_bind]
  apply wp_writeAll
  · intro faults
    exact ⟨Nat.not_le.mp hl, rfl, rfl⟩
  · exact fun faults => trivial

lemma call_refused (env : Env) {block : Bytes} {es eh : Bool}
    (hf : f.1.payload = .headers block es eh) (hc : s.conn.canAcceptNewStream = false) :
    wp (call env (.frame f)) s
      (fun _ t => s.conn.lastStreamId < f.1.header.streamId ∧
        t.conn = ({ s.conn with lastStreamId := f.1.header.streamId } :
          Http2Connection).markClosedStream f.1.header.streamId ∧
        t.trace = s.trace ++
          [.received f.1, .wrote (rstFrame f.1.header.streamId .refusedStream)])
      (fun _ _ => True) := by
  simp only [call, wp_bind, wp_modify, wp_logEvent, processFrame]
  refine wp_mono (enforceContinuation_effect f.1 _) (fun _ t' h => ?_) (fun _ _ _ => trivial)
  rw [h.1, hf]
  refine wp_mono (processHeaders_refused env _ block es eh ?_) (fun _ t ht => ?_)
    (fun _ _ _ => trivial)
  · exact hc
  · exact ⟨ht.1, ht.2.1, by rw [ht.2.2]; simp⟩

/-- A refused stream holds no slot and cannot be opened again. -/
def Gone (sid : ℕ) (m : Mux) : Prop := sid ≤ m.lastStreamId ∧ m.slots sid = none

lemma Gone.put {sid i : ℕ} {m : Mux} {slot : Slot} {slot' : Option Slot} (h : Gone sid m)
    (hs : m.slots i = some slot) : Gone sid (m.put i slot') := by
  refine ⟨h.1, ?_⟩
  have hi : sid ≠ i := by
    rintro rfl
    rw [h.2] at hs
    cases hs
  rw [Mux.put_slots_of_ne _ hi]
  exact h.2

/-- **A stream that is gone stays gone.** -/
lemma Gone.step {sid : ℕ} {m m' : Mux} {ev : List Event} (h : Gone sid m)
    (hst : m.Step ev m') : Gone sid m' := by
  cases hst with
  | settings hf =>
    obtain ⟨hp, hl⟩ := m.applySettings_phase _
    refine ⟨h.1.trans hl.ge, ?_⟩
    have hsid := hp sid
    rw [h.2, Option.map_none, Option.map_eq_none_iff] at hsid
    exact hsid
  | streamCredit hf hsid hs => exact h.put hs
  | @clientReset f e hf =>
    refine ⟨h.1, ?_⟩
    by_cases hi : sid = f.header.streamId
    · rw [hi]
      exact Mux.put_slots_same _ _ _
    · rw [Mux.put_slots_of_ne _ hi]
      exact h.2
  | refuse hf hl => exact ⟨h.1.trans hl.le, h.2⟩
  | accept hf hl =>
    have hi := (h.1.trans_lt hl).ne
    refine ⟨h.1.trans hl.le, ?_⟩
    rw [Mux.put_slots_of_ne _ hi]
    exact h.2
  | park hs hp => exact h.put hs
  | finish hs hp hm => exact h.put hs
  | respond hs hp hm => exact h.put hs
  | upstreamFailed hs => exact h.put hs
  | stalled hs ha hr => exact h.put hs
  | send hs ha hr hd => exact Gone.put ⟨h.1, h.2⟩ hs
  | finishBody hs ha hr => exact h.put hs
  | failBody hs ha hr => exact h.put hs
  | _ => exact h

/-! ## Frames in flight -/

section Frames

variable {sid : ℕ} {g : Frame}

lemma OthersKept.refl (sid : ℕ) (c : Http2Connection) : OthersKept sid c c :=
  ⟨fun _ _ => rfl, fun _ _ => rfl, fun _ _ => rfl, fun _ _ => rfl⟩

lemma OthersKept.markClosed {c c' : Http2Connection} (h : OthersKept sid c c') :
    OthersKept sid c (c'.markClosedStream sid) := by
  unfold Http2Connection.markClosedStream
  split_ifs
  · exact h
  · exact ⟨h.active, h.window, h.awaiting, h.sending⟩

lemma filter_filter_ne {α : Type} (key : α → ℕ) {i : ℕ} (hi : i ≠ sid) (xs : List α) :
    (xs.filter fun x => decide (key x ≠ sid)).filter (fun x => decide (key x = i)) =
      xs.filter fun x => decide (key x = i) := by
  rw [List.filter_filter]
  refine List.filter_congr fun x _ => ?_
  by_cases hx : key x = i <;> simp [hx, hi]

/-- RST_STREAM touches its own stream only. -/
lemma rstStream_othersKept (sid : ℕ) (c : Http2Connection) :
    OthersKept sid c
      (({ c with
        activeStreams := c.activeStreams.erase sid
        sendStreamWindows := c.sendStreamWindows.erase sid
        pendingResponses := c.pendingResponses.filter (·.streamId ≠ sid)
        pendingHeaderResponses := c.pendingHeaderResponses.filter (·.streamId ≠ sid) } :
          Http2Connection).markClosedStream sid) := by
  apply OthersKept.markClosed
  exact ⟨fun i hi => AList.lookup_erase_ne hi, fun i hi => AList.lookup_erase_ne hi,
    fun i hi => filter_filter_ne PendingHeaderResponse.streamId hi _,
    fun i hi => filter_filter_ne PendingResponse.streamId hi _⟩

/-- The stream is in none of the connection's collections. -/
lemma Refines.lookup_of_none {c : Http2Connection} {m : Mux} (h : Refines c m)
    (hs : m.slots sid = none) :
    c.activeStreams.lookup sid = none ∧ c.sendStreamWindows.lookup sid = none := by
  have hp := h.placed sid
  rw [hs] at hp
  have ha := hp.active
  have hw := hp.window
  simp only [Http2Connection.activeId, Option.map_none, reduceCtorEq, if_false,
    Option.map_eq_none_iff] at ha hw
  exact ⟨ha, hw⟩

lemma processData_gone (env : Env) (data : Bytes) (es : Bool)
    (ha : s.conn.activeStreams.lookup sid = none) :
    wp (processData env sid data es) s (fun _ _ => False) (fun _ _ => True) := by
  simp only [processData, wp_bind, wp_getConn]
  rw [ha]
  trivial

/-- The closed streams excuse WINDOW_UPDATE. -/
lemma processWindowUpdate_gone (n : ℕ) (hs : sid ≠ 0)
    (ha : s.conn.activeStreams.lookup sid = none)
    (hw : s.conn.sendStreamWindows.lookup sid = none) :
    wp (processWindowUpdate sid n) s (fun _ t => sid ∈ s.conn.closedStreams ∧ t = s)
      (fun _ _ => sid ∉ s.conn.closedStreams) := by
  rw [processWindowUpdate, if_neg hs]
  simp only [processStreamUpdate, wp_bind, wp_getConn]
  rw [ha, hw]
  simp only [wp_failIf]
  exact ⟨fun h => h, fun h => ⟨not_not.mp h, trivial⟩⟩

/-- **A frame in flight on a stream that is gone is accepted, and touches no other stream, exactly
if it is tolerated.** -/
lemma call_gone (env : Env) {t : ConnState} {m : Mux} (hr : Refines t.conn m)
    (hg : Gone sid m) (hsid : sid ≠ 0) (hfl : InFlight sid t.conn f.1) :
    wp (call env (.frame f)) t
      (fun _ u => Tolerated sid t.conn f.1 ∧ OthersKept sid t.conn u.conn)
      (fun _ _ => ¬ Tolerated sid t.conn f.1) := by
  obtain ⟨ha, hw⟩ := hr.lookup_of_none hg.2
  have hfi := f.2.fits
  obtain ⟨hs, hk, hb⟩ := hfl
  simp only [call, wp_bind, wp_modify, wp_logEvent, processFrame, enforceContinuation, wp_getConn,
    hb, wp_failIf, hs]
  rcases hk with ⟨block, eh, hf⟩ | ⟨data, es, hf⟩ | ⟨n, hf⟩ | ⟨e, hf⟩
  · -- there is no block to continue
    rw [hf] at hfi ⊢
    refine ⟨fun _ => by simp [Tolerated, hf], fun h => absurd hfi.1 h⟩
  · -- the stream is not active
    rw [hf]
    refine ⟨fun _ => by simp [Tolerated, hf], fun _ => ?_⟩
    refine wp_mono (processData_gone env data es ?_) (fun _ _ h => h.elim)
      (fun _ _ _ => by simp [Tolerated, hf])
    exact ha
  · rw [hf] at hfi ⊢
    refine ⟨fun h => (by rw [hfi.1] at h; cases h), fun _ => ?_⟩
    refine wp_mono (processWindowUpdate_gone n hsid ?_ ?_) (fun _ u h => ?_) (fun _ _ h => ?_)
    · exact ha
    · exact hw
    · rw [h.2]
      exact ⟨.inr ⟨⟨n, hf⟩, h.1⟩, .refl sid t.conn⟩
    · rintro (⟨e, he⟩ | ⟨_, hc⟩)
      · rw [hf] at he
        cases he
      · exact h hc
  · rw [hf] at hfi ⊢
    refine ⟨fun h => (by rw [hfi.1] at h; cases h), fun _ => ?_⟩
    exact ⟨.inl ⟨e, hf⟩, rstStream_othersKept sid t.conn⟩

end Frames

/-! ## Runs -/

/-- Once it is refused the stream is gone, and stays so through any calls that return. -/
lemma gone_of_refused {config : ServerConfig} {secure : Bool} {calls later : List (Env × Call)}
    {env : Env} {block : Bytes} {es eh : Bool} {t u : ConnState}
    (hrun : (runCalls calls).run (ConnState.start config secure) = .ok () s)
    (hf : f.1.payload = .headers block es eh) (hcap : s.conn.canAcceptNewStream = false)
    (hr : (call env (.frame f)).run s = .ok () t) (hl : (runCalls later).run t = .ok () u) :
    ∃ m, Refines u.conn m ∧ Gone f.1.header.streamId m := by
  obtain ⟨m, hre, href⟩ := wp_ok (runCalls_tracks calls (start_tracks config secure)) hrun
  obtain ⟨m', _, href'⟩ := wp_ok (call_tracks env (.frame f) ⟨m, hre, href⟩) hr
  obtain ⟨hla, hc, _⟩ := wp_ok (call_refused env hf hcap) hr
  -- it was not open before, and the refusal has opened nothing
  have hs : m.slots f.1.header.streamId = none := by
    by_contra hne
    obtain ⟨slot, hs⟩ := Option.ne_none_iff_exists'.mp hne
    have hle := href.scalars.sound.below _ _ hs
    rw [href.scalars.lastStreamId] at hla
    omega
  have hw : t.conn.sendStreamWindows.lookup f.1.header.streamId = none := by
    rw [hc, (markClosedStream_sameAt _ _ _).window]
    exact (href.lookup_of_none hs).2
  have hg : Gone f.1.header.streamId m' := by
    refine ⟨?_, href'.slot_of_no_window hw⟩
    rw [← href'.scalars.lastStreamId, hc]
    unfold Http2Connection.markClosedStream
    split_ifs
    · exact le_rfl
    · exact le_rfl
  have hst : Tracks ⟨m', t.trace⟩ t := ⟨m', ⟨[], (List.append_nil _).symm, .refl⟩, href'⟩
  obtain ⟨mu, ⟨evs, _, hru⟩, hrefu⟩ := wp_ok (runCalls_tracks later hst) hl
  refine ⟨mu, hrefu, ?_⟩
  exact Runs.invariant (I := fun _ m => Gone f.1.header.streamId m) hg
    (fun _ _ _ _ h hstep => h.step hstep) hru

/-- **After a refusal, whatever follows, the frames still in flight on the stream are all accepted
and touch no other stream exactly if all of them are tolerated.** -/
theorem refused_stream_isolated_iff {config : ServerConfig} {secure : Bool}
    {calls : List (Env × Call)} {env : Env} {f : ParsedFrame} {block : Bytes} {es eh : Bool}
    {s t : ConnState} (hrun : (runCalls calls).run (ConnState.start config secure) = .ok () s)
    (hf : f.1.payload = .headers block es eh) (hcap : s.conn.canAcceptNewStream = false)
    (hrefused : (call env (.frame f)).run s = .ok () t) (later : List (Env × Call)) :
    (∀ before env' g after u, later = before ++ (env', .frame g) :: after →
        (runCalls before).run t = .ok () u → InFlight f.1.header.streamId u.conn g.1 →
        ∃ v, (call env' (.frame g)).run u = .ok () v ∧
          OthersKept f.1.header.streamId u.conn v.conn) ↔
      ∀ before env' g after u, later = before ++ (env', .frame g) :: after →
        (runCalls before).run t = .ok () u → InFlight f.1.header.streamId u.conn g.1 →
        Tolerated f.1.header.streamId u.conn g.1 := by
  have hsid : f.1.header.streamId ≠ 0 := by
    have hfits := f.2.fits
    rw [hf] at hfits
    exact hfits.2.1
  constructor
  · intro h before env' g after u hsplit hu hflight
    obtain ⟨v, hcall, _⟩ := h before env' g after u hsplit hu hflight
    obtain ⟨m, href, hgone⟩ := gone_of_refused hrun hf hcap hrefused hu
    exact (wp_ok (call_gone env' href hgone hsid hflight) hcall).1
  · intro h before env' g after u hsplit hu hflight
    have htolerated := h before env' g after u hsplit hu hflight
    obtain ⟨m, href, hgone⟩ := gone_of_refused hrun hf hcap hrefused hu
    obtain ⟨_, v, hcall, _, hkept⟩ := exists_ok_of_wp (wp_mono
      (call_gone env' href hgone hsid hflight) (fun _ _ h => h) (fun _ _ h => h htolerated))
    exact ⟨v, hcall, hkept⟩

/-- `GET /` on stream 5, with more header fields to come. -/
def sampleOpening : ParsedFrame :=
  ⟨{ header := { length := 3, frameType := .headers, flags := 1, streamId := 5 }
     payload := .headers [0x82, 0x86, 0x84] true false },
    [0, 0, 3, 1, 1, 0, 0, 0, 5], [0x82, 0x86, 0x84], rfl, rfl⟩

/-- The end of that header block. -/
def sampleContinuation : ParsedFrame :=
  ⟨{ header := { length := 1, frameType := .continuation, flags := 4, streamId := 5 }
     payload := .continuation [0x88] true },
    [0, 0, 1, 9, 4, 0, 0, 0, 5], [0x88], rfl, rfl⟩

/-- WINDOW_UPDATE on stream 5. -/
def sampleUpdate : ParsedFrame :=
  ⟨{ header := { length := 4, frameType := .windowUpdate, flags := 0, streamId := 5 }
     payload := .windowUpdate 1 },
    [0, 0, 4, 8, 0, 0, 0, 0, 5], [0, 0, 0, 1], rfl, rfl⟩

/-- WINDOW_UPDATE right after the refusal is harmless. -/
theorem refused_stream_isolated_sample :
    ∃ s t, (runCalls [(sampleOutside, .frame samplePost)]).run
        (ConnState.start sampleNarrow false) = .ok () s ∧
      s.conn.canAcceptNewStream = false ∧
      (call sampleOutside (.frame sampleSecond)).run s = .ok () t ∧
      ∀ before env g after u,
        [(sampleOutside, .frame sampleUpdate)] = before ++ (env, .frame g) :: after →
        (runCalls before).run t = .ok () u → InFlight 5 u.conn g.1 →
        ∃ v, (call env (.frame g)).run u = .ok () v ∧ OthersKept 5 u.conn v.conn := by
  have hrun := eq_ok_of_isOk (r := (runCalls [(sampleOutside, .frame samplePost)]).run
    (ConnState.start sampleNarrow false)) (by decide)
  have hcap : (stateOf ((runCalls [(sampleOutside, .frame samplePost)]).run
      (ConnState.start sampleNarrow false))).conn.canAcceptNewStream = false := by
    decide
  have hrefused := eq_ok_of_isOk (r := (call sampleOutside (.frame sampleSecond)).run
    (stateOf ((runCalls [(sampleOutside, .frame samplePost)]).run
      (ConnState.start sampleNarrow false)))) (by decide)
  refine ⟨_, _, hrun, hcap, hrefused,
    (refused_stream_isolated_iff hrun rfl hcap hrefused _).mpr ?_⟩
  intro before env g after u hsplit hu _
  cases before with
  | nil =>
    simp only [List.nil_append, List.cons.injEq, Prod.mk.injEq, Call.frame.injEq] at hsplit
    obtain ⟨⟨_, rfl⟩, _⟩ := hsplit
    cases hu
    exact .inr ⟨⟨1, rfl⟩, by decide⟩
  | cons first before => simp at hsplit

/-- The CONTINUATION that completes a refused stream's header block ends the connection. -/
theorem refused_continuation_fatal :
    (stateAfter sampleNarrow false
        [(sampleOutside, .frame samplePost)]).conn.canAcceptNewStream = false ∧
      isOk ((runCalls [(sampleOutside, .frame samplePost),
        (sampleOutside, .frame sampleOpening)]).run (ConnState.start sampleNarrow false)) = true ∧
      .wrote (rstFrame 5 .refusedStream) ∈ (stateAfter sampleNarrow false
        [(sampleOutside, .frame samplePost), (sampleOutside, .frame sampleOpening)]).trace ∧
      InFlight 5 (stateAfter sampleNarrow false [(sampleOutside, .frame samplePost),
        (sampleOutside, .frame sampleOpening)]).conn sampleContinuation.1 ∧
      isOk ((runCalls [(sampleOutside, .frame samplePost), (sampleOutside, .frame sampleOpening),
        (sampleOutside, .frame sampleContinuation)]).run
          (ConnState.start sampleNarrow false)) = false := by
  refine ⟨by decide, by decide, by decide, ?_, by decide⟩
  exact ⟨rfl, .inl ⟨[0x88], true, rfl⟩, by decide⟩

end Veysrs
