import Mathlib.Data.List.Chain
import Veysrs.Http2.Simulation

/-!
# The output grammar of a stream

What the connection writes on one stream is a response, HEADERS CONTINUATION* DATA*, or the
beginning of one, perhaps cut short by RST_STREAM.  `Permitted` is that language and `Stage` the
invariant behind it: the phase of the stream's slot says how far its response has got.

Across streams, the fragments of a response head are written one directly after the other
(`Follows`).
-/

namespace Veysrs

open Core List

/-- The frames a log has written, in order. -/
def written (log : List Event) : List Frame :=
  log.filterMap fun
    | .wrote f => some f
    | _ => none

/-- The frames written on stream `sid`, WINDOW_UPDATE aside. -/
def writtenOn (sid : ℕ) (log : List Event) : List Frame :=
  (written log).filter fun f => f.header.streamId = sid ∧ f.header.frameType ≠ .windowUpdate

/-- The property holds of the last element and of no other. -/
def LastOnly {α : Type*} (p : α → Prop) (xs : List α) : Prop :=
  ∃ init last, xs = init ++ [last] ∧ p last ∧ ∀ x ∈ init, ¬ p x

/-! ## The language of a stream -/

/-- A response head of stream `sid`: HEADERS CONTINUATION*, with END_HEADERS on the last fragment
alone and END_STREAM on HEADERS if `es`. -/
structure IsHead (sid : ℕ) (es : Bool) (frames : List Frame) : Prop where
  shape : ∃ first rest, frames = first :: rest ∧ first.header.frameType = .headers ∧
    first.endStream = es ∧ ∀ f ∈ rest, f.header.frameType = .continuation
  stream : ∀ f ∈ frames, f.header.streamId = sid
  last : LastOnly (fun f => f.endHeaders = true) frames

/-- A response: a head and DATA*.  END_STREAM is on HEADERS exactly if there is no DATA, and
otherwise on the last DATA frame alone. -/
def IsResponse (sid : ℕ) (frames : List Frame) : Prop :=
  ∃ head body, frames = head ++ body ∧ IsHead sid body.isEmpty head ∧
    (∀ f ∈ body, f.header.frameType = .data) ∧
    (body = [] ∨ LastOnly (fun f => f.endStream = true) body)

/-- The frame ends the response. -/
def Frame.EndsStream (f : Frame) : Prop :=
  (f.header.frameType = .headers ∨ f.header.frameType = .data) ∧ f.endStream = true

/-- What may stand on a stream: the beginning of a response, or one without END_STREAM that
RST_STREAM cuts short. -/
def Permitted (sid : ℕ) (frames : List Frame) : Prop :=
  (∃ full, IsResponse sid full ∧ frames <+: full) ∨
    ∃ part full reset, IsResponse sid full ∧ part <+: full ∧ (∀ f ∈ part, ¬ f.EndsStream) ∧
      frames = part ++ [reset] ∧ reset.header.frameType = .rstStream

/-- A response whose head is complete and whose body goes on. -/
def Underway (sid : ℕ) (frames : List Frame) : Prop :=
  ∃ head body, frames = head ++ body ∧ IsHead sid false head ∧
    ∀ f ∈ body, f.header.frameType = .data ∧ f.endStream = false

/-- A fragment of a head that more fragments must follow. -/
def Frame.Unfinished (f : Frame) : Prop :=
  (f.header.frameType = .headers ∨ f.header.frameType = .continuation) ∧ f.endHeaders = false

/-- `f` may be written directly after `g`: CONTINUATION comes after an unfinished fragment of the
same stream and nowhere else, and after such a fragment nothing else comes but GOAWAY. -/
def Follows (g f : Frame) : Prop :=
  (f.header.frameType = .continuation → g.Unfinished ∧ f.header.streamId = g.header.streamId) ∧
    (g.Unfinished → f.header.frameType = .continuation ∨ f.header.frameType = .goAway)

/-! ## Response heads -/

section Heads

variable {sid max : ℕ} {block : Bytes} {es : Bool}

lemma LastOnly.single {α : Type*} {p : α → Prop} {x : α} (h : p x) : LastOnly p [x] :=
  ⟨[], x, rfl, h, by simp⟩

lemma LastOnly.cons {α : Type*} {p : α → Prop} {x : α} {xs : List α} (hx : ¬ p x)
    (h : LastOnly p xs) : LastOnly p (x :: xs) := by
  obtain ⟨init, last, rfl, hl, hi⟩ := h
  refine ⟨x :: init, last, rfl, hl, ?_⟩
  intro y hy
  rcases mem_cons.mp hy with rfl | hy
  · exact hx
  · exact hi y hy

/-- Nothing comes after an element that only the last one may be. -/
lemma LastOnly.eq_nil {α : Type*} {p : α → Prop} {x : α} {xs ys : List α}
    (h : LastOnly p (xs ++ x :: ys)) (hx : p x) : ys = [] := by
  obtain ⟨init, last, heq, _, hi⟩ := h
  by_contra hne
  refine hi x ?_ hx
  have hd := congrArg List.dropLast heq
  rw [dropLast_concat, dropLast_append_of_ne_nil (by simp),
    dropLast_cons_of_ne_nil hne] at hd
  simp [← hd]

@[simp] lemma endStream_firstHeaderFrame :
    (firstHeaderFrame sid max block es).endStream = es := by
  simp only [firstHeaderFrame, Frame.endStream]
  by_cases h : min block.length max = block.length
  · cases es <;> simp [h] <;> decide
  · cases es <;> simp [h] <;> decide

lemma endHeaders_firstHeaderFrame :
    (firstHeaderFrame sid max block es).endHeaders =
      decide (min block.length max = block.length) := by
  simp only [firstHeaderFrame, Frame.endHeaders]
  by_cases h : min block.length max = block.length
  · cases es <;> simp [h] <;> decide
  · cases es <;> simp [h] <;> decide

@[simp] lemma endStream_dataFrame (data : Bytes) (done : Bool) :
    (dataFrame sid data done).endStream = done := by
  simp only [dataFrame, Frame.endStream]
  cases done <;> decide

lemma continuationFrames_type {fuel : ℕ} {rest : Bytes} :
    ∀ f ∈ continuationFrames sid max fuel rest, f.header.frameType = .continuation := by
  induction fuel generalizing rest with
  | zero => simp [continuationFrames]
  | succ fuel ih =>
    cases rest with
    | nil => simp [continuationFrames]
    | cons b rest =>
      intro f hf
      rw [continuationFrames, mem_cons] at hf
      rcases hf with rfl | hf
      · rfl
      · exact ih f hf

/-- The CONTINUATION frames carry END_HEADERS on the last one: the induction is on the fuel, which
the length of what is left never exceeds. -/
lemma continuationFrames_lastOnly (hm : 0 < max) {fuel : ℕ} {rest : Bytes} (hne : rest ≠ [])
    (hf : rest.length ≤ fuel) :
    LastOnly (fun f => f.endHeaders = true) (continuationFrames sid max fuel rest) := by
  induction fuel generalizing rest with
  | zero => simp_all
  | succ fuel ih =>
    obtain ⟨b, bs, rfl⟩ := exists_cons_of_ne_nil hne
    rw [continuationFrames]
    by_cases ha : min max (b :: bs).length = (b :: bs).length
    · simp only [ha, drop_length]
      have hn : continuationFrames sid max fuel [] = [] := by
        cases fuel <;> rfl
      rw [hn]
      exact LastOnly.single (by simp only [Frame.endHeaders]; decide)
    · simp only [ha]
      have hl : ((b :: bs).drop (min max (b :: bs).length)).length =
          (b :: bs).length - min max (b :: bs).length := length_drop
      refine LastOnly.cons (by simp only [Frame.endHeaders]; decide) (ih ?_ ?_)
      · intro h
        rw [h] at hl
        simp only [length_nil] at hl
        omega
      · omega

/-- **A response head is written as one.** -/
lemma headerFrames_isHead (hm : 0 < max) : IsHead sid es (headerFrames sid max block es) where
  shape := ⟨_, _, rfl, rfl, by simp, continuationFrames_type⟩
  stream := fun f hf => (mem_headerFrames hf).streamId
  last := by
    rw [headerFrames]
    by_cases ha : min block.length max = block.length
    · have hn : continuationFrames sid max block.length
          (block.drop (min block.length max)) = [] := by
        rw [ha, drop_length]
        cases block.length <;> rfl
      rw [hn]
      exact LastOnly.single (by simp [endHeaders_firstHeaderFrame, ha])
    · refine LastOnly.cons (by simp [endHeaders_firstHeaderFrame, ha])
        (continuationFrames_lastOnly hm ?_ ?_)
      · intro h
        have hl := congrArg List.length h
        simp only [length_drop, length_nil] at hl
        omega
      · simp

end Heads

/-! ## Responses as they grow -/

section Growth

variable {sid : ℕ} {head frames : List Frame} {es : Bool}

lemma IsHead.isResponse (h : IsHead sid true head) : IsResponse sid head :=
  ⟨head, [], (append_nil _).symm, h, by simp, .inl rfl⟩

lemma IsHead.underway (h : IsHead sid false head) : Underway sid head :=
  ⟨head, [], (append_nil _).symm, h, by simp⟩

/-- The last DATA frame completes a response. -/
lemma Underway.finish (h : Underway sid frames) (data : Bytes) :
    IsResponse sid (frames ++ [dataFrame sid data true]) := by
  obtain ⟨head, body, rfl, hh, hb⟩ := h
  have hem : (body ++ [dataFrame sid data true]).isEmpty = false := by
    cases body <;> rfl
  refine ⟨head, body ++ [dataFrame sid data true], by simp, hem ▸ hh, ?_, .inr ?_⟩
  · intro f hf
    rcases mem_append.mp hf with hf | hf
    · exact (hb f hf).1
    · rw [mem_singleton.mp hf]
      rfl
  · refine ⟨body, _, rfl, by simp, ?_⟩
    intro f hf
    simp [(hb f hf).2]

/-- Any other DATA frame carries it on. -/
lemma Underway.data (h : Underway sid frames) (data : Bytes) :
    Underway sid (frames ++ [dataFrame sid data false]) := by
  obtain ⟨head, body, rfl, hh, hb⟩ := h
  refine ⟨head, body ++ [dataFrame sid data false], by simp, hh, ?_⟩
  intro f hf
  rcases mem_append.mp hf with hf | hf
  · exact hb f hf
  · rw [mem_singleton.mp hf]
    exact ⟨rfl, by simp⟩

/-- Every head is the beginning of a response. -/
lemma IsHead.extends (h : IsHead sid es head) : ∃ full, IsResponse sid full ∧ head <+: full := by
  cases es with
  | true => exact ⟨head, h.isResponse, prefix_rfl⟩
  | false => exact ⟨_, h.underway.finish [], prefix_append _ _⟩

lemma IsHead.part_permitted (h : IsHead sid es head) (hp : frames <+: head) :
    Permitted sid frames := by
  obtain ⟨full, hf, hh⟩ := h.extends
  exact .inl ⟨full, hf, hp.trans hh⟩

lemma IsResponse.permitted (h : IsResponse sid frames) : Permitted sid frames :=
  .inl ⟨frames, h, prefix_rfl⟩

lemma exists_isResponse (sid : ℕ) : ∃ full, IsResponse sid full := by
  have h : IsHead sid true (headerFrames sid 1 [] true) := headerFrames_isHead Nat.one_pos
  exact ⟨_, h.isResponse⟩

lemma permitted_nil (sid : ℕ) : Permitted sid [] := by
  obtain ⟨full, hf⟩ := exists_isResponse sid
  exact .inl ⟨full, hf, nil_prefix⟩

lemma Underway.permitted (h : Underway sid frames) : Permitted sid frames :=
  .inl ⟨_, h.finish [], prefix_append _ _⟩

/-- RST_STREAM in place of a response. -/
lemma permitted_reset (sid : ℕ) (e : Http2ErrorCode) : Permitted sid [rstFrame sid e] := by
  obtain ⟨full, hf⟩ := exists_isResponse sid
  exact .inr ⟨[], full, _, hf, nil_prefix, by simp, rfl, rfl⟩

/-- RST_STREAM in the middle of one. -/
lemma Underway.reset (h : Underway sid frames) (e : Http2ErrorCode) :
    Permitted sid (frames ++ [rstFrame sid e]) := by
  refine .inr ⟨frames, _, _, h.finish [], prefix_append _ _, ?_, rfl, rfl⟩
  obtain ⟨head, body, rfl, ⟨⟨first, rest, rfl, hfi, hes, hr⟩, _, _⟩, hb⟩ := h
  intro f hf
  rcases mem_append.mp hf with hf | hf
  · rcases mem_cons.mp hf with rfl | hf
    · simp [Frame.EndsStream, hes]
    · simp [Frame.EndsStream, hr f hf]
  · simp [Frame.EndsStream, (hb f hf).2]

end Growth

/-! ## Stages -/

variable {ev : List Event} {es : Bool}

section Logs

variable {sid : ℕ} {frames : List Frame}

@[simp] lemma written_append (log ev : List Event) :
    written (log ++ ev) = written log ++ written ev := by
  simp [written]

@[simp] lemma writtenOn_append (sid : ℕ) (log ev : List Event) :
    writtenOn sid (log ++ ev) = writtenOn sid log ++ writtenOn sid ev := by
  simp [writtenOn]

@[simp] lemma written_wrote (frames : List Frame) : written (frames.map .wrote) = frames := by
  induction frames with
  | nil => rfl
  | cons f rest ih => simp [written]

@[simp] lemma written_single (f : Frame) : written [.wrote f] = [f] := rfl

@[simp] lemma written_received (f : Frame) : written [.received f] = [] := rfl

@[simp] lemma written_readEvents (sid : ℕ) (chunk : PendingBody.Chunk) :
    written (readEvents sid chunk) = [] := by
  cases h : chunk.outcome <;> simp [written, readEvents, h]

/-- Nothing stands on a stream whose frames are elsewhere. -/
lemma writtenOn_of_other
    (h : ∀ f ∈ written ev, f.header.streamId ≠ sid ∨ f.header.frameType = .windowUpdate) :
    writtenOn sid ev = [] := by
  rw [writtenOn, filter_eq_nil_iff]
  intro f hf
  rcases h f hf with h | h
  · simp [h]
  · simp [h]

lemma writtenOn_of_own
    (h : ∀ f ∈ written ev, f.header.streamId = sid ∧ f.header.frameType ≠ .windowUpdate) :
    writtenOn sid ev = written ev := by
  rw [writtenOn, filter_eq_self]
  intro f hf
  simpa using h f hf

end Logs

/-- How far stream `sid` has got: nothing is written before its response, the head comes with the
phase `sending`, and where there is no slot the stream has not been opened or is over. -/
structure Stage (sid lastStreamId : ℕ) (phase : Option Phase) (frames : List Frame) : Prop where
  idle : lastStreamId < sid → phase = none ∧ frames = []
  waiting : ∀ p, phase = some p → p.Waiting → frames = []
  sending : ∀ body, phase = some (.sending body) → Underway sid frames
  ended : phase = none → Permitted sid frames

section Stages

variable {sid lastStreamId : ℕ} {phase : Option Phase} {frames : List Frame}

/-- Whatever its stage, a stream has written what it may. -/
lemma Stage.permitted (h : Stage sid lastStreamId phase frames) : Permitted sid frames := by
  cases phase with
  | none => exact h.ended rfl
  | some p =>
    cases p with
    | sending body => exact (h.sending body rfl).permitted
    | receiving =>
      rw [h.waiting _ rfl trivial]
      exact permitted_nil sid
    | awaiting =>
      rw [h.waiting _ rfl trivial]
      exact permitted_nil sid

/-- A stream that holds a slot has been opened. -/
lemma Stage.opened {p : Phase} (h : Stage sid lastStreamId (some p) frames) :
    sid ≤ lastStreamId := by
  by_contra hlt
  have hi := (h.idle (Nat.not_le.mp hlt)).1
  cases hi

/-- A stream that has been opened and holds no slot. -/
lemma Stage.closed (ho : sid ≤ lastStreamId) (h : Permitted sid frames) :
    Stage sid lastStreamId none frames where
  idle := fun hlt => absurd ho (Nat.not_le.mpr hlt)
  waiting := by simp
  sending := by simp
  ended := fun _ => h

/-- A stream whose response has not begun. -/
lemma Stage.ofWaiting {p : Phase} (ho : sid ≤ lastStreamId) (hp : p.Waiting) :
    Stage sid lastStreamId (some p) [] where
  idle := fun hlt => absurd ho (Nat.not_le.mpr hlt)
  waiting := by simp
  sending := by
    rintro body ⟨⟩
    exact hp.elim
  ended := by simp

lemma Stage.ofSending {body : PendingBody} (ho : sid ≤ lastStreamId)
    (h : Underway sid frames) : Stage sid lastStreamId (some (.sending body)) frames where
  idle := fun hlt => absurd ho (Nat.not_le.mpr hlt)
  waiting := by
    rintro p ⟨⟩ hp
    exact hp.elim
  sending := fun _ _ => h
  ended := by simp

/-- Opening other streams does not matter to one that holds a slot or is over. -/
lemma Stage.later {last' : ℕ} (h : Stage sid lastStreamId phase frames)
    (hl : lastStreamId ≤ last') : Stage sid last' phase frames where
  idle := fun hlt => h.idle (hl.trans_lt hlt)
  waiting := h.waiting
  sending := h.sending
  ended := h.ended

end Stages

/-- Every stream is at the stage its slot tells. -/
def Staged (log : List Event) (m : Mux) : Prop :=
  ∀ sid, sid ≠ 0 → Stage sid m.lastStreamId ((m.slots sid).map Slot.phase) (writtenOn sid log)

variable {sid : ℕ}

section Steps

variable {m m' : Mux} {log ev : List Event}

/-- A step that moves no stream and writes nothing on one. -/
lemma Staged.quiet (h : Staged log m)
    (hp : ∀ sid, (m'.slots sid).map Slot.phase = (m.slots sid).map Slot.phase)
    (hl : m'.lastStreamId = m.lastStreamId)
    (hev : ∀ f ∈ written ev, f.header.streamId = 0 ∨ f.header.frameType = .windowUpdate) :
    Staged (log ++ ev) m' := by
  intro sid hs
  have hn : writtenOn sid ev = [] := by
    apply writtenOn_of_other
    intro f hf
    rcases hev f hf with h0 | hw
    · exact .inl (by rw [h0]; exact hs.symm)
    · exact .inr hw
  rw [writtenOn_append, hn, append_nil, hp, hl]
  exact h sid hs

/-- A step that moves stream `i` and writes on no other. -/
lemma Staged.move (i : ℕ) (h : Staged log m) (hl : m.lastStreamId ≤ m'.lastStreamId)
    (ho : ∀ j, j ≠ i → m'.slots j = m.slots j)
    (hev : ∀ f ∈ written ev, f.header.streamId = i ∧ f.header.frameType ≠ .windowUpdate)
    (hown : Stage i m.lastStreamId ((m.slots i).map Slot.phase) (writtenOn i log) →
      Stage i m'.lastStreamId ((m'.slots i).map Slot.phase) (writtenOn i log ++ written ev)) :
    Staged (log ++ ev) m' := by
  intro sid hs
  rw [writtenOn_append]
  by_cases hi : sid = i
  · subst hi
    rw [writtenOn_of_own hev]
    exact hown (h sid hs)
  · have hn : writtenOn sid ev = [] := by
      apply writtenOn_of_other
      intro f hf
      exact .inl (by rw [(hev f hf).1]; exact Ne.symm hi)
    rw [hn, append_nil, ho sid hi]
    exact (h sid hs).later hl

lemma Staged.head {block : Bytes} {f : Frame}
    (hf : f ∈ written ((headerFrames sid m.peerMaxFrame block es).map .wrote)) :
    f.header.streamId = sid ∧ f.header.frameType ≠ .windowUpdate := by
  rw [written_wrote] at hf
  refine ⟨(mem_headerFrames hf).streamId, ?_⟩
  rcases mem_cons.mp hf with rfl | hf
  · simp [firstHeaderFrame]
  · simp [continuationFrames_type f hf]

/-- **Every step keeps every stream at its stage.** -/
lemma Staged.step (h : Staged log m) (hst : m.Step ev m') : Staged (log ++ ev) m' := by
  cases hst with
  | @control f hf =>
    refine h.quiet (fun _ => rfl) rfl ?_
    intro g hg
    rw [written_single, mem_singleton] at hg
    rw [hg]
    exact hf.type.imp And.right id
  | quiet hf => exact h.quiet (fun _ => rfl) rfl (by simp)
  | @settings f settings hf =>
    obtain ⟨hp, hl⟩ := m.applySettings_phase settings
    exact h.quiet hp hl (by simp)
  | connCredit hf hsid => exact h.quiet (fun _ => rfl) rfl (by simp)
  | @streamCredit f n slot hf hsid hsl =>
    refine h.quiet (fun i => ?_) rfl (by simp)
    by_cases hi : i = f.header.streamId
    · subst hi
      simp [hsl]
    · simp [hi]
  | staleCredit hf hsid hsl => exact h.quiet (fun _ => rfl) rfl (by simp)
  | @clientReset f e hf =>
    refine h.move f.header.streamId le_rfl (fun j hj => by simp [hj]) (by simp) ?_
    intro hs
    rw [Mux.put_slots_same, written_received, append_nil]
    exact ⟨fun hlt => ⟨rfl, (hs.idle hlt).2⟩, by simp, by simp,
      fun _ => hs.permitted⟩
  | @refuse f block es eh hf hl =>
    refine h.move f.header.streamId hl.le (fun j hj => rfl) ?_ ?_
    · simp [written, rstFrame]
    · intro hs
      obtain ⟨hn, hnil⟩ := hs.idle hl
      rw [hn, hnil]
      exact .closed le_rfl (permitted_reset _ _)
  | @accept f block es eh hf hl =>
    refine h.move f.header.streamId hl.le (fun j hj => by simp [hj]) (by simp) ?_
    intro hs
    rw [(hs.idle hl).2, Mux.put_slots_same]
    exact .ofWaiting le_rfl trivial
  | @park sid slot hsl hp =>
    refine h.move sid le_rfl (fun j hj => by simp [hj]) (by simp [written]) ?_
    intro hs
    rw [hsl] at hs
    rw [hs.waiting _ rfl hp, Mux.put_slots_same]
    exact .ofWaiting hs.opened trivial
  | @finish sid slot block hsl hp hm =>
    refine h.move sid le_rfl (fun j hj => by simp [hj]) (fun f hf => Staged.head hf) ?_
    intro hs
    rw [hsl] at hs
    rw [hs.waiting _ rfl hp, Mux.put_slots_same, written_wrote]
    exact .closed hs.opened (headerFrames_isHead hm).isResponse.permitted
  | @respond sid slot block body hsl hp hm =>
    refine h.move sid le_rfl (fun j hj => by simp [hj]) (fun f hf => Staged.head hf) ?_
    intro hs
    rw [hsl] at hs
    rw [hs.waiting _ rfl hp, Mux.put_slots_same, written_wrote]
    exact .ofSending hs.opened (headerFrames_isHead hm).underway
  | @upstreamFailed sid w hsl =>
    refine h.move sid le_rfl (fun j hj => by simp [hj]) (by simp [rstFrame]) ?_
    intro hs
    rw [hsl] at hs
    rw [hs.waiting _ rfl trivial, Mux.put_slots_same]
    exact .closed hs.opened (permitted_reset _ _)
  | @stalled sid w body choice amount hsl ha hr =>
    refine h.move sid le_rfl (fun j hj => by simp [hj]) (by simp) ?_
    intro hs
    rw [hsl] at hs
    rw [Mux.put_slots_same, written_readEvents, append_nil]
    exact .ofSending hs.opened (hs.sending _ rfl)
  | @send sid w body choice amount data done hsl ha hr hd =>
    refine h.move sid le_rfl (fun j hj => by simp [hj]) (by simp [dataFrame]) ?_
    intro hs
    rw [hsl] at hs
    have hu := hs.sending _ rfl
    rw [Mux.put_slots_same, written_append, written_readEvents]
    cases done with
    | true => exact .closed hs.opened (hu.finish data).permitted
    | false => exact .ofSending hs.opened (hu.data data)
  | @finishBody sid w body choice amount hsl ha hr =>
    refine h.move sid le_rfl (fun j hj => by simp [hj]) (by simp [dataFrame]) ?_
    intro hs
    rw [hsl] at hs
    rw [Mux.put_slots_same, written_append, written_readEvents]
    exact .closed hs.opened ((hs.sending _ rfl).finish []).permitted
  | @failBody sid w body choice amount e hsl ha hr =>
    refine h.move sid le_rfl (fun j hj => by simp [hj]) (by simp [rstFrame]) ?_
    intro hs
    rw [hsl] at hs
    rw [Mux.put_slots_same, written_append, written_readEvents]
    exact .closed hs.opened ((hs.sending _ rfl).reset e)

/-- **After every run of the machine each stream is at its stage.** -/
lemma staged_of_runs (h : Runs Mux.Step Mux.init log m) : Staged log m := by
  refine Runs.invariant ?_ (fun _ _ _ _ hs hst => hs.step hst) h
  intro sid hsid
  exact ⟨fun _ => ⟨rfl, rfl⟩, by simp [Mux.init], by simp [Mux.init], fun _ => permitted_nil sid⟩

end Steps

/-! ## Heads in one piece -/

/-- Frames that neither begin nor end within a response head and break none. -/
structure Whole (frames : List Frame) : Prop where
  chain : frames.IsChain Follows
  first : ∀ f ∈ frames.head?, f.header.frameType ≠ .continuation
  last : ∀ f ∈ frames.getLast?, ¬ f.Unfinished

section Chains

variable {xs ys : List Frame}

lemma Whole.nil : Whole [] := ⟨isChain_nil, by simp, by simp⟩

lemma Whole.single {f : Frame} (hh : f.header.frameType ≠ .headers)
    (hc : f.header.frameType ≠ .continuation) : Whole [f] := by
  refine ⟨isChain_singleton f, by simpa using hc, ?_⟩
  intro g hg
  simp only [List.getLast?_singleton, Option.mem_some_iff] at hg
  subst hg
  simp [Frame.Unfinished, hh, hc]

/-- Frames that do not begin within a head may follow whole heads. -/
lemma Whole.chain_append (hx : Whole xs) (hy : ys.IsChain Follows)
    (hfi : ∀ f ∈ ys.head?, f.header.frameType ≠ .continuation) :
    (xs ++ ys).IsChain Follows := by
  refine List.IsChain.append hx.chain hy ?_
  intro g hg f hf
  exact ⟨fun hc => absurd hc (hfi f hf), fun hu => absurd hu (hx.last g hg)⟩

lemma Whole.first_append (hx : Whole xs)
    (hf : ∀ f ∈ ys.head?, f.header.frameType ≠ .continuation) :
    ∀ f ∈ (xs ++ ys).head?, f.header.frameType ≠ .continuation := by
  cases xs with
  | nil => simpa using hf
  | cons x xs => simpa using hx.first

lemma Whole.append (hx : Whole xs) (hy : Whole ys) : Whole (xs ++ ys) := by
  refine ⟨hx.chain_append hy.chain hy.first, hx.first_append hy.first, ?_⟩
  rcases eq_nil_or_concat ys with rfl | ⟨ys, y, rfl⟩
  · simpa using hx.last
  · have hl := hy.last
    simpa [← append_assoc] using hl

/-- The fragments of a head follow one another. -/
lemma IsHead.chain (h : IsHead sid es xs) : xs.IsChain Follows := by
  rw [isChain_iff_forall_rel_of_append_cons_cons]
  intro g f before after hs
  obtain ⟨first, rest, hxs, hfi, _, hr⟩ := h.shape
  -- only the first frame is HEADERS, so `f` is CONTINUATION
  have hf : f.header.frameType = .continuation := by
    apply hr
    rw [hxs] at hs
    cases before with
    | nil =>
      rw [nil_append, List.cons.injEq] at hs
      simp [hs.2]
    | cons b before =>
      rw [cons_append, List.cons.injEq] at hs
      simp [hs.2]
  have hg : g.header.frameType = .headers ∨ g.header.frameType = .continuation := by
    have hm : g ∈ first :: rest := by simp [← hxs, hs]
    rcases mem_cons.mp hm with rfl | hm
    · exact .inl hfi
    · exact .inr (hr g hm)
  have hend : g.endHeaders = false := by
    by_contra hne
    have hn := (hs ▸ h.last).eq_nil (by simpa using hne)
    cases hn
  have hst : f.header.streamId = g.header.streamId := by
    rw [h.stream f (by simp [hs]), h.stream g (by simp [hs])]
  exact ⟨fun _ => ⟨⟨hg, hend⟩, hst⟩, fun _ => .inl hf⟩

lemma IsHead.first (h : IsHead sid es xs) : ∀ f ∈ xs.head?, f.header.frameType ≠ .continuation := by
  obtain ⟨first, rest, rfl, hf, _⟩ := h.shape
  simp [hf]

lemma IsHead.whole (h : IsHead sid es xs) : Whole xs := by
  refine ⟨h.chain, h.first, ?_⟩
  obtain ⟨init, last, rfl, hl, _⟩ := h.last
  simp [Frame.Unfinished, hl]

/-- A step writes whole heads. -/
lemma whole_of_step {m m' : Mux} (hst : m.Step ev m') : Whole (written ev) := by
  cases hst with
  | control hf =>
    rcases hf.type with ⟨h | h, _⟩ | h
    all_goals exact .single (by simp [h]) (by simp [h])
  | refuse hf hl => exact .single (by simp [rstFrame]) (by simp [rstFrame])
  | park hs hp => exact .nil
  | finish hs hp hm =>
    rw [written_wrote]
    exact (headerFrames_isHead hm).whole
  | respond hs hp hm =>
    rw [written_wrote]
    exact (headerFrames_isHead hm).whole
  | upstreamFailed hs => exact .single (by simp [rstFrame]) (by simp [rstFrame])
  | stalled hs ha hr =>
    rw [written_readEvents]
    exact .nil
  | send hs ha hr hd =>
    rw [written_append, written_readEvents]
    exact .single (by simp [dataFrame]) (by simp [dataFrame])
  | finishBody hs ha hr =>
    rw [written_append, written_readEvents]
    exact .single (by simp [dataFrame]) (by simp [dataFrame])
  | failBody hs ha hr =>
    rw [written_append, written_readEvents]
    exact .single (by simp [rstFrame]) (by simp [rstFrame])
  | _ =>
    exact .nil

lemma whole_of_runs {m m' : Mux} {log : List Event} (h : Runs Mux.Step m log m') :
    Whole (written log) := by
  induction h with
  | refl => exact .nil
  | tail hr hs ih =>
    rw [written_append]
    exact ih.append (whole_of_step hs)

/-- What a call that fails leaves behind begins no frame within a head, and breaks none before
the point of failure. -/
lemma chain_of_abandoned {m : Mux} {tail : List Event} (h : m.Abandoned tail) :
    (written tail).IsChain Follows ∧
      ∀ f ∈ (written tail).head?, f.header.frameType ≠ .continuation := by
  cases h with
  | nothing => exact ⟨isChain_nil, by simp [written]⟩
  | rejected f => exact ⟨isChain_nil, by simp⟩
  | @response sid slot block es frames hs hp hm hfr =>
    rw [written_wrote]
    have hh : IsHead sid es (headerFrames sid m.peerMaxFrame block es) :=
      headerFrames_isHead hm
    obtain ⟨rest, hr⟩ := hfr
    rw [← hr] at hh
    refine ⟨hh.chain.left_of_append, ?_⟩
    have hfi := hh.first
    intro f hf
    exact hfi f (mem_head?_append_of_mem_head? hf)
  | read hs ha => simp

end Chains

/-! ## The end of a stream -/

section Ends

variable {sid : ℕ} {frames before after : List Frame} {f : Frame}

lemma IsHead.type (h : IsHead sid es frames) (hf : f ∈ frames) :
    f.header.frameType = .headers ∨ f.header.frameType = .continuation := by
  obtain ⟨first, rest, rfl, hfi, _, hr⟩ := h.shape
  rcases mem_cons.mp hf with rfl | hf
  · exact .inl hfi
  · exact .inr (hr f hf)

lemma IsResponse.type_ne_rst (h : IsResponse sid frames) (hf : f ∈ frames) :
    f.header.frameType ≠ .rstStream := by
  obtain ⟨head, body, rfl, hh, hb, _⟩ := h
  rcases mem_append.mp hf with hf | hf
  · rcases hh.type hf with h | h <;> simp [h]
  · simp [hb f hf]

/-- The DATA frame with END_STREAM is the last. -/
lemma IsResponse.after_data (h : IsResponse sid (before ++ f :: after))
    (ht : f.header.frameType = .data) (hend : f.endStream = true) : after = [] := by
  obtain ⟨head, body, heq, hh, _, hl⟩ := h
  have hb : ∃ part, body = part ++ f :: after := by
    rcases append_eq_append_iff.mp heq with ⟨mid, hmid, hr⟩ | ⟨part, _, hp⟩
    · cases mid with
      | nil => exact ⟨[], by simpa using hr.symm⟩
      | cons g mid =>
        -- then `f` would be a fragment of the head
        rw [cons_append, List.cons.injEq] at hr
        have hm : f ∈ head := by simp [hmid, hr.1]
        rcases hh.type hm with h | h <;> simp [h] at ht
    · exact ⟨part, hp⟩
  obtain ⟨part, rfl⟩ := hb
  rcases hl with hn | hl
  · simp at hn
  · exact hl.eq_nil hend

/-- After HEADERS with END_STREAM only its own CONTINUATION comes. -/
lemma IsResponse.after_headers (h : IsResponse sid (before ++ f :: after))
    (ht : f.header.frameType = .headers) (hend : f.endStream = true) :
    ∀ g ∈ after, g.header.frameType = .continuation := by
  obtain ⟨head, body, heq, hh, hb, _⟩ := h
  obtain ⟨first, rest, rfl, _, hes, hr⟩ := hh.shape
  cases before with
  | nil =>
    obtain ⟨rfl, rfl⟩ := heq
    rw [hend, eq_comm, List.isEmpty_iff] at hes
    simpa [hes] using hr
  | cons b before =>
    -- HEADERS is the first frame of a response
    rw [cons_append, cons_append, List.cons.injEq] at heq
    have hm : f ∈ rest ++ body := by simp [← heq.2]
    rcases mem_append.mp hm with hm | hm
    · simp [hr f hm] at ht
    · simp [hb f hm] at ht

/-- **Nothing is written on a stream after RST_STREAM or after the end of its response.** -/
lemma Permitted.nothing_after (h : Permitted sid (before ++ f :: after)) :
    (f.header.frameType = .rstStream ∨ f.header.frameType = .data ∧ f.endStream = true →
        after = []) ∧
      (f.header.frameType = .headers ∧ f.endStream = true →
        ∀ g ∈ after, g.header.frameType = .continuation) := by
  obtain ⟨full, hf, rest, rfl⟩ | ⟨part, full, reset, hf, hp, hen, heq, _⟩ := h
  · rw [append_assoc] at hf
    constructor
    · rintro (ht | ⟨ht, hend⟩)
      · exact absurd ht (hf.type_ne_rst (by simp))
      · exact (append_eq_nil_iff.mp (hf.after_data ht hend)).1
    · rintro ⟨ht, hend⟩ g hg
      exact hf.after_headers ht hend g (by simp [hg])
  · rcases eq_nil_or_concat after with rfl | ⟨after, last, rfl⟩
    · simp
    · -- a frame before RST_STREAM ends nothing
      have hs : (before ++ f :: after) ++ [last] = part ++ [reset] := by simpa using heq
      have hm : f ∈ part := by simp [← (append_inj' hs rfl).1]
      constructor
      · rintro (ht | ⟨ht, hend⟩)
        · exact absurd ht (hf.type_ne_rst (hp.subset hm))
        · exact absurd ⟨.inr ht, hend⟩ (hen f hm)
      · rintro ⟨ht, hend⟩
        exact absurd ⟨.inl ht, hend⟩ (hen f hm)

end Ends

/-! ## The connection's output -/

/-- What a call that fails has begun on a stream is the beginning of its response. -/
lemma Staged.permitted_append {m : Mux} {log tail : List Event} (h : Staged log m)
    (ht : m.Abandoned tail) (hsid : sid ≠ 0) : Permitted sid (writtenOn sid (log ++ tail)) := by
  have hs := h sid hsid
  rw [writtenOn_append]
  cases ht with
  | nothing => simpa [writtenOn, written] using hs.permitted
  | rejected f => simpa [writtenOn] using hs.permitted
  | read hsl ha => simpa [writtenOn] using hs.permitted
  | @response i slot block es frames hsl hp hmax hfr =>
    have hh : IsHead i es (headerFrames i m.peerMaxFrame block es) :=
      headerFrames_isHead hmax
    have hev : ∀ f ∈ written (frames.map .wrote),
        f.header.streamId = i ∧ f.header.frameType ≠ .windowUpdate := by
      intro f hf
      rw [written_wrote] at hf
      have hm := hfr.subset hf
      refine ⟨hh.stream f hm, ?_⟩
      rcases hh.type hm with h | h <;> simp [h]
    by_cases hi : sid = i
    · subst hi
      rw [hsl] at hs
      rw [hs.waiting _ rfl hp, writtenOn_of_own hev, written_wrote]
      exact hh.part_permitted hfr
    · have hn : writtenOn sid (frames.map .wrote) = [] := by
        apply writtenOn_of_other
        intro f hf
        exact .inl (by rw [(hev f hf).1]; exact Ne.symm hi)
      rw [hn, append_nil]
      exact hs.permitted

lemma mem_written_sendGoaway {last : ℕ} {goAway : Option Http2ErrorCode} {f : Frame}
    (hf : f ∈ written (sendGoaway last goAway)) :
    f.header.frameType = .goAway ∧ f.header.streamId = 0 := by
  cases goAway with
  | none => simp [sendGoaway, written] at hf
  | some e =>
    rw [sendGoaway, Option.toList_some, map_singleton, written_single,
      mem_singleton] at hf
    rw [hf]
    exact ⟨rfl, rfl⟩

/-- GOAWAY may follow anything. -/
lemma isChain_append_sendGoaway {xs : List Frame} (h : xs.IsChain Follows) (last : ℕ)
    (goAway : Option Http2ErrorCode) :
    (xs ++ written (sendGoaway last goAway)).IsChain Follows := by
  refine List.IsChain.append h ?_ ?_
  · cases goAway with
    | none => exact isChain_nil
    | some e => exact isChain_singleton _
  · intro g _ f hf
    have ht := (mem_written_sendGoaway (mem_of_mem_head? hf)).1
    exact ⟨fun hc => by simp [ht] at hc, fun _ => .inr ht⟩

/-- **The output grammar.**  Over a whole connection, whatever calls were made and however it
ended, what stands on each stream is permitted, nothing comes after the end of a stream, and no
frame comes between the fragments of a response head. -/
theorem output_grammar (config : ServerConfig) (secure : Bool) (calls : List (Env × Call))
    (goAway : Option Http2ErrorCode) :
    (∀ sid, sid ≠ 0 → Permitted sid (writtenOn sid (connectionLog config secure calls goAway))) ∧
      (∀ sid, sid ≠ 0 → ∀ before f after,
        writtenOn sid (connectionLog config secure calls goAway) = before ++ f :: after →
        (f.header.frameType = .rstStream ∨ f.header.frameType = .data ∧ f.endStream = true →
          after = []) ∧
        (f.header.frameType = .headers ∧ f.endStream = true →
          ∀ g ∈ after, g.header.frameType = .continuation)) ∧
      (written (connectionLog config secure calls goAway)).IsChain Follows ∧
      ∀ f ∈ (written (connectionLog config secure calls goAway)).head?,
        f.header.frameType ≠ .continuation := by
  have htorn : Torn Base.new (stateAfter config secure calls) :=
    wp_stateOf (wp_mono (runCalls_tracks calls (start_tracks config secure))
      (fun _ _ h => h.torn) (fun _ _ h => h))
  simp only [connectionLog]
  generalize stateAfter config secure calls = s at htorn ⊢
  obtain ⟨m, trace, tail, ⟨log, hreach, hruns⟩, htail, htrace⟩ := htorn
  rw [Base.new, nil_append] at hreach
  subst hreach
  rw [htrace]
  have hpermitted : ∀ sid, sid ≠ 0 → Permitted sid
      (writtenOn sid (trace ++ tail ++ sendGoaway s.conn.lastStreamId goAway)) := by
    intro sid hsid
    have hnone : writtenOn sid (sendGoaway s.conn.lastStreamId goAway) = [] := by
      apply writtenOn_of_other
      intro f hf
      exact .inl (by rw [(mem_written_sendGoaway hf).2]; exact hsid.symm)
    rw [writtenOn_append, hnone, append_nil]
    exact (staged_of_runs hruns).permitted_append htail hsid
  have hwhole := whole_of_runs hruns
  obtain ⟨hchain, hfirst⟩ := chain_of_abandoned htail
  refine ⟨hpermitted, ?_, ?_, ?_⟩
  · intro sid hsid before f after hsplit
    exact (hsplit ▸ hpermitted sid hsid).nothing_after
  · rw [written_append, written_append]
    exact isChain_append_sendGoaway (hwhole.chain_append hchain hfirst) _ _
  · rw [written_append, written_append, append_assoc]
    apply hwhole.first_append
    intro f hf
    rw [List.head?_append, Option.mem_def, Option.or_eq_some_iff] at hf
    rcases hf with hf | ⟨_, hf⟩
    · exact hfirst f hf
    · simp [(mem_written_sendGoaway (mem_of_mem_head? hf)).1]

end Veysrs
