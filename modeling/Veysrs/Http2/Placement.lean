import Veysrs.Http2.Effects
import Veysrs.Http2.Mux

/-!
# Where the connection keeps a stream

A stream that holds a slot of the abstract machine stands, in the connection, in exactly one of
three collections, and has a send window.  `Located` says so for one stream, `Refines` for the
whole connection.  While a call works on a stream it has taken it out of its collection; that
state in between is `Holds`.
-/

namespace Veysrs

open Core

/-- The bodies queued for a stream. -/
def Http2Connection.bodiesOf (c : Http2Connection) (sid : ℕ) : List PendingBody :=
  (c.pendingResponses.filter (·.streamId = sid)).map (·.body)

/-- How often a stream waits for an upstream's headers. -/
def Http2Connection.awaitingCount (c : Http2Connection) (sid : ℕ) : ℕ :=
  (c.pendingHeaderResponses.map (·.streamId)).count sid

/-- The identifier of the active stream at key `sid`. -/
def Http2Connection.activeId (c : Http2Connection) (sid : ℕ) : Option ℕ :=
  (c.activeStreams.lookup sid).map Stream.id

/-- The bodies a phase accounts for. -/
def placeBodies : Option Phase → List PendingBody
  | some (.sending body) => [body]
  | _ => []

/-- Stream `sid` has the send window `window` and stands in the collection `place` names, once,
and in no other. -/
structure Located (c : Http2Connection) (sid : ℕ) (window : Option ℤ) (place : Option Phase) :
    Prop where
  window : (c.sendStreamWindows.lookup sid).map Window.toInt = window
  active : c.activeId sid = if place = some .receiving then some sid else none
  awaiting : c.awaitingCount sid = if place = some .awaiting then 1 else 0
  sending : c.bodiesOf sid = placeBodies place

/-- A stream is where its slot says. -/
def Placed (c : Http2Connection) (sid : ℕ) (slot : Option Slot) : Prop :=
  Located c sid (slot.map Slot.window) (slot.map Slot.phase)

/-- Two connections keep stream `sid` at the same place. -/
structure SameAt (sid : ℕ) (c c' : Http2Connection) : Prop where
  window : c'.sendStreamWindows.lookup sid = c.sendStreamWindows.lookup sid
  active : c'.activeId sid = c.activeId sid
  awaiting : c'.awaitingCount sid = c.awaitingCount sid
  sending : c'.bodiesOf sid = c.bodiesOf sid

variable {sid : ℕ} {m : Mux}

lemma Located.of_sameAt {c c' : Http2Connection} {w : Option ℤ} {p : Option Phase}
    (h : Located c sid w p) (hs : SameAt sid c c') : Located c' sid w p :=
  { window := by rw [hs.window, h.window]
    active := by rw [hs.active, h.active]
    awaiting := by rw [hs.awaiting, h.awaiting]
    sending := by rw [hs.sending, h.sending] }

lemma SameAt.trans {c c' c'' : Http2Connection} (h : SameAt sid c c') (h' : SameAt sid c' c'') :
    SameAt sid c c'' :=
  { window := h'.window.trans h.window
    active := h'.active.trans h.active
    awaiting := h'.awaiting.trans h.awaiting
    sending := h'.sending.trans h.sending }

/-! ## The numbers of the connection -/

/-- What every reachable state of the machine satisfies. -/
structure Mux.Sound (m : Mux) : Prop where
  initialFits : m.peerInitial ≤ maxWindowSize
  frameMin : defaultMaxFrameSize ≤ m.peerMaxFrame
  below : ∀ i slot, m.slots i = some slot → i ≤ m.lastStreamId

lemma Mux.Sound.frame_pos (h : m.Sound) : 0 < m.peerMaxFrame := by
  have hm := h.frameMin
  simp only [defaultMaxFrameSize] at hm
  omega

lemma Mux.Sound.put (h : m.Sound) (hsid : sid ≤ m.lastStreamId) (slot : Option Slot) :
    (m.put sid slot).Sound := by
  refine ⟨h.initialFits, h.frameMin, fun i slot' hs => ?_⟩
  by_cases hi : i = sid
  · exact hi ▸ hsid
  · rw [Mux.put_slots_of_ne _ hi] at hs
    exact h.below i slot' hs

/-- The connection's numbers are the machine's. -/
structure Scalars (c : Http2Connection) (m : Mux) : Prop where
  lastStreamId : c.lastStreamId = m.lastStreamId
  connWindow : c.peerConnectionWindow.toInt = m.connWindow
  peerInitial : c.peerInitialStreamWindowSize = m.peerInitial
  peerMaxFrame : c.peerMaxFrameSize = m.peerMaxFrame
  capacity : c.trackedStreamCount ≤ c.maxConcurrentStreams
  sound : m.Sound

/-- The numbers `Scalars` reads. -/
def Http2Connection.numbers (c : Http2Connection) : ℕ × Window × ℕ × ℕ × ℕ × ℕ :=
  (c.lastStreamId, c.peerConnectionWindow, c.peerInitialStreamWindowSize, c.peerMaxFrameSize,
    c.trackedStreamCount, c.maxConcurrentStreams)

lemma Scalars.of_numbers {c c' : Http2Connection} (h : Scalars c m) (hn : c'.numbers = c.numbers) :
    Scalars c' m := by
  simp only [Http2Connection.numbers, Prod.mk.injEq] at hn
  obtain ⟨h1, h2, h3, h4, h5, h6⟩ := hn
  exact ⟨h1.trans h.lastStreamId, by rw [h2, h.connWindow], h3.trans h.peerInitial,
    h4.trans h.peerMaxFrame, by rw [h5, h6]; exact h.capacity, h.sound⟩

/-- **The connection `c` is a state `m` of the abstract machine.** -/
structure Refines (c : Http2Connection) (m : Mux) : Prop where
  scalars : Scalars c m
  placed : ∀ i, Placed c i (m.slots i)

/-- A call has taken stream `sid` out of its collection; everything else is in place. -/
structure Holds (c : Http2Connection) (m : Mux) (sid : ℕ) (w : ℤ) : Prop where
  scalars : Scalars c m
  opened : sid ≤ m.lastStreamId
  others : ∀ i, i ≠ sid → Placed c i (m.slots i)
  held : Located c sid (some w) none

/-- Put the stream that was held where the slot says. -/
lemma Holds.put {c c' : Http2Connection} {m' : Mux} {w : ℤ} {slot : Option Slot}
    (h : Holds c m sid w) (hs : Scalars c' m') (hsl : m'.slots = m.slots)
    (hl : m'.lastStreamId = m.lastStreamId) (hsa : ∀ i, i ≠ sid → SameAt i c c')
    (hp : Placed c' sid slot) : Refines c' (m'.put sid slot) := by
  have hso := hs.sound.put (hl ▸ h.opened) slot
  refine ⟨⟨hs.1, hs.2, hs.3, hs.4, hs.5, hso⟩, fun i => ?_⟩
  by_cases hi : i = sid
  · subst hi
    simpa using hp
  · rw [Mux.put_slots_of_ne _ hi, hsl]
    exact (h.others i hi).of_sameAt (hsa i hi)

/-! ## The connection's operations -/

section Operations

variable {c : Http2Connection} {sid i : ℕ} {w : Option ℤ} {p : Option Phase}

lemma markClosedStream_sameAt (c : Http2Connection) (sid i : ℕ) :
    SameAt i c (c.markClosedStream sid) := by
  unfold Http2Connection.markClosedStream
  split_ifs
  · exact ⟨rfl, rfl, rfl, rfl⟩
  · exact ⟨rfl, rfl, rfl, rfl⟩

lemma markClosedStream_scalars (h : Scalars c m) (sid : ℕ) :
    Scalars (c.markClosedStream sid) m := by
  unfold Http2Connection.markClosedStream
  split_ifs
  · exact h
  · exact h.of_numbers rfl

lemma release_sameAt (hi : i ≠ sid) : SameAt i c (c.release sid) := by
  refine SameAt.trans ?_ (markClosedStream_sameAt _ sid i)
  exact ⟨AList.lookup_erase_ne hi, rfl, rfl, rfl⟩

lemma release_located (h : Located c sid w p) : Located (c.release sid) sid none p := by
  refine Located.of_sameAt ?_ (markClosedStream_sameAt _ sid sid)
  exact ⟨by simp, h.active, h.awaiting, h.sending⟩

lemma release_scalars (h : Scalars c m) (sid : ℕ) : Scalars (c.release sid) m := by
  apply markClosedStream_scalars
  exact ⟨h.1, h.2, h.3, h.4, (length_keys_erase_le _ _).trans h.capacity, h.sound⟩

lemma enqueue_sameAt (body : PendingBody) (hi : i ≠ sid) : SameAt i c (c.enqueue sid body) := by
  refine ⟨rfl, rfl, rfl, ?_⟩
  simp [Http2Connection.bodiesOf, Http2Connection.enqueue, hi.symm]

lemma enqueue_located (body : PendingBody) (h : Located c sid w none) :
    Located (c.enqueue sid body) sid w (some (.sending body)) := by
  refine ⟨h.window, h.active.trans (by simp), h.awaiting.trans (by simp), ?_⟩
  have hs := h.sending
  simp only [Http2Connection.bodiesOf, placeBodies] at hs ⊢
  simp [Http2Connection.enqueue, hs]

lemma enqueue_scalars (h : Scalars c m) (body : PendingBody) :
    Scalars (c.enqueue sid body) m := h.of_numbers rfl

/-- `pending_header_responses.push_back`. -/
def Http2Connection.await (c : Http2Connection) (pending : PendingHeaderResponse) :
    Http2Connection :=
  { c with pendingHeaderResponses := c.pendingHeaderResponses ++ [pending] }

variable {pending : PendingHeaderResponse}

lemma await_sameAt (hi : i ≠ pending.streamId) : SameAt i c (c.await pending) := by
  refine ⟨rfl, rfl, ?_, rfl⟩
  simp [Http2Connection.awaitingCount, Http2Connection.await, hi.symm]

lemma await_located (h : Located c pending.streamId w none) :
    Located (c.await pending) pending.streamId w (some .awaiting) := by
  refine ⟨h.window, h.active.trans (by simp), ?_, h.sending⟩
  have ha := h.awaiting
  simp only [Http2Connection.awaitingCount] at ha ⊢
  simp_all [Http2Connection.await]

lemma await_scalars (h : Scalars c m) (pending : PendingHeaderResponse) :
    Scalars (c.await pending) m := h.of_numbers rfl

/-- `active_streams.remove`. -/
def Http2Connection.dropActive (c : Http2Connection) (sid : ℕ) : Http2Connection :=
  { c with activeStreams := c.activeStreams.erase sid }

lemma dropActive_sameAt (hi : i ≠ sid) : SameAt i c (c.dropActive sid) := by
  refine ⟨rfl, ?_, rfl, rfl⟩
  simp [Http2Connection.activeId, Http2Connection.dropActive, AList.lookup_erase_ne hi]

/-- Out of the active streams, a stream that was only there is nowhere. -/
lemma dropActive_located (h : Located c sid w (some .receiving)) :
    Located (c.dropActive sid) sid w none := by
  refine ⟨h.window, ?_, h.awaiting.trans (by simp), h.sending⟩
  simp [Http2Connection.activeId, Http2Connection.dropActive]

lemma dropActive_scalars (h : Scalars c m) (sid : ℕ) : Scalars (c.dropActive sid) m :=
  h.of_numbers rfl

/-- Take an active stream out. -/
lemma Refines.takeActive {w : ℤ} (h : Refines c m) (hs : m.slots sid = some ⟨w, .receiving⟩) :
    Holds (c.dropActive sid) m sid w := by
  have hsid := h.placed sid
  rw [hs] at hsid
  exact ⟨dropActive_scalars h.scalars sid, h.scalars.sound.below sid _ hs,
    fun i hi => (h.placed i).of_sameAt (dropActive_sameAt hi), dropActive_located hsid⟩

/-- An active stream is kept under its identifier and holds a slot in the receiving phase. -/
lemma Refines.slot_of_active {st : Stream} (h : Refines c m)
    (hst : c.activeStreams.lookup sid = some st) :
    st.id = sid ∧ ∃ w, m.slots sid = some ⟨w, .receiving⟩ := by
  have ha := (h.placed sid).active
  rw [Http2Connection.activeId, hst, Option.map_some] at ha
  split_ifs at ha with hp
  obtain ⟨⟨w, ph⟩, hs, hph⟩ := Option.map_eq_some_iff.mp hp
  exact ⟨Option.some.inj ha, w, by rw [hs, ← hph]⟩

/-- Take the stream at the head of the upstream queue out. -/
lemma Refines.popAwaiting (h : Refines c m) {rest : List PendingHeaderResponse}
    (hq : c.pendingHeaderResponses = pending :: rest) :
    ∃ w, m.slots pending.streamId = some ⟨w, .awaiting⟩ ∧
      Holds { c with pendingHeaderResponses := rest } m pending.streamId w := by
  have hsid := h.placed pending.streamId
  have hc : c.awaitingCount pending.streamId =
      (rest.map (·.streamId)).count pending.streamId + 1 := by
    simp [Http2Connection.awaitingCount, hq]
  have hp : (m.slots pending.streamId).map Slot.phase = some .awaiting := by
    by_contra hne
    have hz := hsid.awaiting
    rw [if_neg hne] at hz
    omega
  obtain ⟨⟨w, ph⟩, hs, hph⟩ := Option.map_eq_some_iff.mp hp
  cases hph
  rw [hs] at hsid
  refine ⟨w, hs, h.scalars.of_numbers rfl, h.scalars.sound.below _ _ hs,
    fun i hi => ?_, ?_⟩
  · refine (h.placed i).of_sameAt ⟨rfl, rfl, ?_, rfl⟩
    simp [Http2Connection.awaitingCount, hq, Ne.symm hi]
  · refine ⟨hsid.window, hsid.active.trans (by simp), ?_, hsid.sending⟩
    have ho := hsid.awaiting
    rw [hc] at ho
    simpa [Http2Connection.awaitingCount] using ho

/-- A stream with a body queued is sending it. -/
lemma Refines.slot_of_queued (h : Refines c m) {pending : PendingResponse}
    (hm : pending ∈ c.pendingResponses) :
    ∃ w, m.slots pending.streamId = some ⟨w, .sending pending.body⟩ := by
  have hb : pending.body ∈ c.bodiesOf pending.streamId :=
    List.mem_map.mpr ⟨pending, by simp [hm], rfl⟩
  rw [(h.placed pending.streamId).sending] at hb
  rcases hs : m.slots pending.streamId with _ | ⟨w, ph⟩
  · simp [hs, placeBodies] at hb
  cases ph with
  | receiving => simp [hs, placeBodies] at hb
  | awaiting => simp [hs, placeBodies] at hb
  | sending body =>
    simp only [hs, Option.map_some, placeBodies, List.mem_singleton] at hb
    exact ⟨w, by rw [hb]⟩

/-- Take the stream at the head of the body queue out. -/
lemma Refines.popSending (h : Refines c m) {pending : PendingResponse} {rest : List PendingResponse}
    (hq : c.pendingResponses = pending :: rest) :
    ∃ w, m.slots pending.streamId = some ⟨w, .sending pending.body⟩ ∧
      Holds { c with pendingResponses := rest } m pending.streamId w := by
  have hm : pending ∈ c.pendingResponses := by simp [hq]
  obtain ⟨w, hs⟩ := h.slot_of_queued hm
  have hsid := h.placed pending.streamId
  rw [hs] at hsid
  have hr : (rest.filter (·.streamId = pending.streamId)).map (·.body) = [] := by
    simpa [Http2Connection.bodiesOf, hq, placeBodies] using hsid.sending
  refine ⟨w, hs, h.scalars.of_numbers rfl, h.scalars.sound.below _ _ hs,
    fun i hi => ?_, ?_⟩
  · refine (h.placed i).of_sameAt ⟨rfl, rfl, rfl, ?_⟩
    simp [Http2Connection.bodiesOf, hq, Ne.symm hi]
  · exact ⟨hsid.window, hsid.active.trans (by simp), hsid.awaiting.trans (by simp), hr⟩

end Operations

end Veysrs
