import Veysrs.Core.Runs
import Veysrs.Http2.Connection

/-!
# What the connection is for

The abstract machine behind `Http2Connection`: a set of stream slots, each with its send window
and the phase its exchange is in, one window for the whole connection, and the steps by which
slots are taken, moved along and given back.  Every step carries the events it leaves in the log.

The queues, the maps and the order in which they are served are gone; what a stream may write and
when is all that is left.  `Refinement` shows that every call of the connection is a run of this
machine, and the modules after it prove the properties of its runs.
-/

namespace Veysrs

open Core

/-- What a stream that holds a slot is doing: its request is still coming in, an upstream has
been asked, or its body is on the way out. -/
inductive Phase where
  | receiving
  | awaiting
  | sending (body : PendingBody)
  deriving DecidableEq, Repr

/-- No response has begun. -/
def Phase.Waiting : Phase → Prop
  | receiving | awaiting => True
  | sending _ => False

structure Slot where
  window : ℤ
  phase : Phase
  deriving DecidableEq, Repr

structure Mux where
  lastStreamId : ℕ
  connWindow : ℤ
  peerInitial : ℕ
  peerMaxFrame : ℕ
  slots : ℕ → Option Slot

namespace Mux

def init : Mux :=
  { lastStreamId := 0
    connWindow := 65535
    peerInitial := 65535
    peerMaxFrame := defaultMaxFrameSize
    slots := fun _ => none }

/-- Give stream `sid` the slot, or take it away. -/
def put (m : Mux) (sid : ℕ) (slot : Option Slot) : Mux :=
  { m with slots := Function.update m.slots sid slot }

@[simp] lemma put_slots_same (m : Mux) (sid : ℕ) (slot : Option Slot) :
    (m.put sid slot).slots sid = slot := by
  simp [put]

@[simp] lemma put_slots_of_ne (m : Mux) {i sid : ℕ} (h : i ≠ sid) (slot : Option Slot) :
    (m.put sid slot).slots i = m.slots i := by
  simp [put, h]

@[simp] lemma put_lastStreamId (m : Mux) (sid : ℕ) (slot : Option Slot) :
    (m.put sid slot).lastStreamId = m.lastStreamId := rfl

@[simp] lemma put_connWindow (m : Mux) (sid : ℕ) (slot : Option Slot) :
    (m.put sid slot).connWindow = m.connWindow := rfl

@[simp] lemma put_peerInitial (m : Mux) (sid : ℕ) (slot : Option Slot) :
    (m.put sid slot).peerInitial = m.peerInitial := rfl

@[simp] lemma put_peerMaxFrame (m : Mux) (sid : ℕ) (slot : Option Slot) :
    (m.put sid slot).peerMaxFrame = m.peerMaxFrame := rfl

/-- A setting of the peer; a new initial window moves every open window by the difference. -/
def applySetting (m : Mux) (setting : SettingId × ℕ) : Mux :=
  match setting.1 with
  | .maxFrameSize => { m with peerMaxFrame := setting.2 }
  | .initialWindowSize =>
    { m with
      peerInitial := setting.2
      slots := fun i => (m.slots i).map fun slot =>
        { slot with window := slot.window + (setting.2 - m.peerInitial) } }
  | _ => m

lemma applySetting_of_ne (m : Mux) {id : SettingId} (hf : id ≠ .maxFrameSize)
    (hi : id ≠ .initialWindowSize) (val : ℕ) : m.applySetting (id, val) = m := by
  unfold applySetting
  split
  · exact absurd ‹_› hf
  · exact absurd ‹_› hi
  · rfl

/-- A new initial window leaves every stream in its phase. -/
lemma applySetting_initial_phase (m : Mux) (val i : ℕ) :
    ((m.applySetting (.initialWindowSize, val)).slots i).map Slot.phase =
      (m.slots i).map Slot.phase := by
  simp [applySetting, Function.comp_def]

lemma applySetting_initial_window (m : Mux) (val i : ℕ) :
    ((m.applySetting (.initialWindowSize, val)).slots i).map Slot.window =
      ((m.slots i).map Slot.window).map (· + ((val : ℤ) - m.peerInitial)) := by
  simp [applySetting, Function.comp_def]

def applySettings (m : Mux) (settings : List (SettingId × ℕ)) : Mux :=
  settings.foldl applySetting m

lemma applySetting_phase (m : Mux) (setting : SettingId × ℕ) (i : ℕ) :
    ((m.applySetting setting).slots i).map Slot.phase = (m.slots i).map Slot.phase := by
  obtain ⟨id, val⟩ := setting
  by_cases hi : id = .initialWindowSize
  · subst hi
    exact applySetting_initial_phase m val i
  · by_cases hf : id = .maxFrameSize
    · subst hf
      rfl
    · rw [applySetting_of_ne m hf hi]

lemma applySetting_lastStreamId (m : Mux) (setting : SettingId × ℕ) :
    (m.applySetting setting).lastStreamId = m.lastStreamId := by
  unfold applySetting
  split <;> rfl

/-- Settings leave every stream in its phase and open none. -/
lemma applySettings_phase (settings : List (SettingId × ℕ)) (m : Mux) :
    (∀ i, ((m.applySettings settings).slots i).map Slot.phase = (m.slots i).map Slot.phase) ∧
      (m.applySettings settings).lastStreamId = m.lastStreamId := by
  induction settings generalizing m with
  | nil => exact ⟨fun i => rfl, rfl⟩
  | cons setting rest ih =>
    obtain ⟨hp, hl⟩ := ih (m.applySetting setting)
    refine ⟨fun i => ?_, hl.trans (applySetting_lastStreamId m setting)⟩
    exact (hp i).trans (applySetting_phase m setting i)

/-- As much may be sent at once as one frame and both windows allow. -/
structure Allows (m : Mux) (window : ℤ) (amount : ℕ) : Prop where
  pos : 0 < amount
  frame : amount ≤ m.peerMaxFrame
  conn : (amount : ℤ) ≤ m.connWindow
  stream : (amount : ℤ) ≤ window

end Mux

/-! ## The frames of a response head -/

/-- A fragment of a response head of stream `sid`. -/
structure Frame.IsFragment (f : Frame) (sid : ℕ) : Prop where
  streamId : f.header.streamId = sid
  payload : (∃ block es eh, f.payload = .headers block es eh) ∨
    ∃ block eh, f.payload = .continuation block eh

lemma mem_continuationFrames {sid max : ℕ} : ∀ {fuel : ℕ} {rest : Bytes} {f : Frame},
    f ∈ continuationFrames sid max fuel rest → f.IsFragment sid
  | 0, _, _, h => by cases h
  | _ + 1, [], _, h => by cases h
  | fuel + 1, b :: rest, f, h => by
      rw [continuationFrames, List.mem_cons] at h
      rcases h with rfl | h
      · exact ⟨rfl, .inr ⟨_, _, rfl⟩⟩
      · exact mem_continuationFrames h

lemma mem_headerFrames {sid max : ℕ} {block : Bytes} {es : Bool} {f : Frame}
    (h : f ∈ headerFrames sid max block es) : f.IsFragment sid := by
  rcases List.mem_cons.mp h with rfl | h
  · exact ⟨rfl, .inl ⟨_, _, _, rfl⟩⟩
  · exact mem_continuationFrames h

/-- Frames the server writes that belong to no response. -/
def Frame.IsControl (f : Frame) : Prop :=
  match f.payload with
  | .settings _ _ => f.header.frameType = .settings ∧ f.header.streamId = 0
  | .ping _ _ => f.header.frameType = .ping ∧ f.header.streamId = 0
  | .windowUpdate _ => f.header.frameType = .windowUpdate
  | _ => False

lemma Frame.IsControl.type {f : Frame} (h : f.IsControl) :
    ((f.header.frameType = .settings ∨ f.header.frameType = .ping) ∧ f.header.streamId = 0) ∨
      f.header.frameType = .windowUpdate := by
  obtain ⟨header, payload⟩ := f
  cases payload with
  | settings settings ack => exact .inl ⟨.inl h.1, h.2⟩
  | ping opaqueData ack => exact .inl ⟨.inr h.1, h.2⟩
  | windowUpdate n => exact .inr h
  | _ => exact h.elim

lemma Frame.IsControl.not_data {f : Frame} (h : f.IsControl) (data : Bytes) (es : Bool) :
    f.payload ≠ .data data es := by
  intro hd
  simp [Frame.IsControl, hd] at h

/-- Payloads whose receipt moves no slot and no window by itself. -/
def FramePayload.Quiet : FramePayload → Prop
  | .settings _ ack => ack = true
  | .headers _ _ _ | .rstStream _ | .windowUpdate _ | .goAway _ _ _ => False
  | _ => True

/-- The steps of the machine, each with its events. -/
inductive Mux.Step : Mux → List Event → Mux → Prop
  | control {m : Mux} {f : Frame} (hf : f.IsControl) : Step m [.wrote f] m
  | quiet {m : Mux} {f : Frame} (hf : f.payload.Quiet) : Step m [.received f] m
  | settings {m : Mux} {f : Frame} {settings : List (SettingId × ℕ)}
      (hf : f.payload = .settings settings false) :
      Step m [.received f] (m.applySettings settings)
  | connCredit {m : Mux} {f : Frame} {n : ℕ} (hf : f.payload = .windowUpdate n)
      (hsid : f.header.streamId = 0) :
      Step m [.received f] { m with connWindow := m.connWindow + n }
  | streamCredit {m : Mux} {f : Frame} {n : ℕ} {slot : Slot} (hf : f.payload = .windowUpdate n)
      (hsid : f.header.streamId ≠ 0) (hslot : m.slots f.header.streamId = some slot) :
      Step m [.received f]
        (m.put f.header.streamId (some { slot with window := slot.window + n }))
  | staleCredit {m : Mux} {f : Frame} {n : ℕ} (hf : f.payload = .windowUpdate n)
      (hsid : f.header.streamId ≠ 0) (hslot : m.slots f.header.streamId = none) :
      Step m [.received f] m
  | clientReset {m : Mux} {f : Frame} {e : Http2ErrorCode} (hf : f.payload = .rstStream e) :
      Step m [.received f] (m.put f.header.streamId none)
  | refuse {m : Mux} {f : Frame} {block : Bytes} {es eh : Bool}
      (hf : f.payload = .headers block es eh) (hlast : m.lastStreamId < f.header.streamId) :
      Step m [.received f, .wrote (rstFrame f.header.streamId .refusedStream)]
        { m with lastStreamId := f.header.streamId }
  | accept {m : Mux} {f : Frame} {block : Bytes} {es eh : Bool}
      (hf : f.payload = .headers block es eh) (hlast : m.lastStreamId < f.header.streamId) :
      Step m [.received f]
        (({ m with lastStreamId := f.header.streamId } : Mux).put f.header.streamId
          (some { window := m.peerInitial, phase := .receiving }))
  | park {m : Mux} {sid : ℕ} {slot : Slot} (hslot : m.slots sid = some slot)
      (hphase : slot.phase.Waiting) :
      Step m [] (m.put sid (some ⟨slot.window, .awaiting⟩))
  | finish {m : Mux} {sid : ℕ} {slot : Slot} {block : Bytes} (hslot : m.slots sid = some slot)
      (hphase : slot.phase.Waiting) (hmax : 0 < m.peerMaxFrame) :
      Step m ((headerFrames sid m.peerMaxFrame block true).map .wrote) (m.put sid none)
  | respond {m : Mux} {sid : ℕ} {slot : Slot} {block : Bytes} {body : PendingBody}
      (hslot : m.slots sid = some slot) (hphase : slot.phase.Waiting)
      (hmax : 0 < m.peerMaxFrame) :
      Step m ((headerFrames sid m.peerMaxFrame block false).map .wrote)
        (m.put sid (some ⟨slot.window, .sending body⟩))
  | upstreamFailed {m : Mux} {sid : ℕ} {w : ℤ} (hslot : m.slots sid = some ⟨w, .awaiting⟩) :
      Step m [.wrote (rstFrame sid .internalError)] (m.put sid none)
  | stalled {m : Mux} {sid : ℕ} {w : ℤ} {body : PendingBody} {choice : ReadChoice} {amount : ℕ}
      (hslot : m.slots sid = some ⟨w, .sending body⟩) (hamount : m.Allows w amount)
      (hread : (body.readChunk choice amount).result = .ok .pending ∨
        (body.readChunk choice amount).result = .ok (.data [] false)) :
      Step m (readEvents sid (body.readChunk choice amount))
        (m.put sid (some ⟨w, .sending (body.readChunk choice amount).body⟩))
  | send {m : Mux} {sid : ℕ} {w : ℤ} {body : PendingBody} {choice : ReadChoice} {amount : ℕ}
      {data : Bytes} {done : Bool} (hslot : m.slots sid = some ⟨w, .sending body⟩)
      (hamount : m.Allows w amount)
      (hread : (body.readChunk choice amount).result = .ok (.data data done))
      (hdata : data ≠ []) :
      Step m (readEvents sid (body.readChunk choice amount) ++ [.wrote (dataFrame sid data done)])
        (({ m with connWindow := m.connWindow - data.length } : Mux).put sid
          (if done then none
            else some ⟨w - data.length, .sending (body.readChunk choice amount).body⟩))
  | finishBody {m : Mux} {sid : ℕ} {w : ℤ} {body : PendingBody} {choice : ReadChoice}
      {amount : ℕ} (hslot : m.slots sid = some ⟨w, .sending body⟩) (hamount : m.Allows w amount)
      (hread : (body.readChunk choice amount).result = .ok .done ∨
        (body.readChunk choice amount).result = .ok (.data [] true)) :
      Step m (readEvents sid (body.readChunk choice amount) ++ [.wrote (dataFrame sid [] true)])
        (m.put sid none)
  | failBody {m : Mux} {sid : ℕ} {w : ℤ} {body : PendingBody} {choice : ReadChoice}
      {amount : ℕ} {e : Http2ErrorCode} (hslot : m.slots sid = some ⟨w, .sending body⟩)
      (hamount : m.Allows w amount) (hread : (body.readChunk choice amount).result = .error e) :
      Step m (readEvents sid (body.readChunk choice amount) ++ [.wrote (rstFrame sid e)])
        (m.put sid none)

/-- What a call that fails may leave in the log after its last complete step. -/
inductive Mux.Abandoned (m : Mux) : List Event → Prop
  | nothing : Abandoned m []
  | rejected (f : Frame) : Abandoned m [.received f]
  | response {sid : ℕ} {slot : Slot} {block : Bytes} {es : Bool} {frames : List Frame}
      (hslot : m.slots sid = some slot) (hphase : slot.phase.Waiting)
      (hmax : 0 < m.peerMaxFrame)
      (hframes : frames <+: headerFrames sid m.peerMaxFrame block es) :
      Abandoned m (frames.map .wrote)
  | read {sid : ℕ} {w : ℤ} {body : PendingBody} {choice : ReadChoice} {amount : ℕ}
      (hslot : m.slots sid = some ⟨w, .sending body⟩) (hamount : m.Allows w amount) :
      Abandoned m (readEvents sid (body.readChunk choice amount))

end Veysrs
