import Mathlib.Algebra.BigOperators.Group.List.Basic
import Veysrs.Http2.Simulation

/-!
# Outbound flow control

The log of a connection is a ledger: the credit the peer has given, on the connection and on each
stream, the settings it has announced, and the DATA that has been written.  The windows of the
abstract machine are the balance of that ledger after every run (`Ledger`), the balance of the
connection never goes below zero, and every DATA frame was covered by both balances when it was
written.
-/

namespace Veysrs

open Core List

/-! ## The entries of the ledger -/

/-- The values a list of settings gives to one of them, in order. -/
def valuesOf (id : SettingId) (settings : List (SettingId × ℕ)) : List ℕ :=
  (settings.filter fun setting => setting.1 = id).map Prod.snd

@[simp] lemma valuesOf_cons_same (id : SettingId) (val : ℕ) (rest : List (SettingId × ℕ)) :
    valuesOf id ((id, val) :: rest) = val :: valuesOf id rest := by
  simp [valuesOf]

@[simp] lemma valuesOf_cons_of_ne {id id' : SettingId} (h : id' ≠ id) (val : ℕ)
    (rest : List (SettingId × ℕ)) : valuesOf id ((id', val) :: rest) = valuesOf id rest := by
  simp [valuesOf, h]

namespace Event

/-- The credit a received WINDOW_UPDATE gives to stream `sid` (stream 0 is the connection). -/
def credit (sid : ℕ) : Event → ℕ
  | .received ⟨h, .windowUpdate n⟩ => if h.streamId = sid then n else 0
  | _ => 0

/-- The bytes of a written DATA frame. -/
def dataBytes : Event → ℕ
  | .wrote ⟨_, .data data _⟩ => data.length
  | _ => 0

/-- The bytes of a DATA frame written on stream `sid`. -/
def dataBytesOn (sid : ℕ) : Event → ℕ
  | .wrote ⟨h, .data data _⟩ => if h.streamId = sid then data.length else 0
  | _ => 0

/-- The values a received SETTINGS frame gives to one setting. -/
def settingValues (id : SettingId) : Event → List ℕ
  | .received ⟨_, .settings settings false⟩ => valuesOf id settings
  | _ => []

/-- The event is the receipt of HEADERS on stream `sid`. -/
def Opens (sid : ℕ) : Event → Prop
  | .received ⟨h, .headers _ _ _⟩ => h.streamId = sid
  | _ => False

end Event

/-! ## Balances -/

def credits (sid : ℕ) (log : List Event) : ℕ := (log.map (Event.credit sid)).sum

def dataBytes (log : List Event) : ℕ := (log.map Event.dataBytes).sum

def dataBytesOn (sid : ℕ) (log : List Event) : ℕ := (log.map (Event.dataBytesOn sid)).sum

/-- The values of SETTINGS_INITIAL_WINDOW_SIZE received, in order. -/
def initialWindows (log : List Event) : List ℕ :=
  log.flatMap (Event.settingValues .initialWindowSize)

/-- The values of SETTINGS_MAX_FRAME_SIZE received, in order. -/
def maxFrames (log : List Event) : List ℕ := log.flatMap (Event.settingValues .maxFrameSize)

/-- The initial window of the peer in force after the log. -/
def peerInitialAfter (log : List Event) : ℕ := (initialWindows log).getLastD 65535

/-- The frame size the peer accepts after the log. -/
def peerMaxFrameAfter (log : List Event) : ℕ := (maxFrames log).getLastD defaultMaxFrameSize

/-- The sum of the changes from `old` through the values. -/
def deltas : ℕ → List ℕ → ℤ
  | _, [] => 0
  | old, v :: rest => ((v : ℤ) - old) + deltas v rest

/-- The balance of the connection. -/
def connectionBalance (log : List Event) : ℤ := 65535 + credits 0 log - dataBytes log

/-- `w` is the balance of stream `sid`: the peer's initial window when the stream was opened, its
credit since, the later changes of the initial window, less the data written on it. -/
def StreamBalance (sid : ℕ) (log : List Event) (w : ℤ) : Prop :=
  ∃ before headers since, log = before ++ headers :: since ∧ headers.Opens sid ∧
    (∀ e ∈ since, ¬ e.Opens sid) ∧
    w = peerInitialAfter before + credits sid since +
      deltas (peerInitialAfter before) (initialWindows since) - dataBytesOn sid since

/-- A frame written after the log was covered by it. -/
def Covered (log : List Event) (f : Frame) : Prop :=
  ∀ data es, f.payload = .data data es →
    data.length ≤ peerMaxFrameAfter log ∧
      (data ≠ [] → (data.length : ℤ) ≤ connectionBalance log ∧
        ∃ w, StreamBalance f.header.streamId log w ∧ (data.length : ℤ) ≤ w)

/-! ## Appending to the log -/

section Append

variable (log ev : List Event) (sid : ℕ)

@[simp] lemma credits_append : credits sid (log ++ ev) = credits sid log + credits sid ev := by
  simp [credits]

@[simp] lemma dataBytes_append : dataBytes (log ++ ev) = dataBytes log + dataBytes ev := by
  simp [dataBytes]

@[simp] lemma dataBytesOn_append :
    dataBytesOn sid (log ++ ev) = dataBytesOn sid log + dataBytesOn sid ev := by
  simp [dataBytesOn]

@[simp] lemma initialWindows_append :
    initialWindows (log ++ ev) = initialWindows log ++ initialWindows ev := by
  simp [initialWindows]

@[simp] lemma maxFrames_append : maxFrames (log ++ ev) = maxFrames log ++ maxFrames ev := by
  simp [maxFrames]

lemma getLastD_append (xs ys : List ℕ) (d : ℕ) :
    (xs ++ ys).getLastD d = ys.getLastD (xs.getLastD d) := by
  rcases eq_nil_or_concat ys with rfl | ⟨ys, y, rfl⟩
  · simp
  · simp [← append_assoc]

lemma peerInitialAfter_append :
    peerInitialAfter (log ++ ev) = (initialWindows ev).getLastD (peerInitialAfter log) := by
  simp only [peerInitialAfter, initialWindows_append, getLastD_append]

lemma peerMaxFrameAfter_append :
    peerMaxFrameAfter (log ++ ev) = (maxFrames ev).getLastD (peerMaxFrameAfter log) := by
  simp only [peerMaxFrameAfter, maxFrames_append, getLastD_append]

lemma connectionBalance_append :
    connectionBalance (log ++ ev) = connectionBalance log + credits 0 ev - dataBytes ev := by
  simp only [connectionBalance, credits_append, dataBytes_append]
  omega

end Append

lemma deltas_append : ∀ (old : ℕ) (xs ys : List ℕ),
    deltas old (xs ++ ys) = deltas old xs + deltas (xs.getLastD old) ys
  | old, [], ys => by simp [deltas]
  | old, x :: xs, ys => by
      rw [cons_append, deltas, deltas, deltas_append x xs ys, getLastD_cons]
      omega

variable {sid : ℕ} {e : Event} {f : Frame}

lemma initialWindows_of_opens (h : e.Opens sid) : e.settingValues .initialWindowSize = [] := by
  unfold Event.Opens at h
  split at h
  · rfl
  · cases h

/-- The balance of an open stream after more events. -/
lemma StreamBalance.append {log ev : List Event} {w : ℤ} (h : StreamBalance sid log w)
    (ho : ∀ e ∈ ev, ¬ e.Opens sid) :
    StreamBalance sid (log ++ ev)
      (w + credits sid ev + deltas (peerInitialAfter log) (initialWindows ev) -
        dataBytesOn sid ev) := by
  obtain ⟨before, headers, since, rfl, hh, hs, rfl⟩ := h
  refine ⟨before, headers, since ++ ev, by simp, hh, ?_, ?_⟩
  · intro e he
    rcases mem_append.mp he with he | he
    · exact hs e he
    · exact ho e he
  · have hi : peerInitialAfter (before ++ headers :: since) =
        (initialWindows since).getLastD (peerInitialAfter before) := by
      rw [peerInitialAfter_append]
      simp [initialWindows, initialWindows_of_opens hh]
    rw [hi, credits_append, dataBytesOn_append, initialWindows_append, deltas_append]
    omega

/-- Events that enter nothing in the ledger. -/
def Event.Inert : Event → Prop
  | .wrote f => ∀ data es, f.payload = .data data es → data = []
  | .bodyRead _ _ => True
  | .received _ => False

section Inert

variable {ev : List Event}

lemma sum_eq_zero_of_inert {q : Event → ℕ} (hq : ∀ e : Event, e.Inert → q e = 0)
    (h : ∀ e ∈ ev, e.Inert) : (ev.map q).sum = 0 := by
  refine sum_eq_zero fun n hn => ?_
  obtain ⟨e, he, rfl⟩ := mem_map.mp hn
  exact hq e (h e he)

lemma Event.Inert.credit (h : e.Inert) (sid : ℕ) : e.credit sid = 0 := by
  cases e with
  | received f => exact h.elim
  | wrote f => rfl
  | bodyRead sid o => rfl

lemma Event.Inert.dataBytes (h : e.Inert) : e.dataBytes = 0 := by
  unfold Event.dataBytes
  split
  · rename_i header data es
    rw [h data es rfl]
    rfl
  · rfl

lemma Event.Inert.dataBytesOn (h : e.Inert) (sid : ℕ) : e.dataBytesOn sid = 0 := by
  unfold Event.dataBytesOn
  split
  · rename_i header data es
    rw [h data es rfl]
    simp
  · rfl

lemma Event.Inert.settingValues (h : e.Inert) (id : SettingId) : e.settingValues id = [] := by
  cases e with
  | received f => exact h.elim
  | wrote f => rfl
  | bodyRead sid o => rfl

lemma Event.Inert.not_opens (h : e.Inert) (sid : ℕ) : ¬ e.Opens sid := by
  cases e with
  | received f => exact h.elim
  | wrote f => exact id
  | bodyRead sid o => exact id

lemma credits_of_inert (h : ∀ e ∈ ev, e.Inert) (sid : ℕ) : credits sid ev = 0 :=
  sum_eq_zero_of_inert (fun _ he => he.credit sid) h

lemma dataBytes_of_inert (h : ∀ e ∈ ev, e.Inert) : dataBytes ev = 0 :=
  sum_eq_zero_of_inert (fun _ he => he.dataBytes) h

lemma dataBytesOn_of_inert (h : ∀ e ∈ ev, e.Inert) (sid : ℕ) : dataBytesOn sid ev = 0 :=
  sum_eq_zero_of_inert (fun _ he => he.dataBytesOn sid) h

lemma initialWindows_of_inert (h : ∀ e ∈ ev, e.Inert) : initialWindows ev = [] :=
  flatMap_eq_nil_iff.mpr fun e he => (h e he).settingValues _

lemma maxFrames_of_inert (h : ∀ e ∈ ev, e.Inert) : maxFrames ev = [] :=
  flatMap_eq_nil_iff.mpr fun e he => (h e he).settingValues _

lemma StreamBalance.append_inert {log : List Event} {w : ℤ} (hw : StreamBalance sid log w)
    (h : ∀ e ∈ ev, e.Inert) : StreamBalance sid (log ++ ev) w := by
  have ha := hw.append fun e he => (h e he).not_opens sid
  rwa [credits_of_inert h, dataBytesOn_of_inert h, initialWindows_of_inert h, deltas,
    Nat.cast_zero, add_zero, add_zero, sub_zero] at ha

lemma inert_readEvents (sid : ℕ) (chunk : PendingBody.Chunk) :
    ∀ e ∈ readEvents sid chunk, e.Inert := by
  intro e he
  obtain ⟨o, _, rfl⟩ := mem_map.mp he
  trivial

lemma inert_fragments {frames : List Frame} (h : ∀ f ∈ frames, f.IsFragment sid) :
    ∀ e ∈ frames.map Event.wrote, e.Inert := by
  intro e he
  obtain ⟨f, hf, rfl⟩ := mem_map.mp he
  intro data es hd
  rcases (h f hf).payload with ⟨_, _, _, hp⟩ | ⟨_, _, hp⟩
  · rw [hp] at hd
    cases hd
  · rw [hp] at hd
    cases hd

end Inert

/-! ## The machine keeps the books -/

/-- The windows of the machine are the balances of its log. -/
structure Ledger (log : List Event) (m : Mux) : Prop where
  connection : m.connWindow = connectionBalance log
  nonneg : 0 ≤ m.connWindow
  initial : m.peerInitial = peerInitialAfter log
  maxFrame : m.peerMaxFrame = peerMaxFrameAfter log
  streams : ∀ sid slot, m.slots sid = some slot → StreamBalance sid log slot.window
  below : ∀ sid slot, m.slots sid = some slot → 0 < sid ∧ sid ≤ m.lastStreamId
  covered : ∀ before f after, log = before ++ .wrote f :: after → Covered before f

/-- A DATA frame without bytes needs no cover. -/
lemma covered_of_inert (h : (Event.wrote f).Inert) (log : List Event) : Covered log f := by
  intro data es hd
  rw [h data es hd]
  exact ⟨Nat.zero_le _, fun hne => absurd rfl hne⟩

/-- Frames are covered when they are written: earlier ones stay so. -/
lemma covered_append {log ev : List Event}
    (hl : ∀ before f after, log = before ++ .wrote f :: after → Covered before f)
    (hev : ∀ before f after, ev = before ++ .wrote f :: after → Covered (log ++ before) f) :
    ∀ before f after, log ++ ev = before ++ .wrote f :: after → Covered before f := by
  intro before f after h
  rcases append_split h with ⟨mid, hl', _⟩ | ⟨mid, rfl, hev'⟩
  · exact hl before f mid hl'
  · exact hev mid f after hev'

section Steps

variable {log ev : List Event} {m m' : Mux}

/-- A step whose events are not in the ledger moves no window. -/
lemma Ledger.inert (h : Ledger log m) (hev : ∀ e ∈ ev, e.Inert)
    (hc : m'.connWindow = m.connWindow) (hi : m'.peerInitial = m.peerInitial)
    (hm : m'.peerMaxFrame = m.peerMaxFrame) (hl : m'.lastStreamId = m.lastStreamId)
    (hsl : ∀ sid slot', m'.slots sid = some slot' →
      ∃ slot, m.slots sid = some slot ∧ slot'.window = slot.window) :
    Ledger (log ++ ev) m' where
  connection := by
    rw [connectionBalance_append, credits_of_inert hev, dataBytes_of_inert hev, hc,
      h.connection]
    simp
  nonneg := hc ▸ h.nonneg
  initial := by
    rw [peerInitialAfter_append, initialWindows_of_inert hev, hi, h.initial]
    rfl
  maxFrame := by
    rw [peerMaxFrameAfter_append, maxFrames_of_inert hev, hm, h.maxFrame]
    rfl
  streams := by
    intro sid slot' hs'
    obtain ⟨slot, hs, hw⟩ := hsl sid slot' hs'
    rw [hw]
    exact (h.streams sid slot hs).append_inert hev
  below := by
    intro sid slot' hs'
    obtain ⟨slot, hs, _⟩ := hsl sid slot' hs'
    rw [hl]
    exact h.below sid slot hs
  covered := by
    refine covered_append h.covered fun before f after hsp => ?_
    exact covered_of_inert (hev _ (by rw [hsp]; simp)) _

/-- Replacing the slot of one stream keeps the windows of the others, and its own if the new slot
has the window of the old. -/
lemma slots_of_put {new : Option Slot}
    (hn : ∀ slot', new = some slot' → ∃ slot, m.slots sid = some slot ∧
      slot'.window = slot.window) :
    ∀ i slot', (m.put sid new).slots i = some slot' →
      ∃ slot, m.slots i = some slot ∧ slot'.window = slot.window := by
  intro i slot' h
  by_cases hi : i = sid
  · subst hi
    rw [Mux.put_slots_same] at h
    exact hn slot' h
  · rw [Mux.put_slots_of_ne _ hi] at h
    exact ⟨slot', h, rfl⟩

/-- The receipt of a frame: the books change by what the frame says. -/
lemma Ledger.received (h : Ledger log m)
    (hc : m'.connWindow = m.connWindow + (Event.received f).credit 0) (hi : m'.peerInitial =
      ((Event.received f).settingValues .initialWindowSize).getLastD m.peerInitial)
    (hm : m'.peerMaxFrame =
      ((Event.received f).settingValues .maxFrameSize).getLastD m.peerMaxFrame)
    (hl : m.lastStreamId ≤ m'.lastStreamId) (hsl : ∀ sid slot', m'.slots sid = some slot' →
      ((0 < sid ∧ sid ≤ m'.lastStreamId) ∧ (Event.received f).Opens sid ∧
        slot'.window = m.peerInitial) ∨
      ∃ slot, m.slots sid = some slot ∧ ¬ (Event.received f).Opens sid ∧
        slot'.window = slot.window + (Event.received f).credit sid +
          deltas m.peerInitial ((Event.received f).settingValues .initialWindowSize)) :
    Ledger (log ++ [.received f]) m' where
  connection := by
    rw [connectionBalance_append, hc, h.connection]
    simp [credits, dataBytes, Event.dataBytes]
  nonneg := by
    have := h.nonneg
    omega
  initial := by
    rw [peerInitialAfter_append, hi, h.initial]
    simp [initialWindows]
  maxFrame := by
    rw [peerMaxFrameAfter_append, hm, h.maxFrame]
    simp [maxFrames]
  streams := by
    intro sid slot' hs'
    rcases hsl sid slot' hs' with ⟨_, ho, hw⟩ | ⟨slot, hs, ho, hw⟩
    · refine ⟨log, .received f, [], rfl, ho, fun e he => (by cases he), ?_⟩
      rw [hw, h.initial]
      simp [credits, dataBytesOn, initialWindows, deltas]
    · have ho' : ∀ e ∈ [Event.received f], ¬ e.Opens sid := by
        intro e he
        rw [mem_singleton.mp he]
        exact ho
      have ha := (h.streams sid slot hs).append ho'
      rw [hw, h.initial]
      simpa [credits, dataBytesOn, initialWindows, Event.dataBytesOn] using ha
  below := by
    intro sid slot' hs'
    rcases hsl sid slot' hs' with ⟨hsid, _, _⟩ | ⟨slot, hs, _, _⟩
    · exact hsid
    · exact ⟨(h.below sid slot hs).1, (h.below sid slot hs).2.trans hl⟩
  covered := by
    refine covered_append h.covered fun before g after hsp => ?_
    cases before with
    | nil => simp at hsp
    | cons e before => simp at hsp

/-- Settings move the windows by the sum of their changes, and the last of each is in force. -/
lemma applySettings_spec : ∀ (settings : List (SettingId × ℕ)) (m : Mux),
    (m.applySettings settings).connWindow = m.connWindow ∧
    (m.applySettings settings).lastStreamId = m.lastStreamId ∧
    (m.applySettings settings).peerInitial =
      (valuesOf .initialWindowSize settings).getLastD m.peerInitial ∧
    (m.applySettings settings).peerMaxFrame =
      (valuesOf .maxFrameSize settings).getLastD m.peerMaxFrame ∧
    ∀ sid, (m.applySettings settings).slots sid = (m.slots sid).map fun slot =>
      ⟨slot.window + deltas m.peerInitial (valuesOf .initialWindowSize settings), slot.phase⟩
  | [], m => by simp [Mux.applySettings, deltas, valuesOf]
  | (id, val) :: rest, m => by
      obtain ⟨hc, hl, hi, hm, hs⟩ :=
        applySettings_spec rest (m.applySetting (id, val))
      have hst : m.applySettings ((id, val) :: rest) =
          (m.applySetting (id, val)).applySettings rest := rfl
      rw [hst, hc, hl, hi, hm]
      by_cases hw : id = .initialWindowSize
      · subst hw
        rw [valuesOf_cons_same, valuesOf_cons_of_ne (by decide), getLastD_cons]
        refine ⟨rfl, rfl, rfl, rfl, fun sid => ?_⟩
        rw [hs, Mux.applySetting, Option.map_map, deltas]
        refine congrArg (fun f => (m.slots sid).map f) (funext fun slot => ?_)
        simp only [Function.comp_apply, add_assoc]
      by_cases hf : id = .maxFrameSize
      · subst hf
        rw [valuesOf_cons_same, valuesOf_cons_of_ne (by decide), getLastD_cons]
        exact ⟨rfl, rfl, rfl, rfl, hs⟩
      · rw [Mux.applySetting_of_ne m hf hw] at hs ⊢
        rw [valuesOf_cons_of_ne hw, valuesOf_cons_of_ne hf]
        exact ⟨rfl, rfl, rfl, rfl, hs⟩

/-- Receipts that enter nothing in the ledger. -/
lemma Ledger.received_plain (h : Ledger log m) (hc : ∀ sid, (Event.received f).credit sid = 0)
    (hv : ∀ id, (Event.received f).settingValues id = [])
    (hco : m'.connWindow = m.connWindow) (hi : m'.peerInitial = m.peerInitial)
    (hm : m'.peerMaxFrame = m.peerMaxFrame) (hl : m.lastStreamId ≤ m'.lastStreamId)
    (hs : ∀ sid slot', m'.slots sid = some slot' →
      ((0 < sid ∧ sid ≤ m'.lastStreamId) ∧ (Event.received f).Opens sid ∧
        slot'.window = m.peerInitial) ∨
      ∃ slot, m.slots sid = some slot ∧ ¬ (Event.received f).Opens sid ∧
        slot'.window = slot.window) : Ledger (log ++ [.received f]) m' := by
  refine h.received ?_ ?_ ?_ hl fun sid slot' hs' => ?_
  · simp [hc, hco]
  · simp [hv, hi]
  · simp [hv, hm]
  · simpa [hc, hv, deltas] using hs sid slot' hs'

/-- HEADERS on a new stream opens no stream that has a slot. -/
lemma Ledger.not_opens (h : Ledger log m) {header : FrameHeader} {block : Bytes} {es eh : Bool}
    (hl : m.lastStreamId < header.streamId) {slot : Slot} (hs : m.slots sid = some slot) :
    ¬ (Event.received ⟨header, .headers block es eh⟩).Opens sid := by
  intro ho
  have hle := (h.below sid slot hs).2
  have heq : header.streamId = sid := ho
  omega

lemma inert_control (hf : f.IsControl) : (Event.wrote f).Inert := by
  intro data es hd
  exact absurd hd (hf.not_data data es)

lemma inert_reset (sid : ℕ) (e : Http2ErrorCode) : (Event.wrote (rstFrame sid e)).Inert := by
  intro data es hd
  cases hd

/-- A DATA frame both windows allow is charged to both. -/
lemma Ledger.data (h : Ledger log m) {slot : Slot} {data : Bytes} {new : Option Slot} (done : Bool)
    (hs : m.slots sid = some slot) (hf : data.length ≤ m.peerMaxFrame)
    (hc : (data.length : ℤ) ≤ m.connWindow) (hst : (data.length : ℤ) ≤ slot.window)
    (hn : ∀ slot', new = some slot' → slot'.window = slot.window - data.length) :
    Ledger (log ++ [.wrote (dataFrame sid data done)])
      (({ m with connWindow := m.connWindow - data.length } : Mux).put sid new) where
  connection := by
    rw [connectionBalance_append, h.connection]
    simp [credits, Event.credit, dataBytes, Event.dataBytes, dataFrame]
  nonneg := by
    rw [Mux.put_connWindow]
    simp only
    omega
  initial := by
    rw [peerInitialAfter_append]
    exact h.initial
  maxFrame := by
    rw [peerMaxFrameAfter_append]
    exact h.maxFrame
  streams := by
    intro i slot' hs'
    have ho : ∀ e ∈ [Event.wrote (dataFrame sid data done)], ¬ e.Opens i := by
      intro e he
      rw [mem_singleton.mp he]
      exact id
    by_cases hi : i = sid
    · subst hi
      rw [Mux.put_slots_same] at hs'
      have ha := (h.streams i slot hs).append ho
      rw [hn slot' hs']
      simpa [credits, Event.credit, dataBytesOn, Event.dataBytesOn, dataFrame, initialWindows,
        Event.settingValues, deltas] using ha
    · rw [Mux.put_slots_of_ne _ hi] at hs'
      have ha := (h.streams i slot' hs').append ho
      simpa [credits, Event.credit, dataBytesOn, Event.dataBytesOn, dataFrame, initialWindows,
        Event.settingValues, deltas, Ne.symm hi] using ha
  below := by
    intro i slot' hs'
    by_cases hi : i = sid
    · exact hi ▸ h.below sid slot hs
    · rw [Mux.put_slots_of_ne _ hi] at hs'
      exact h.below i slot' hs'
  covered := by
    refine covered_append h.covered fun before f after hsp => ?_
    cases before with
    | cons e before => simp at hsp
    | nil =>
      simp only [nil_append, List.cons.injEq, Event.wrote.injEq] at hsp
      rw [append_nil, ← hsp.1]
      rintro data' es ⟨⟩
      exact ⟨hf.trans_eq h.maxFrame, fun _ =>
        ⟨hc.trans_eq h.connection, slot.window, h.streams sid slot hs, hst⟩⟩

/-- **Every step keeps the books.** -/
lemma Ledger.step (h : Ledger log m) (hst : m.Step ev m') : Ledger (log ++ ev) m' := by
  cases hst with
  | control hf =>
    refine h.inert ?_ rfl rfl rfl rfl fun sid slot hs => ⟨slot, hs, rfl⟩
    intro e he
    rw [mem_singleton.mp he]
    exact inert_control hf
  | @quiet f hf =>
    obtain ⟨header, payload⟩ := f
    refine h.received_plain (fun sid => ?_) (fun id => ?_) rfl rfl rfl le_rfl
      fun sid slot hs => .inr ⟨slot, hs, ?_, rfl⟩
    · cases payload <;> first | rfl | exact hf.elim
    · cases payload with
      | settings settings ack =>
        cases hf
        rfl
      | _ => rfl
    · cases payload <;> first | exact id | exact hf.elim
  | @settings f settings hf =>
    obtain ⟨header, payload⟩ := f
    cases hf
    obtain ⟨hc, hl, hin, hm, hsl⟩ := applySettings_spec settings m
    refine h.received ?_ hin hm hl.ge fun sid slot' hs' => .inr ?_
    · simp [hc, Event.credit]
    · rw [hsl] at hs'
      obtain ⟨slot, hs, rfl⟩ := Option.map_eq_some_iff.mp hs'
      exact ⟨slot, hs, id, by simp [Event.credit, Event.settingValues]⟩
  | @connCredit f n hf hsid =>
    obtain ⟨header, payload⟩ := f
    cases hf
    refine h.received ?_ rfl rfl le_rfl fun sid slot hs => .inr ⟨slot, hs, id, ?_⟩
    · simp only [Event.credit, if_pos hsid]
    · have hne : header.streamId ≠ sid := by
        have := (h.below sid slot hs).1
        simp only at hsid
        omega
      simp [Event.credit, hne, Event.settingValues, deltas]
  | @streamCredit f n slot hf hsid hs =>
    obtain ⟨header, payload⟩ := f
    cases hf
    refine h.received ?_ rfl rfl le_rfl fun i slot' hs' => .inr ?_
    · simp only [Event.credit, if_neg hsid]
      simp
    · by_cases hi : i = header.streamId
      · subst hi
        rw [Mux.put_slots_same, Option.some.injEq] at hs'
        exact ⟨slot, hs, id, by simp [← hs', Event.credit, Event.settingValues, deltas]⟩
      · rw [Mux.put_slots_of_ne _ hi] at hs'
        exact ⟨slot', hs', id,
          by simp [Event.credit, Ne.symm hi, Event.settingValues, deltas]⟩
  | @staleCredit f n hf hsid hs =>
    obtain ⟨header, payload⟩ := f
    cases hf
    refine h.received ?_ rfl rfl le_rfl fun i slot hs' => .inr ⟨slot, hs', id, ?_⟩
    · simp only [Event.credit, if_neg hsid]
      simp
    · have hi : header.streamId ≠ i := by
        rintro rfl
        rw [hs] at hs'
        cases hs'
      simp [Event.credit, hi, Event.settingValues, deltas]
  | @clientReset f e hf =>
    obtain ⟨header, payload⟩ := f
    cases hf
    refine h.received_plain (fun _ => rfl) (fun _ => rfl) rfl rfl rfl le_rfl
      fun i slot' hs' => .inr ?_
    obtain ⟨slot, hs, hw⟩ := slots_of_put (by simp) i slot' hs'
    exact ⟨slot, hs, id, hw⟩
  | @refuse f block es eh hf hl =>
    obtain ⟨header, payload⟩ := f
    cases hf
    have hre : Ledger (log ++ [.received ⟨header, .headers block es eh⟩])
        { m with lastStreamId := header.streamId } :=
      h.received_plain (fun _ => rfl) (fun _ => rfl) rfl rfl rfl hl.le
        fun i slot hs => .inr ⟨slot, hs, h.not_opens hl hs, rfl⟩
    rw [append_cons]
    refine hre.inert ?_ rfl rfl rfl rfl fun sid slot hs => ⟨slot, hs, rfl⟩
    intro e he
    rw [mem_singleton.mp he]
    exact inert_reset _ _
  | @accept f block es eh hf hl =>
    obtain ⟨header, payload⟩ := f
    cases hf
    refine h.received_plain (fun _ => rfl) (fun _ => rfl) rfl rfl rfl hl.le
      fun i slot' hs' => ?_
    by_cases hi : i = header.streamId
    · subst hi
      rw [Mux.put_slots_same, Option.some.injEq] at hs'
      exact .inl ⟨⟨by simp only at hl; omega, le_rfl⟩, rfl, by rw [← hs']⟩
    · rw [Mux.put_slots_of_ne _ hi] at hs'
      exact .inr ⟨slot', hs', h.not_opens hl hs', rfl⟩
  | @park sid slot hs hp =>
    refine h.inert (by simp) rfl rfl rfl rfl (slots_of_put ?_)
    rintro slot' ⟨⟩
    exact ⟨slot, hs, rfl⟩
  | @finish sid slot block hs hp hm =>
    refine h.inert (inert_fragments fun f hf => mem_headerFrames hf) rfl rfl rfl rfl
      (slots_of_put (by simp))
  | @respond sid slot block body hs hp hm =>
    refine h.inert (inert_fragments fun f hf => mem_headerFrames hf) rfl rfl rfl rfl
      (slots_of_put ?_)
    rintro slot' ⟨⟩
    exact ⟨slot, hs, rfl⟩
  | upstreamFailed hs =>
    refine h.inert ?_ rfl rfl rfl rfl (slots_of_put (by simp))
    intro e he
    rw [mem_singleton.mp he]
    exact inert_reset _ _
  | stalled hs ha hr =>
    refine h.inert (inert_readEvents _ _) rfl rfl rfl rfl (slots_of_put ?_)
    rintro slot' ⟨⟩
    exact ⟨_, hs, rfl⟩
  | @send sid w body choice amount data done hs ha hr hd =>
    have hlen := (PendingBody.readChunk_delivers hr).bounded
    obtain ⟨hpos, hfr, hc, hstr⟩ := ha
    have hr : Ledger (log ++ readEvents sid (body.readChunk choice amount)) m :=
      h.inert (inert_readEvents _ _) rfl rfl rfl rfl fun i slot hs => ⟨slot, hs, rfl⟩
    rw [← append_assoc]
    refine hr.data done hs (by omega) (by omega) (by simp only; omega) ?_
    intro slot' hs'
    split_ifs at hs'
    cases hs'
    rfl
  | finishBody hs ha hr =>
    refine h.inert ?_ rfl rfl rfl rfl (slots_of_put (by simp))
    intro e he
    rcases mem_append.mp he with he | he
    · exact inert_readEvents _ _ e he
    · rw [mem_singleton.mp he]
      rintro data es ⟨⟩
      rfl
  | failBody hs ha hr =>
    refine h.inert ?_ rfl rfl rfl rfl (slots_of_put (by simp))
    intro e he
    rcases mem_append.mp he with he | he
    · exact inert_readEvents _ _ e he
    · rw [mem_singleton.mp he]
      exact inert_reset _ _

end Steps

/-- **Every run of the machine from its start keeps the books.** -/
lemma ledger_of_runs {log : List Event} {m : Mux} (h : Runs Mux.Step Mux.init log m) :
    Ledger log m := by
  refine Runs.invariant ?_ (fun _ _ _ _ hl hst => hl.step hst) h
  refine ⟨rfl, by decide, rfl, rfl, fun sid slot hs => ?_, fun sid slot hs => ?_,
    fun before f after hsp => ?_⟩
  · cases hs
  · cases hs
  · simp at hsp

/-! ## The connection's windows -/

/-- **Outbound flow control is never exceeded.**  After any calls that returned, the connection
window is 65535 plus the credit received for the connection less the DATA written, and not below
zero; every stream's window is its balance; and every DATA frame was, when it was written, no
longer than the peer's frame size and, unless empty, covered by both windows. -/
theorem flow_control_respected {config : ServerConfig} {secure : Bool}
    {calls : List (Env × Call)} {s : ConnState}
    (hrun : (runCalls calls).run (ConnState.start config secure) = .ok () s) :
    s.conn.peerConnectionWindow.toInt = 65535 + credits 0 s.trace - dataBytes s.trace ∧
      0 ≤ s.conn.peerConnectionWindow.toInt ∧
      s.conn.peerMaxFrameSize = peerMaxFrameAfter s.trace ∧
      (∀ sid window, s.conn.sendStreamWindows.lookup sid = some window →
        StreamBalance sid s.trace window.toInt) ∧
      ∀ before f after data es, s.trace = before ++ .wrote f :: after →
        f.payload = .data data es →
        data.length ≤ peerMaxFrameAfter before ∧
          (data ≠ [] → (data.length : ℤ) ≤ 65535 + credits 0 before - dataBytes before ∧
            ∃ w, StreamBalance f.header.streamId before w ∧ (data.length : ℤ) ≤ w) := by
  obtain ⟨m, ⟨log, htrace, hruns⟩, href⟩ :=
    wp_ok (runCalls_tracks calls (start_tracks config secure)) hrun
  rw [Base.new, nil_append] at htrace
  subst htrace
  have hledger := ledger_of_runs hruns
  refine ⟨?_, ?_, ?_, fun sid window hlookup => ?_, fun before f after data es hsplit hdata => ?_⟩
  · exact href.scalars.connWindow.trans hledger.connection
  · exact href.scalars.connWindow ▸ hledger.nonneg
  · exact href.scalars.peerMaxFrame.trans hledger.maxFrame
  · obtain ⟨slot, hslot, hw⟩ := href.slot_of_window hlookup
    exact hw ▸ hledger.streams sid slot hslot
  · exact hledger.covered before f after hsplit data es hdata

/-- Three bytes are sent and charged. -/
theorem flow_control_respected_sample :
    ∃ s, (runCalls sampleCalls).run (ConnState.start {} false) = .ok () s ∧
      s.conn.peerConnectionWindow.toInt = 65535 + credits 0 s.trace - dataBytes s.trace ∧
      0 ≤ s.conn.peerConnectionWindow.toInt := by
  have hrun := eq_ok_of_isOk
    (r := (runCalls sampleCalls).run (ConnState.start {} false)) (by decide +kernel)
  have h := flow_control_respected hrun
  exact ⟨_, hrun, h.1, h.2.1⟩

end Veysrs
