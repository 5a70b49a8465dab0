import Veysrs.Http2.Frame

/-!
# Flow-control windows and streams

`server/http2/flow.rs` and `server/http2/stream.rs`.  A window is an `i32`; the operations widen
to `i64`, test, and narrow again, and the lemmas here say that no narrowing ever wraps: on the
integers a window holds, `update`, `consume` and `adjust` are exact.
-/

namespace Veysrs

open Core

def maxWindowSize : ℕ := 2147483647

structure Window where
  available : Int32
  deriving DecidableEq, Repr

namespace Window

def new (initialSize : ℕ) : Window := ⟨Int32.ofInt initialSize⟩

/-- The window as the integer it stands for. -/
def toInt (w : Window) : ℤ := w.available.toInt

/-- A WINDOW_UPDATE raises the window. -/
def update (w : Window) (increment : ℕ) : Except Http2ErrorCode Window :=
  if increment = 0 then .error .protocolError
  else
    let newAvailable := w.toInt + increment
    if newAvailable > maxWindowSize then .error .flowControlError
    else .ok ⟨Int32.ofInt newAvailable⟩

/-- A DATA frame uses the window up. -/
def consume (w : Window) (bytes : ℕ) : Except Http2ErrorCode Window :=
  if (bytes : ℤ) > w.toInt then .error .flowControlError
  else .ok ⟨w.available - Int32.ofInt bytes⟩

/-- A change of SETTINGS_INITIAL_WINDOW_SIZE moves the window, below zero if need be. -/
def adjust (w : Window) (delta : ℤ) : Except Http2ErrorCode Window :=
  let updated := w.toInt + delta
  if updated > maxWindowSize ∨ updated < -2147483648 then .error .flowControlError
  else .ok ⟨Int32.ofInt updated⟩

/-! ## The windows as integers -/

lemma bmod32_of_fits {z : ℤ} (hlo : -2147483648 ≤ z) (hhi : z ≤ 2147483647) :
    z.bmod 4294967296 = z :=
  Int.bmod_eq_of_le (by omega) (by omega)

lemma toInt_ofInt {z : ℤ} (hlo : -2147483648 ≤ z) (hhi : z ≤ 2147483647) :
    (⟨Int32.ofInt z⟩ : Window).toInt = z := by
  simp only [toInt, Int32.toInt_ofInt]
  exact bmod32_of_fits hlo hhi

lemma toInt_lower (w : Window) : -2147483648 ≤ w.toInt := Int32.le_toInt w.available

lemma toInt_upper (w : Window) : w.toInt ≤ 2147483647 := by
  have := Int32.toInt_lt w.available
  simp only [toInt]
  omega

lemma toInt_new {n : ℕ} (hn : n ≤ maxWindowSize) : (new n).toInt = n := by
  simp only [maxWindowSize] at hn
  exact toInt_ofInt (by omega) (by omega)

lemma update_eq_ok {w w' : Window} {n : ℕ} (h : w.update n = .ok w') :
    w'.toInt = w.toInt + n := by
  have hlo := w.toInt_lower
  have hm : (maxWindowSize : ℤ) = 2147483647 := rfl
  simp only [update] at h
  split at h
  · cases h
  · split at h
    · cases h
    · cases h
      exact toInt_ofInt (by omega) (by omega)

lemma consume_eq_ok {w w' : Window} {n : ℕ} (h : w.consume n = .ok w') :
    (n : ℤ) ≤ w.toInt ∧ w'.toInt = w.toInt - n := by
  have hhi := w.toInt_upper
  simp only [consume] at h
  split at h
  · cases h
  · rename_i hle
    cases h
    refine ⟨by omega, ?_⟩
    have hn : (Int32.ofInt n).toInt = n := toInt_ofInt (by omega) (by omega)
    simp only [toInt, Int32.toInt_sub, hn]
    exact bmod32_of_fits (by simp only [toInt] at *; omega) (by simp only [toInt] at *; omega)

lemma adjust_eq_ok {w w' : Window} {d : ℤ} (h : w.adjust d = .ok w') :
    w'.toInt = w.toInt + d := by
  have hm : (maxWindowSize : ℤ) = 2147483647 := rfl
  simp only [adjust] at h
  split at h
  · cases h
  · cases h
    exact toInt_ofInt (by omega) (by omega)

end Window

/-- The receive side of the connection. -/
structure FlowControl where
  connectionWindow : Window
  initialStreamWindowSize : ℕ
  deriving DecidableEq, Repr

def FlowControl.new (initialWindowSize : ℕ) : FlowControl :=
  { connectionWindow := Window.new initialWindowSize
    initialStreamWindowSize := initialWindowSize }

/-! ## Streams -/

inductive StreamState where
  | idle | reservedLocal | reservedRemote | opened | halfClosedLocal | halfClosedRemote | closed
  deriving DecidableEq, Repr

structure Stream where
  id : ℕ
  state : StreamState
  window : Window
  sendWindow : Window
  requestHeaders : List (Str × Str)
  requestBody : Bytes
  receivedEndStream : Bool
  receivedEndHeaders : Bool
  deriving DecidableEq, Repr

namespace Stream

/-- A client's streams are odd. -/
def new (id initialWindowSize : ℕ) : Except Http2ErrorCode Stream :=
  if id = 0 ∨ id % 2 = 0 then .error .protocolError
  else .ok {
    id
    state := .idle
    window := Window.new initialWindowSize
    sendWindow := Window.new 65535
    requestHeaders := []
    requestBody := []
    receivedEndStream := false
    receivedEndHeaders := false }

def isClientInitiated (id : ℕ) : Bool := 0 < id && id % 2 ≠ 0

def transitionTo (st : Stream) (target : StreamState) : Except Http2ErrorCode Stream :=
  match st.state, target with
  | .idle, .opened
  | .idle, .halfClosedRemote
  | .opened, .halfClosedRemote
  | .opened, .halfClosedLocal
  | .opened, .closed
  | .halfClosedRemote, .closed
  | .halfClosedLocal, .closed => .ok { st with state := target }
  | .closed, .closed => .ok st
  | _, _ => .error .streamClosed

/-- `let _ = st.transition_to(target)`: a refused transition leaves the stream as it is. -/
def tryTransitionTo (st : Stream) (target : StreamState) : Stream :=
  match st.transitionTo target with
  | .ok st' => st'
  | .error _ => st

@[simp] lemma tryTransitionTo_id (st : Stream) (target : StreamState) :
    (st.tryTransitionTo target).id = st.id := by
  unfold tryTransitionTo transitionTo
  split <;> rename_i h <;> split at h <;> cases h <;> rfl

def appendRequestHeaders (st : Stream) (headers : List (Str × Str)) (endHeaders : Bool) : Stream :=
  { st with
    requestHeaders := st.requestHeaders ++ headers
    receivedEndHeaders := st.receivedEndHeaders || endHeaders }

def appendRequestData (st : Stream) (data : Bytes) (endStream : Bool) : Stream :=
  let st := { st with requestBody := st.requestBody ++ data }
  if endStream then
    ({ st with receivedEndStream := true } : Stream).tryTransitionTo .halfClosedRemote
  else st

@[simp] lemma appendRequestHeaders_id (st : Stream) (headers : List (Str × Str)) (eh : Bool) :
    (st.appendRequestHeaders headers eh).id = st.id := rfl

@[simp] lemma appendRequestData_id (st : Stream) (data : Bytes) (es : Bool) :
    (st.appendRequestData data es).id = st.id := by
  simp only [appendRequestData]
  split_ifs <;> simp

lemma new_eq_ok {id initial : ℕ} {st : Stream} (h : new id initial = .ok st) : st.id = id := by
  unfold new at h
  split_ifs at h
  cases h
  rfl

lemma transitionTo_id {st st' : Stream} {target : StreamState}
    (h : st.transitionTo target = .ok st') : st'.id = st.id := by
  unfold transitionTo at h
  split at h <;> cases h <;> rfl

end Stream

end Veysrs
