import Mathlib.Algebra.Ring.Int.Defs
import Mathlib.Algebra.Ring.Nat
import Mathlib.Data.List.Basic
import Mathlib.Tactic.Common

/-!
# Readers that take items off a growing buffer

A reader is a program on a buffer: it takes one item off the front, asks for more, or fails.  In an
`Incremental` reader what has once been decided stands when the buffer grows, and the buffer is
only touched to take an item off.

Bytes reach the buffer in reads of any size, and the reader may be called any number of times
between two of them.  None of that matters: finishing after any sequence of reads and calls gives
what reading the whole stream gives (`finish_arrive`).
-/

namespace Core

universe u

variable {ε α ι : Type u}

/-- A program that takes items of type `ι` off a buffer. -/
structure Incremental (ε α ι : Type u) where
  next : EStateM ε (List α) (Option ι)
  /-- An item stays the first one when bytes arrive behind it. -/
  some_append : ∀ {buffer rest item}, next.run buffer = .ok (some item) rest →
    ∀ more, next.run (buffer ++ more) = .ok (some item) (rest ++ more)
  /-- A failure stays the same one when bytes arrive behind it. -/
  error_append : ∀ {buffer rest e}, next.run buffer = .error e rest →
    ∀ more, next.run (buffer ++ more) = .error e (rest ++ more)
  none_keeps : ∀ {buffer rest}, next.run buffer = .ok none rest → rest = buffer
  error_keeps : ∀ {buffer rest e}, next.run buffer = .error e rest → rest = buffer
  /-- An item takes room, so a buffer holds finitely many. -/
  shrinks : ∀ {buffer rest item}, next.run buffer = .ok (some item) rest →
    rest.length < buffer.length

/-- The items taken so far, and the buffer or the failure that ended the reading. -/
structure Intake (ε α ι : Type u) where
  items : List ι := []
  buffer : Except ε (List α) := .ok []

/-- What can happen next: bytes arrive, or the reader is called. -/
inductive Arrival (α : Type u) where
  | read (chunk : List α)
  | call

/-- What has arrived. -/
def received (arrivals : List (Arrival α)) : List α :=
  arrivals.flatMap fun
    | .read chunk => chunk
    | .call => []

namespace Incremental

variable (p : Incremental ε α ι)

/-- Call the reader until it asks for more or fails; `items` were taken before. -/
def readAll (items : List ι) (buffer : List α) : Intake ε α ι :=
  match _h : p.next.run buffer with
  | .error e _ => { items, buffer := .error e }
  | .ok none rest => { items, buffer := .ok rest }
  | .ok (some item) rest => readAll (items ++ [item]) rest
termination_by buffer.length
decreasing_by exact p.shrinks _h

/-- One call of the reader, unless it has failed. -/
def call (i : Intake ε α ι) : Intake ε α ι :=
  match i.buffer with
  | .error _ => i
  | .ok buffer =>
    match p.next.run buffer with
    | .error e _ => { i with buffer := .error e }
    | .ok none rest => { i with buffer := .ok rest }
    | .ok (some item) rest => { items := i.items ++ [item], buffer := .ok rest }

def step (i : Intake ε α ι) : Arrival α → Intake ε α ι
  | .read chunk => { i with buffer := i.buffer.map (· ++ chunk) }
  | .call => p.call i

def arrive (arrivals : List (Arrival α)) : Intake ε α ι := arrivals.foldl p.step {}

/-- Read on to the end from where an intake stands, with `more` behind its buffer. -/
def finishWith (i : Intake ε α ι) (more : List α) : Intake ε α ι :=
  match i.buffer with
  | .error _ => i
  | .ok buffer => p.readAll i.items (buffer ++ more)

/-- Read on to the end. -/
def finish (i : Intake ε α ι) : Intake ε α ι := p.finishWith i []

variable {p} {items : List ι} {buffer rest : List α} {item : ι} {e : ε}

lemma readAll_of_error (h : p.next.run buffer = .error e rest) :
    p.readAll items buffer = { items, buffer := .error e } := by
  rw [readAll]
  split <;> simp_all

lemma readAll_of_some (h : p.next.run buffer = .ok (some item) rest) :
    p.readAll items buffer = p.readAll (items ++ [item]) rest := by
  rw [readAll]
  split <;> simp_all

/-- One event does not change what the reading comes to. -/
lemma finishWith_step (i : Intake ε α ι) (a : Arrival α) (more : List α) :
    p.finishWith (p.step i a) more = p.finishWith i (received [a] ++ more) := by
  obtain ⟨items, _ | buffer⟩ := i
  · cases a <;> rfl
  · cases a with
    | read chunk => simp [finishWith, step, Except.map, received]
    | call =>
      simp only [step, call, received, List.flatMap_cons, List.flatMap_nil, List.nil_append]
      rcases h : p.next.run buffer with ⟨_ | item, rest⟩ | ⟨e, rest⟩
      · rw [p.none_keeps h]
      · simp only [finishWith]
        exact (readAll_of_some (p.some_append h more)).symm
      · simp only [finishWith]
        exact (readAll_of_error (p.error_append h more)).symm

lemma finishWith_foldl (arrivals : List (Arrival α)) (i : Intake ε α ι) (more : List α) :
    p.finishWith (arrivals.foldl p.step i) more = p.finishWith i (received arrivals ++ more) := by
  induction arrivals generalizing i with
  | nil => rfl
  | cons a arrivals ih =>
    rw [List.foldl_cons, ih, finishWith_step]
    simp [received]

/-- **How the bytes arrived does not matter.** -/
lemma finish_arrive (arrivals : List (Arrival α)) :
    p.finish (p.arrive arrivals) = p.readAll [] (received arrivals) := by
  rw [finish, arrive, finishWith_foldl, List.append_nil]
  rfl

end Incremental

end Core
