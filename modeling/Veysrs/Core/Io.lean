import Mathlib.Algebra.Ring.Int.Defs
import Mathlib.Algebra.Ring.Nat
import Mathlib.Data.Nat.Notation
import Mathlib.Tactic.Common

/-!
# What the operating system supplies

The clock, in nanoseconds, and the errors of `std::io`.
-/

namespace Core

/-- A `Duration` of so many seconds.  Times and durations are natural numbers, in nanoseconds;
`duration_since` and `elapsed` stop at zero, as subtraction does. -/
def seconds (n : ℕ) : ℕ := n * 1000000000

/-- The kinds of `std::io::Error` that are told apart. -/
inductive IoErrorKind where
  | connectionRefused | invalidData | invalidInput | notFound | permissionDenied | timedOut
  | unexpectedEof | wouldBlock | writeZero | other
  deriving DecidableEq, Repr

structure IoError where
  kind : IoErrorKind
  message : String
  deriving DecidableEq, Repr

/-- There is nothing to read yet. -/
def IoError.waits (e : IoError) : Bool := e.kind = .wouldBlock || e.kind = .timedOut

end Core
