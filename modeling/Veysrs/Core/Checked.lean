import Mathlib.Algebra.Ring.Nat
import Mathlib.Tactic.Common

/-!
# Arithmetic that does not wrap

Sums, products and differences of numbers of 64 bits, over `ℕ`, that have no result where the
machine would wrap around or, in a build with checks, panic.  Where all the steps of a computation
have a result, the machine computes the same numbers (`toNat_add_of_checked` and its like).
-/

namespace Core

def checkedAdd (a b : ℕ) : Option ℕ := if a + b < 2 ^ 64 then some (a + b) else none

def checkedMul (a b : ℕ) : Option ℕ := if a * b < 2 ^ 64 then some (a * b) else none

def checkedSub (a b : ℕ) : Option ℕ := if b ≤ a then some (a - b) else none

section Nat

variable {a b c : ℕ}

lemma checkedAdd_of_lt (h : a + b < 2 ^ 64) : checkedAdd a b = some (a + b) := if_pos h

lemma checkedMul_of_lt (h : a * b < 2 ^ 64) : checkedMul a b = some (a * b) := if_pos h

lemma checkedSub_of_le (h : b ≤ a) : checkedSub a b = some (a - b) := if_pos h

@[simp] lemma checkedAdd_eq_some_iff : checkedAdd a b = some c ↔ a + b < 2 ^ 64 ∧ a + b = c := by
  simp [checkedAdd]

@[simp] lemma checkedMul_eq_some_iff : checkedMul a b = some c ↔ a * b < 2 ^ 64 ∧ a * b = c := by
  simp [checkedMul]

@[simp] lemma checkedSub_eq_some_iff : checkedSub a b = some c ↔ b ≤ a ∧ a - b = c := by
  simp [checkedSub]

end Nat

section Machine

variable {x y : UInt64} {a b c : ℕ}

lemma toNat_add_of_checked (hx : x.toNat = a) (hy : y.toNat = b) (h : checkedAdd a b = some c) :
    (x + y).toNat = c := by
  obtain ⟨hlt, rfl⟩ := checkedAdd_eq_some_iff.mp h
  rw [UInt64.toNat_add, hx, hy, Nat.mod_eq_of_lt hlt]

lemma toNat_mul_of_checked (hx : x.toNat = a) (hy : y.toNat = b) (h : checkedMul a b = some c) :
    (x * y).toNat = c := by
  obtain ⟨hlt, rfl⟩ := checkedMul_eq_some_iff.mp h
  rw [UInt64.toNat_mul, hx, hy, Nat.mod_eq_of_lt hlt]

lemma toNat_sub_of_checked (hx : x.toNat = a) (hy : y.toNat = b) (h : checkedSub a b = some c) :
    (x - y).toNat = c := by
  obtain ⟨hle, rfl⟩ := checkedSub_eq_some_iff.mp h
  rw [← hx, ← hy] at hle ⊢
  exact UInt64.toNat_sub_of_le x y (UInt64.le_iff_toNat_le.mpr hle)

lemma toNat_div_eq (hx : x.toNat = a) (hy : y.toNat = b) : (x / y).toNat = a / b := by
  rw [UInt64.toNat_div, hx, hy]

end Machine

end Core
