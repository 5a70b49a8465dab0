import Mathlib.Algebra.BigOperators.Group.List.Basic
import Mathlib.Algebra.Ring.Int.Defs
import Mathlib.Algebra.Ring.Nat
import Mathlib.Tactic.Common

/-!
# The beginning of a list that fits

Elements have a weight and there is room for so much.  `fit` keeps the longest beginning that fits
(`fit_longest`), and taking elements off the end until the rest fits leads to the same
(`fit_of_le`, `fit_concat_of_lt`).
-/

namespace Core

open List

variable {α : Type*}

/-- What the elements weigh together. -/
def weigh (w : α → ℕ) (l : List α) : ℕ := (l.map w).sum

@[simp] lemma weigh_nil (w : α → ℕ) : weigh w [] = 0 := rfl

@[simp] lemma weigh_cons (w : α → ℕ) (a : α) (l : List α) :
    weigh w (a :: l) = w a + weigh w l := by
  simp [weigh]

@[simp] lemma weigh_append (w : α → ℕ) (l l' : List α) :
    weigh w (l ++ l') = weigh w l + weigh w l' := by
  simp [weigh]

/-- The elements from the front, as long as there is room. -/
def fit (w : α → ℕ) : ℕ → List α → List α
  | _, [] => []
  | room, a :: l => if w a ≤ room then a :: fit w (room - w a) l else []

/-- `r` is the longest beginning of `l` that there is room for. -/
structure LongestFitting (w : α → ℕ) (room : ℕ) (l r : List α) : Prop where
  front : r <+: l
  fits : weigh w r ≤ room
  longest : ∀ r', r' <+: l → weigh w r' ≤ room → r' <+: r

variable {w : α → ℕ} {room : ℕ} {l r r' : List α} {a : α}

lemma LongestFitting.unique (h : LongestFitting w room l r) (h' : LongestFitting w room l r') :
    r = r' := by
  have hle := h'.longest r h.front h.fits
  have hge := h.longest r' h'.front h'.fits
  exact hle.eq_of_length (le_antisymm hle.length_le hge.length_le)

lemma fit_longest (w : α → ℕ) (room : ℕ) (l : List α) :
    LongestFitting w room l (fit w room l) := by
  induction l generalizing room with
  | nil => exact ⟨prefix_rfl, Nat.zero_le _, fun _ h _ => h⟩
  | cons a l ih =>
    rw [fit]
    by_cases ha : w a ≤ room
    · rw [if_pos ha]
      obtain ⟨hf, hfi, hl⟩ := ih (room - w a)
      refine ⟨(prefix_cons_inj a).mpr hf, ?_, fun r hr hw => ?_⟩
      · rw [weigh_cons]
        omega
      · cases r with
        | nil => exact nil_prefix
        | cons b r =>
          obtain ⟨rfl, hre⟩ := cons_prefix_cons.mp hr
          rw [weigh_cons] at hw
          exact (prefix_cons_inj b).mpr (hl r hre (by omega))
    · rw [if_neg ha]
      refine ⟨ nil_prefix, Nat.zero_le _, fun r hr hw => ?_⟩
      cases r with
      | nil => exact nil_prefix
      | cons b r =>
        obtain ⟨rfl, -⟩ := cons_prefix_cons.mp hr
        rw [weigh_cons] at hw
        omega

/-- What fits as a whole is kept. -/
lemma fit_of_le (h : weigh w l ≤ room) : fit w room l = l :=
  (fit_longest w room l).unique ⟨prefix_rfl, h, fun _ hr _ => hr⟩

/-- What does not fit loses its last element. -/
lemma fit_concat_of_lt (h : room < weigh w (l ++ [a])) :
    fit w room (l ++ [a]) = fit w room l := by
  obtain ⟨hf, hfi, hl⟩ := fit_longest w room l
  refine (fit_longest w room (l ++ [a])).unique
    ⟨hf.trans (prefix_append _ _), hfi, fun r hr hw => ?_⟩
  rcases prefix_concat_iff.mp hr with rfl | hr
  · omega
  · exact hl r hr hw

/-- Nothing is kept if the first element is too heavy. -/
lemma fit_cons_of_lt (h : room < w a) : fit w room (a :: l) = [] := by
  rw [fit, if_neg (Nat.not_le.mpr h)]

end Core
