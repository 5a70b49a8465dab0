import Mathlib.Algebra.Ring.Int.Defs
import Mathlib.Algebra.Ring.Nat
import Mathlib.Data.List.Basic
import Mathlib.Data.List.Infix
import Mathlib.Tactic.Common

/-!
# First occurrence of a pattern in a list

`findSub` is `haystack.windows(n).position(|w| w == needle)`: the offset of the first place where
the needle stands.  Stream parsers cut their input at such an offset, and what makes them
independent of how the input arrives are the three facts below: an occurrence stays the first
one when the haystack grows (`findSub_append`), a miss can only turn into a hit that reaches past
the old end (`length_lt_of_findSub_append`), and the first occurrence after a part that cannot
contain the needle is the one written there (`findSub_eq_some_iff`).
-/

namespace Core

open List

variable {α : Type*} [DecidableEq α]

/-- Offset of the first occurrence of `needle`. -/
def findSub (needle : List α) : List α → Option ℕ
  | [] => if needle = [] then some 0 else none
  | x :: xs =>
    if needle.isPrefixOf (x :: xs) then some 0 else (findSub needle xs).map (· + 1)

/-- The occurrence reported is one, and none stands before it. -/
lemma findSub_eq_some_iff {needle : List α} (hne : needle ≠ []) :
    ∀ {hay : List α} {i : ℕ}, findSub needle hay = some i ↔
      needle <+: hay.drop i ∧ ∀ j < i, ¬ needle <+: hay.drop j
  | [], i => by
      simp [findSub, hne]
  | x :: xs, i => by
      have ih := fun k => @findSub_eq_some_iff needle hne xs k
      rw [findSub]
      by_cases hp : needle <+: x :: xs
      · rw [if_pos ( isPrefixOf_iff_prefix.mpr hp)]
        constructor
        · rintro ⟨⟩
          exact ⟨hp, fun j hj => absurd hj (Nat.not_lt_zero j)⟩
        · rintro ⟨_, hm⟩
          rcases Nat.eq_zero_or_pos i with h0 | hpos
          · rw [h0]
          · exact absurd hp (hm 0 hpos)
      · rw [if_neg (fun h => hp ( isPrefixOf_iff_prefix.mp h))]
        cases i with
        | zero => simp [hp]
        | succ k =>
          simp only [Option.map_eq_some_iff, Nat.add_right_cancel_iff, exists_eq_right, ih,
            drop_succ_cons]
          refine and_congr_right fun _ => ⟨fun h j hj => ?_, fun h j hj => h (j + 1) (by omega)⟩
          cases j with
          | zero => exact hp
          | succ m => exact h m (by omega)

/-- A miss means that the needle stands nowhere. -/
lemma findSub_eq_none_iff {needle : List α} (hne : needle ≠ []) :
    ∀ {hay : List α}, findSub needle hay = none ↔ ∀ i, ¬ needle <+: hay.drop i
  | [] => by simp [findSub, hne]
  | x :: xs => by
      have ih := @findSub_eq_none_iff needle hne xs
      rw [findSub]
      by_cases hp : needle <+: x :: xs
      · rw [if_pos ( isPrefixOf_iff_prefix.mpr hp)]
        constructor
        · intro h
          cases h
        · exact fun h => absurd hp (h 0)
      · rw [if_neg (fun h => hp ( isPrefixOf_iff_prefix.mp h)), Option.map_eq_none_iff, ih]
        constructor
        · intro h i
          cases i with
          | zero => exact hp
          | succ k => exact h k
        · exact fun h i => h (i + 1)

/-- The occurrence lies inside the haystack. -/
lemma findSub_add_length_le {needle hay : List α} (hne : needle ≠ []) {i : ℕ}
    (h : findSub needle hay = some i) : i + needle.length ≤ hay.length := by
  have hl := ((findSub_eq_some_iff hne).mp h).1.length_le
  have hp := length_pos_of_ne_nil hne
  rw [length_drop] at hl
  omega

omit [DecidableEq α] in
/-- A needle that fits before the old end stands in the old part already. -/
lemma prefix_drop_of_append {needle hay t : List α} {j : ℕ} (hj : j + needle.length ≤ hay.length)
    (h : needle <+: (hay ++ t).drop j) : needle <+: hay.drop j := by
  rw [drop_append_of_le_length (by omega)] at h
  refine prefix_of_prefix_length_le h (prefix_append _ _) ?_
  rw [length_drop]
  omega

/-- **Growing the haystack does not move the first occurrence.** -/
lemma findSub_append {needle hay : List α} (hne : needle ≠ []) {i : ℕ}
    (h : findSub needle hay = some i) (t : List α) : findSub needle (hay ++ t) = some i := by
  have hle := findSub_add_length_le hne h
  obtain ⟨hat, hm⟩ := (findSub_eq_some_iff hne).mp h
  refine (findSub_eq_some_iff hne).mpr ⟨?_, fun j hj hp => ?_⟩
  · rw [drop_append_of_le_length (by omega)]
    exact hat.trans (prefix_append _ _)
  · exact hm j hj (prefix_drop_of_append (by omega) hp)

lemma findSub_eq_none_of_append {needle hay t : List α} (hne : needle ≠ [])
    (h : findSub needle (hay ++ t) = none) : findSub needle hay = none := by
  cases hf : findSub needle hay with
  | none => rfl
  | some i =>
    rw [findSub_append hne hf t] at h
    cases h

/-- **A miss that growing turns into a hit ends in the new part.** -/
lemma length_lt_of_findSub_append {needle hay t : List α} (hne : needle ≠ []) {i : ℕ}
    (hm : findSub needle hay = none) (h : findSub needle (hay ++ t) = some i) :
    hay.length < i + needle.length := by
  by_contra hle
  have hat := ((findSub_eq_some_iff hne).mp h).1
  exact (findSub_eq_none_iff hne).mp hm i (prefix_drop_of_append (by omega) hat)

/-- The first occurrence is found in a front part of the list if it ends there. -/
lemma findSub_take {needle hay : List α} (hne : needle ≠ []) {i : ℕ}
    (h : findSub needle hay = some i) (n : ℕ) :
    findSub needle (hay.take n) = if i + needle.length ≤ n then some i else none := by
  have hle := findSub_add_length_le hne h
  have hs : hay.take n ++ hay.drop n = hay := take_append_drop n hay
  cases hf : findSub needle (hay.take n) with
  | none =>
    rw [← hs] at h
    have hlt := length_lt_of_findSub_append hne hf h
    rw [length_take] at hlt
    rw [if_neg (by omega)]
  | some j =>
    have ha := findSub_append hne hf (hay.drop n)
    rw [hs, h, Option.some.injEq] at ha
    have hl := findSub_add_length_le hne hf
    rw [length_take] at hl
    rw [if_pos (by omega), ha]

/-- The needle does not begin where its first element does not occur. -/
lemma findSub_skip {x : α} {xs a : List α} (h : x ∉ a) (t : List α) :
    findSub (x :: xs) (a ++ t) = (findSub (x :: xs) t).map (· + a.length) := by
  induction a with
  | nil => simp
  | cons y a ih =>
    rw [mem_cons, not_or] at h
    have hm : (x :: xs).isPrefixOf (y :: (a ++ t)) = false := by
      rw [List.isPrefixOf, beq_false_of_ne h.1, Bool.false_and]
    rw [cons_append, findSub, if_neg (by simp [hm]), ih h.2, Option.map_map]
    rfl

end Core
