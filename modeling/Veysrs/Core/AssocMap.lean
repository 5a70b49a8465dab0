import Mathlib.Algebra.Ring.Int.Defs
import Mathlib.Algebra.Ring.Nat
import Mathlib.Data.List.AList
import Mathlib.Data.List.Count
import Mathlib.Tactic.Common

/-!
# Finite maps with one kind of value

`AList` at a constant family, with the one operation it lacks, a change of every value, and the
counting facts about its keys.
-/

namespace Core

open List

universe u v

variable {κ : Type u} {α : Type v}

abbrev AssocMap (κ : Type u) (α : Type v) := AList (fun _ : κ => α)

/-- Apply `f` to every value. -/
def mapValues (f : α → α) (m : AssocMap κ α) : AssocMap κ α :=
  ⟨m.entries.map fun e => ⟨e.1, f e.2⟩, by
    have hnodup := m.nodupKeys
    simpa [List.NodupKeys, List.keys, Function.comp_def] using hnodup⟩

@[simp] lemma keys_mapValues (f : α → α) (m : AssocMap κ α) :
    (mapValues f m).keys = m.keys := by
  simp [mapValues, AList.keys, List.keys]

/-- Keep the entries whose value passes. -/
def retain (p : α → Bool) (m : AssocMap κ α) : AssocMap κ α :=
  ⟨m.entries.filter fun e => p e.2, m.nodupKeys.sublist filter_sublist⟩

lemma length_keys_retain_le (p : α → Bool) (m : AssocMap κ α) :
    (retain p m).keys.length ≤ m.keys.length := by
  simpa [retain, AList.keys, List.keys] using length_filter_le _ _

variable [DecidableEq κ]

@[simp] lemma lookup_mapValues (f : α → α) (m : AssocMap κ α) (k : κ) :
    (mapValues f m).lookup k = (m.lookup k).map f := by
  obtain ⟨entries, hn⟩ := m
  simp only [AList.lookup, mapValues]
  clear hn
  induction entries with
  | nil => rfl
  | cons e rest ih =>
    obtain ⟨i, a⟩ := e
    by_cases hi : i = k
    · subst hi
      simp
    · simp only [map_cons]
      rw [dlookup_cons_ne _ _ (Ne.symm hi), dlookup_cons_ne _ _ (Ne.symm hi), ih]

@[simp] lemma lookup_retain (p : α → Bool) (m : AssocMap κ α) (k : κ) :
    (retain p m).lookup k = (m.lookup k).filter p := by
  refine Option.ext fun a => ?_
  rw [Option.filter_eq_some_iff, ← Option.mem_def, ← Option.mem_def, AList.mem_lookup_iff,
    AList.mem_lookup_iff, retain, mem_filter]

/-- Apply a change that may fail to every value; nothing changes unless all succeed. -/
def mapValuesM {ε : Type*} (f : α → Except ε α) (m : AssocMap κ α) : Except ε (AssocMap κ α) :=
  match m.entries.findSome? fun e => match f e.2 with
      | .ok _ => none
      | .error err => some err with
  | some err => .error err
  | none => .ok (mapValues (fun a => (f a).toOption.getD a) m)

omit [DecidableEq κ] in
lemma keys_mapValuesM {ε : Type*} {f : α → Except ε α} {m m' : AssocMap κ α}
    (h : mapValuesM f m = .ok m') : m'.keys = m.keys := by
  unfold mapValuesM at h
  split at h
  · cases h
  · cases h
    exact keys_mapValues _ _

/-- On success every value has been changed by `f`: what `f` does to an observation `g` of a value
has been done at every key. -/
lemma map_lookup_mapValuesM {ε γ : Type*} {f : α → Except ε α} {m m' : AssocMap κ α} (g : α → γ)
    (φ : γ → γ) (h : mapValuesM f m = .ok m') (hf : ∀ a b, f a = .ok b → g b = φ (g a)) (k : κ) :
    (m'.lookup k).map g = ((m.lookup k).map g).map φ := by
  unfold mapValuesM at h
  split at h
  · cases h
  · rename_i hn
    cases h
    rw [lookup_mapValues]
    cases hk : m.lookup k with
    | none => rfl
    | some a =>
      have hm : (⟨k, a⟩ : Sigma fun _ : κ => α) ∈ m.entries := AList.mem_lookup_iff.mp hk
      have hok := List.findSome?_eq_none_iff.mp hn _ hm
      cases hfa : f a with
      | error err => simp [hfa] at hok
      | ok b => simp [hfa, Except.toOption, hf a b hfa]

lemma length_keys_insert_of_mem {m : AssocMap κ α} {k : κ} (h : k ∈ m) (a : α) :
    (m.insert k a).keys.length = m.keys.length := by
  have hp := length_pos_of_mem (AList.mem_keys.mp h)
  rw [AList.keys_insert, length_cons, length_erase_of_mem (AList.mem_keys.mp h)]
  omega

lemma length_keys_insert_le (m : AssocMap κ α) (k : κ) (a : α) :
    (m.insert k a).keys.length ≤ m.keys.length + 1 := by
  rw [AList.keys_insert]
  exact Nat.succ_le_succ length_erase_le

lemma length_keys_erase_le (m : AssocMap κ α) (k : κ) :
    (m.erase k).keys.length ≤ m.keys.length := by
  rw [AList.keys_erase]
  exact length_erase_le

/-- A key occurs once. -/
lemma count_keys (m : AssocMap κ α) (k : κ) :
    m.keys.count k = if (m.lookup k).isSome then 1 else 0 := by
  split_ifs with h
  · exact count_eq_one_of_mem m.keys_nodup (AList.lookup_isSome.mp h)
  · rw [count_eq_zero]
    exact fun hk => h (AList.lookup_isSome.mpr hk)

/-! ## Sums over the values -/

/-- The sum of `f` over all values. -/
def sumValues (f : α → ℕ) (m : AssocMap κ α) : ℕ := (m.entries.map fun e => f e.2).sum

omit [DecidableEq κ] in
lemma sumValues_mapValues_le {f : α → ℕ} {g : α → α} (h : ∀ a, f (g a) ≤ f a)
    (m : AssocMap κ α) : sumValues f (mapValues g m) ≤ sumValues f m := by
  rw [sumValues, sumValues, mapValues, map_map]
  induction m.entries with
  | nil => exact le_rfl
  | cons e rest ih =>
    rw [map_cons, map_cons, sum_cons, sum_cons]
    exact Nat.add_le_add (h e.2) ih

/-- Another value for a key changes its summand. -/
lemma sumValues_insert (f : α → ℕ) (m : AssocMap κ α) (k : κ) (a : α) :
    sumValues f (m.insert k a) + ((m.lookup k).map f).getD 0 = sumValues f m + f a := by
  obtain ⟨entries, hn⟩ := m
  have her : ((entries.kerase k).map fun e => f e.2).sum + ((entries.dlookup k).map f).getD 0 =
      (entries.map fun e => f e.2).sum := by
    clear hn
    induction entries with
    | nil => rfl
    | cons e rest ih =>
      obtain ⟨i, b⟩ := e
      by_cases hi : k = i
      · subst hi
        simp [Nat.add_comm]
      · rw [kerase_cons_ne hi, dlookup_cons_ne _ _ hi, map_cons, sum_cons,
          map_cons, sum_cons, Nat.add_assoc, ih]
  simp only [sumValues, AList.insert, AList.lookup, kinsert_def, map_cons, sum_cons]
  omega

end Core
