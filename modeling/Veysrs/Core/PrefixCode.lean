import Mathlib.Algebra.Ring.Int.Defs
import Mathlib.Algebra.Ring.Nat
import Mathlib.Data.List.Infix
import Mathlib.Tactic.Common

/-!
# Codes in which no word begins another

Each symbol has a word, none of them empty and none the beginning of another's.  A text that is
read from the front can then be cut into words in one way only (`encode_append_inj`), also if it
ends in the middle of a word.
-/

namespace Core

open List

variable {α β : Type*}

structure PrefixCode (α β : Type*) where
  code : α → List β
  ne_nil : ∀ a, code a ≠ []
  free : ∀ a b, code a <+: code b → a = b

namespace PrefixCode

variable (c : PrefixCode α β) {as bs : List α} {p q rest : List β}

def encode (as : List α) : List β := as.flatMap c.code

/-- No whole word stands at the front. -/
def Unfinished (p : List β) : Prop := ∀ a, ¬c.code a <+: p

@[simp] lemma encode_nil : c.encode [] = [] := rfl

@[simp] lemma encode_cons (a : α) (as : List α) :
    c.encode (a :: as) = c.code a ++ c.encode as := flatMap_cons

@[simp] lemma encode_append (as bs : List α) :
    c.encode (as ++ bs) = c.encode as ++ c.encode bs := flatMap_append

variable {c}

/-- Words at the front of an encoded text are its first words. -/
lemma front_of_encode (hp : c.Unfinished p) (h : c.encode as ++ rest = c.encode bs ++ p) :
    as <+: bs := by
  induction as generalizing bs with
  | nil => exact nil_prefix
  | cons a as ih =>
    rw [encode_cons, append_assoc] at h
    cases bs with
    | nil => exact absurd ⟨_, h⟩ (hp a)
    | cons b bs =>
      rw [encode_cons, append_assoc] at h
      -- two words at the front of one text: one of them begins the other
      have hab : a = b := by
        rcases prefix_or_prefix_of_prefix (prefix_append (c.code a) _)
          (h ▸ prefix_append (c.code b) _) with hle | hge
        · exact c.free a b hle
        · exact (c.free b a hge).symm
      subst hab
      exact (prefix_cons_inj a).mpr (ih (append_cancel_left h))

/-- **A text is cut into words in one way only.** -/
lemma encode_append_inj (hp : c.Unfinished p) (hq : c.Unfinished q)
    (h : c.encode as ++ p = c.encode bs ++ q) : as = bs ∧ p = q := by
  have hle := front_of_encode hq h
  have hge := front_of_encode hp h.symm
  obtain rfl : as = bs := hle.eq_of_length (le_antisymm hle.length_le hge.length_le)
  exact ⟨rfl, append_cancel_left h⟩

end PrefixCode

end Core
