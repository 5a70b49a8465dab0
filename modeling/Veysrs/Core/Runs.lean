import Mathlib.Algebra.Ring.Int.Defs
import Mathlib.Algebra.Ring.Nat
import Mathlib.Tactic.Common

/-!
# Labelled runs

A machine that emits a list of events with every step, the runs it can make, and the one induction
every invariant of a run goes through.
-/

namespace Core

universe u v

variable {σ : Type u} {ε : Type v}

/-- `Runs step s evs t`: steps lead from `s` to `t` and emit `evs`, in order. -/
inductive Runs (step : σ → List ε → σ → Prop) (s : σ) : List ε → σ → Prop
  | refl : Runs step s [] s
  | tail {evs ev : List ε} {t u : σ} : Runs step s evs t → step t ev u →
      Runs step s (evs ++ ev) u

variable {step : σ → List ε → σ → Prop} {s t u : σ} {evs evs' : List ε}

namespace Runs

lemma single (h : step s evs t) : Runs step s evs t := by
  have hr : Runs step s ([] ++ evs) t := refl.tail h
  simpa using hr

lemma trans (h : Runs step s evs t) (h' : Runs step t evs' u) :
    Runs step s (evs ++ evs') u := by
  induction h' with
  | refl => simpa using h
  | tail _ hs ih =>
    rw [← List.append_assoc]
    exact ih.tail hs

/-- What holds at the start and is kept by every step holds at the end of every run. -/
lemma invariant {I : List ε → σ → Prop} (hst : I [] s)
    (hstep : ∀ evs t ev u, I evs t → step t ev u → I (evs ++ ev) u)
    (h : Runs step s evs t) : I evs t := by
  induction h with
  | refl => exact hst
  | tail _ hs ih => exact hstep _ _ _ _ ih hs

end Runs

/-- An entry of a log that has been continued is an entry of the old part or of the new one. -/
lemma append_split {xs ys before after : List ε} {e : ε}
    (h : xs ++ ys = before ++ e :: after) :
    (∃ mid, xs = before ++ e :: mid ∧ after = mid ++ ys) ∨
      ∃ mid, before = xs ++ mid ∧ ys = mid ++ e :: after := by
  rcases List.append_eq_append_iff.mp h with ⟨mid, hb, hys⟩ | ⟨mid, hxs, hm⟩
  · exact .inr ⟨mid, hb, hys⟩
  · cases mid with
    | nil => exact .inr ⟨[], by simpa using hxs.symm, hm.symm⟩
    | cons x mid =>
      rw [List.cons_append, List.cons.injEq] at hm
      exact .inl ⟨mid, by rw [hxs, hm.1], hm.2⟩

end Core
