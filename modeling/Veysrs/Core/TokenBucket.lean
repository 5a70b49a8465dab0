import Veysrs.Core.Runs
import Mathlib.Data.Rat.Defs
import Mathlib.Algebra.Order.Field.Rat
import Mathlib.Tactic.Linarith
import Mathlib.Tactic.Positivity

/-!
# Token buckets

A machine is *metered* when every state holds a number of tokens, at most `burst` of them, tokens
come in at `rate` a second at most, and every event that counts takes one out.  However the machine
keeps its tokens, the events that count in a window of `T` seconds are then at most
`burst + rate * T` (`Meter.countIn_le`).
-/

namespace Core

universe u v

variable {σ : Type u} {ε : Type v}

/-- The events that count, with a time between `a` and `b`. -/
def countIn (time : ε → ℚ) (counts : ε → Bool) (a b : ℚ) (evs : List ε) : ℕ :=
  evs.countP fun e => counts e && decide (a ≤ time e) && decide (time e ≤ b)

variable {time : ε → ℚ} {counts : ε → Bool} {a b : ℚ}

@[simp] lemma countIn_nil : countIn time counts a b [] = 0 := rfl

lemma countIn_append (evs ev : List ε) :
    countIn time counts a b (evs ++ ev) =
      countIn time counts a b evs + countIn time counts a b ev :=
  List.countP_append

lemma countIn_le_countP (evs : List ε) : countIn time counts a b evs ≤ evs.countP counts := by
  refine List.countP_mono_left fun e _ he => ?_
  simp only [Bool.and_eq_true] at he
  exact he.1.1

variable {evs : List ε}

lemma countIn_of_later (h : ∀ e ∈ evs, b < time e) : countIn time counts a b evs = 0 := by
  refine List.countP_eq_zero.mpr fun e he hin => ?_
  simp only [Bool.and_eq_true, decide_eq_true_eq] at hin
  exact absurd hin.2 (not_le.mpr (h e he))

lemma countIn_of_earlier (h : ∀ e ∈ evs, time e < a) : countIn time counts a b evs = 0 := by
  refine List.countP_eq_zero.mpr fun e he hin => ?_
  simp only [Bool.and_eq_true, decide_eq_true_eq] at hin
  exact absurd hin.1.2 (not_le.mpr (h e he))

/-- `step` is metered: `level` is the number of tokens at hand at the time `clock`, in every state
that is `good`. -/
structure Meter (step : σ → List ε → σ → Prop) (time : ε → ℚ) (counts : ε → Bool)
    (rate burst : ℚ) where
  good : σ → Prop
  clock : σ → ℚ
  level : σ → ℚ
  nonneg : ∀ {s}, good s → 0 ≤ level s
  le_burst : ∀ {s}, good s → level s ≤ burst
  keeps : ∀ {s evs u}, good s → step s evs u → good u
  forward : ∀ {s evs u}, good s → step s evs u → clock s ≤ clock u
  timed : ∀ {s evs u}, good s → step s evs u → ∀ e ∈ evs, time e = clock u
  spends : ∀ {s evs u}, good s → step s evs u →
    level u + evs.countP counts ≤ min burst (level s + rate * (clock u - clock s))

namespace Meter

variable {step : σ → List ε → σ → Prop} {rate burst : ℚ}

/-- What every run keeps.  Up to the end of the window the events counted so far and the tokens at
hand together are paid for by `burst` and by what has come in since the window began; past its end
the count stands. -/
structure Window (m : Meter step time counts rate burst) (a T : ℚ) (evs : List ε) (s : σ) :
    Prop where
  good : m.good s
  early : m.clock s < a → countIn time counts a (a + T) evs = 0
  paid : a ≤ m.clock s → m.clock s ≤ a + T →
    countIn time counts a (a + T) evs + m.level s ≤ burst + rate * (m.clock s - a)
  bounded : (countIn time counts a (a + T) evs : ℚ) ≤ burst + rate * T

lemma Window.advance {m : Meter step time counts rate burst} {T : ℚ} {ev : List ε} {s u : σ}
    (hr : 0 ≤ rate) (h : m.Window a T evs s) (hst : step s ev u) :
    m.Window a T (evs ++ ev) u := by
  have hg := m.keeps h.good hst
  have hf := m.forward h.good hst
  have ht := m.timed h.good hst
  have hsp := m.spends h.good hst
  have hn := m.nonneg hg
  have hc : (countIn time counts a (a + T) ev : ℚ) ≤ ev.countP counts :=
    Nat.cast_le.mpr (countIn_le_countP ev)
  have hp : a ≤ m.clock u → m.clock u ≤ a + T →
      countIn time counts a (a + T) (evs ++ ev) + m.level u ≤ burst + rate * (m.clock u - a) := by
    intro ha hb
    rw [countIn_append, Nat.cast_add]
    by_cases hs : a ≤ m.clock s
    · have ho := h.paid hs (hf.trans hb)
      have hnew := hsp.trans (min_le_right _ _)
      linarith
    · have ho : (countIn time counts a (a + T) evs : ℚ) = 0 := by
        rw [h.early (not_le.mp hs), Nat.cast_zero]
      have hnew := hsp.trans (min_le_left _ _)
      have hin : 0 ≤ rate * (m.clock u - a) := mul_nonneg hr (sub_nonneg.mpr ha)
      linarith
  refine ⟨hg, fun hu => ?_, hp, ?_⟩
  · rw [countIn_append, h.early (hf.trans_lt hu),
      countIn_of_earlier fun e he => (ht e he).trans_lt hu]
  · by_cases hb : m.clock u ≤ a + T
    · by_cases ha : a ≤ m.clock u
      · have hle : rate * (m.clock u - a) ≤ rate * T :=
          mul_le_mul_of_nonneg_left (by linarith) hr
        have := hp ha hb
        linarith
      · have ho := h.bounded
        rw [countIn_append, countIn_of_earlier
          fun e (he : e ∈ ev) => (ht e he).trans_lt (not_le.mp ha)]
        simpa using ho
    · have ho := h.bounded
      rw [countIn_append, countIn_of_later
        fun e (he : e ∈ ev) => (not_le.mp hb).trans_eq (ht e he).symm]
      simpa using ho

/-- At most `burst + rate * T` events count in a window of `T` seconds. -/
lemma countIn_le (m : Meter step time counts rate burst) {s t : σ} (hr : 0 ≤ rate)
    (hs : m.good s) (hrun : Runs step s evs t) (a : ℚ) {T : ℚ} (hT : 0 ≤ T) :
    (countIn time counts a (a + T) evs : ℚ) ≤ burst + rate * T := by
  have hbu : 0 ≤ burst := (m.nonneg hs).trans (m.le_burst hs)
  have hb : m.Window a T [] s := by
    refine ⟨hs, fun _ => countIn_nil, fun ha _ => ?_, ?_⟩
    · have hle := m.le_burst hs
      have hin : 0 ≤ rate * (m.clock s - a) := mul_nonneg hr (sub_nonneg.mpr ha)
      simp only [countIn_nil, Nat.cast_zero]
      linarith
    · simp only [countIn_nil]
      positivity
  exact (hrun.invariant hb fun _ _ _ _ h hst => h.advance hr hst).bounded

end Meter

end Core
