import Mathlib.Algebra.Ring.Nat
import Mathlib.Order.Monotone.Basic
import Mathlib.Order.Basic
import Mathlib.Tactic.Common
import Mathlib.Tactic.IntervalCases

/-!
# The Gregorian calendar

Dates of the calendar that is in use since 1582, continued to the years before, and how they follow
each other: `Date.next` is the day after, and a date is a day of one of twelve months whose lengths
depend on the year.

`Date.julianDay` numbers the dates.  It is the formula of the almanacs, and what it has to do with
the calendar is proved: the number of the next day is the next number (`julianDay_next`), since the
number of the first day of a month grows by the length of the month before (`firstDay_succ`), and
different dates have different numbers (`julianDay_injective`).  So the date a number of days after
another one is known by its number (`eq_iterate_next`).  The days of the week follow each other in
the same way (`weekday_next`).
-/

namespace Core

def isLeapYear (year : ℕ) : Bool := year % 4 = 0 && (year % 100 ≠ 0 || year % 400 = 0)

/-- How many days a month of twelve has. -/
def monthLength (year month : ℕ) : ℕ :=
  if month = 2 then if isLeapYear year then 29 else 28
  else if month = 4 ∨ month = 6 ∨ month = 9 ∨ month = 11 then 30
  else 31

lemma monthLength_pos (year month : ℕ) : 0 < monthLength year month := by
  unfold monthLength
  split_ifs <;> decide

@[ext]
structure Date where
  year : ℕ
  month : ℕ
  day : ℕ
  month_pos : 1 ≤ month
  month_le : month ≤ 12
  day_pos : 1 ≤ day
  day_le : day ≤ monthLength year month
  deriving DecidableEq

lemma Date.day_le_31 (d : Date) : d.day ≤ 31 := by
  have hle := d.day_le
  unfold monthLength at hle
  split_ifs at hle <;> omega

/-- The first day of the time of Unix. -/
def Date.epoch : Date := ⟨1970, 1, 1, by decide, by decide, by decide, by decide⟩

/-- The day after. -/
def Date.next (d : Date) : Date :=
  if hday : d.day < monthLength d.year d.month then
    { d with day := d.day + 1, day_pos := Nat.le_add_left 1 _, day_le := hday }
  else if hmonth : d.month < 12 then
    { d with
      month := d.month + 1, day := 1
      month_pos := Nat.le_add_left 1 _, month_le := hmonth
      day_pos := le_rfl, day_le := monthLength_pos _ _ }
  else
    { year := d.year + 1, month := 1, day := 1
      month_pos := le_rfl, month_le := by decide
      day_pos := le_rfl, day_le := monthLength_pos _ _ }

/-! ## Numbers of days -/

/-- The day of a year that starts in March, the years and months being numbered from zero. -/
def marchNumber (y m day : ℕ) : ℕ :=
  day + (153 * m + 2) / 5 + 365 * y + y / 4 - y / 100 + y / 400 - 32045

/-- The formula for the Julian day; the years are numbered from -4800. -/
def julianNumber (year month day : ℕ) : ℕ :=
  let a := (14 - month) / 12
  marchNumber (year + 4800 - a) (month + 12 * a - 3) day

def Date.julianDay (d : Date) : ℕ := julianNumber d.year d.month d.day

section Formula

variable {year month m y k : ℕ}

lemma marchNumber_add (hy : 4799 ≤ y) (m day k : ℕ) :
    marchNumber y m (day + k) = marchNumber y m day + k := by
  unfold marchNumber
  omega

lemma marchNumber_month (hy : 4799 ≤ y) {m' : ℕ} (h : (153 * m' + 2) / 5 = (153 * m + 2) / 5 + k) :
    marchNumber y m' 1 = marchNumber y m 1 + k := by
  unfold marchNumber
  omega

lemma julianNumber_eq_march (year month : ℕ) :
    ∃ y m, 4799 ≤ y ∧ ∀ day, julianNumber year month day = marchNumber y m day := by
  refine ⟨_, _, ?_, fun _ => rfl⟩
  omega

/-- The years a number divides, in the count from -4800. -/
lemma div_year (hd : k ∣ 4800) :
    (year + 4800) / k = (year + 4799) / k + if year % k = 0 then 1 else 0 := by
  have hi : k ∣ year + 4799 + 1 ↔ year % k = 0 := by
    rw [← Nat.dvd_iff_mod_eq_zero]
    exact Nat.dvd_add_left hd
  have hs : (year + 4799 + 1) / k = _ := Nat.succ_div
  simp only [hi] at hs
  exact hs

/-- The day after the end of February is in the next year that starts in March. -/
lemma marchNumber_february (year : ℕ) : marchNumber (year + 4800) 0 1 =
    marchNumber (year + 4799) 11 1 + if isLeapYear year then 29 else 28 := by
  have hce : (year + 4799) / 100 ≤ year + 4799 := Nat.div_le_self _ _
  have hfo : (year + 4800) / 4 = _ := div_year (by decide)
  have hh : (year + 4800) / 100 = _ := div_year (by decide)
  have hf : (year + 4800) / 400 = _ := div_year (by decide)
  unfold marchNumber
  rw [hfo, hh, hf]
  generalize (year + 4799) / 4 = a, (year + 4799) / 100 = b, (year + 4799) / 400 = c at hce ⊢
  clear hfo hh hf
  by_cases h400 : year % 400 = 0
  · have h100 : year % 100 = 0 := by omega
    have h4 : year % 4 = 0 := by omega
    have hl : isLeapYear year = true := by simp [isLeapYear, h400, h4]
    rw [if_pos h4, if_pos h100, if_pos h400, if_pos hl]
    omega
  · by_cases h100 : year % 100 = 0
    · have h4 : year % 4 = 0 := by omega
      have hc : ¬ isLeapYear year = true := by simp [isLeapYear, h400, h100]
      rw [if_pos h4, if_pos h100, if_neg h400, if_neg hc]
      omega
    · by_cases h4 : year % 4 = 0
      · have hl : isLeapYear year = true := by simp [isLeapYear, h100, h4]
        rw [if_pos h4, if_neg h100, if_neg h400, if_pos hl]
        omega
      · have hc : ¬ isLeapYear year = true := by simp [isLeapYear, h4]
        rw [if_neg h4, if_neg h100, if_neg h400, if_neg hc]
        omega

/-- **A month is as long as the calendar says.** -/
lemma julianNumber_succ_month (hp : 1 ≤ month) (hle : month < 12) :
    julianNumber year (month + 1) 1 = julianNumber year month 1 + monthLength year month := by
  have hl : 4799 ≤ year + 4799 := Nat.le_add_left _ _
  interval_cases month
  · exact marchNumber_month hl rfl
  · exact marchNumber_february year
  all_goals exact marchNumber_month (Nat.le_succ_of_le hl) rfl

lemma julianNumber_succ_year :
    julianNumber (year + 1) 1 1 = julianNumber year 12 1 + monthLength year 12 := by
  have hl : 4799 ≤ year + 4800 := by omega
  exact marchNumber_month hl rfl

end Formula

/-! ### Months -/

/-- The first day of a month, the months being numbered from January of the year 0. -/
def firstDay (index : ℕ) : ℕ := julianNumber (index / 12) (index % 12 + 1) 1

lemma firstDay_succ (index : ℕ) :
    firstDay (index + 1) = firstDay index + monthLength (index / 12) (index % 12 + 1) := by
  unfold firstDay
  by_cases hl : index % 12 = 11
  · have hy : (index + 1) / 12 = index / 12 + 1 := by omega
    have hm : (index + 1) % 12 = 0 := by omega
    rw [hy, hm, hl]
    exact julianNumber_succ_year
  · have hy : (index + 1) / 12 = index / 12 := by omega
    have hm : (index + 1) % 12 = index % 12 + 1 := by omega
    rw [hy, hm]
    exact julianNumber_succ_month (by omega) (by omega)

lemma firstDay_strictMono : StrictMono firstDay := by
  refine strictMono_nat_of_lt_succ fun index => ?_
  rw [firstDay_succ]
  exact Nat.lt_add_of_pos_right (monthLength_pos _ _)

namespace Date

variable {d e : Date}

/-- The month of a date, in that numbering. -/
def monthIndex (d : Date) : ℕ := 12 * d.year + (d.month - 1)

lemma monthIndex_div (d : Date) : d.monthIndex / 12 = d.year := by
  have hle := d.month_le
  rw [monthIndex]
  omega

lemma monthIndex_mod (d : Date) : d.monthIndex % 12 + 1 = d.month := by
  have hp := d.month_pos
  have hle := d.month_le
  rw [monthIndex]
  omega

lemma julianDay_eq (d : Date) : d.julianDay = firstDay d.monthIndex + (d.day - 1) := by
  have hd : d.day = 1 + (d.day - 1) := by
    have hp := d.day_pos
    omega
  obtain ⟨y, m, hy, hm⟩ := julianNumber_eq_march d.year d.month
  rw [firstDay, monthIndex_div, monthIndex_mod, julianDay, hm, hm, hd,
    marchNumber_add hy, Nat.add_sub_cancel_left]

lemma julianDay_of_first {index : ℕ} (hm : d.monthIndex = index) (hd : d.day = 1) :
    d.julianDay = firstDay index := by
  rw [julianDay_eq, hm, hd, Nat.add_zero]

lemma julianDay_lt (d : Date) : d.julianDay < firstDay (d.monthIndex + 1) := by
  have hp := d.day_pos
  have hle := d.day_le
  rw [firstDay_succ, monthIndex_div, monthIndex_mod, julianDay_eq]
  omega

/-- Different dates have different numbers. -/
lemma julianDay_injective (h : d.julianDay = e.julianDay) : d = e := by
  -- a date of a later month has a larger number
  have hle : ∀ {d e : Date}, d.monthIndex < e.monthIndex → d.julianDay < e.julianDay := by
    intro d e hlt
    calc d.julianDay < firstDay (d.monthIndex + 1) := d.julianDay_lt
      _ ≤ firstDay e.monthIndex := firstDay_strictMono.monotone hlt
      _ ≤ e.julianDay := by
          rw [julianDay_eq]
          exact Nat.le_add_right _ _
  have hm : d.monthIndex = e.monthIndex := by
    rcases lt_trichotomy d.monthIndex e.monthIndex with hlt | heq | hlt
    · exact absurd h (hle hlt).ne
    · exact heq
    · exact absurd h.symm (hle hlt).ne
  rw [julianDay_eq, julianDay_eq, hm] at h
  have hd := d.day_pos
  have he := e.day_pos
  refine Date.ext ?_ ?_ (by omega)
  · rw [← monthIndex_div, ← monthIndex_div, hm]
  · rw [← monthIndex_mod, ← monthIndex_mod, hm]

/-- **The next day has the next number.** -/
lemma julianDay_next (d : Date) : d.next.julianDay = d.julianDay + 1 := by
  have hp := d.day_pos
  have hle := d.day_le
  have hmonth_pos := d.month_pos
  have hmonth_le := d.month_le
  have hend : monthLength d.year d.month ≤ d.day →
      firstDay (d.monthIndex + 1) = d.julianDay + 1 := by
    intro hl
    rw [firstDay_succ, monthIndex_div, monthIndex_mod, julianDay_eq]
    omega
  unfold next
  split_ifs with hd hm
  · rw [julianDay_eq, julianDay_eq d, monthIndex, monthIndex]
    simp only
    omega
  · rw [← hend (Nat.not_lt.mp hd)]
    refine julianDay_of_first ?_ rfl
    simp only [monthIndex]
    omega
  · rw [← hend (Nat.not_lt.mp hd)]
    refine julianDay_of_first ?_ rfl
    simp only [monthIndex]
    omega

lemma julianDay_iterate_next (d : Date) (n : ℕ) : (next^[n] d).julianDay = d.julianDay + n := by
  induction n with
  | zero => rw [Function.iterate_zero_apply, Nat.add_zero]
  | succ n ih => rw [Function.iterate_succ_apply', julianDay_next, ih, Nat.add_assoc]

/-- The date `n` days after another one is the one whose number is `n` more. -/
lemma eq_iterate_next {n : ℕ} (h : e.julianDay = d.julianDay + n) : e = next^[n] d :=
  julianDay_injective (h.trans (julianDay_iterate_next d n).symm)

end Date

/-! ## Days of the week -/

inductive Weekday where
  | sunday | monday | tuesday | wednesday | thursday | friday | saturday
  deriving DecidableEq, Repr

namespace Weekday

def next : Weekday → Weekday
  | sunday => monday
  | monday => tuesday
  | tuesday => wednesday
  | wednesday => thursday
  | thursday => friday
  | friday => saturday
  | saturday => sunday

/-- The day of the week with a number from zero, counted round. -/
def ofNumber (n : ℕ) : Weekday := next^[n % 7] sunday

lemma ofNumber_succ (n : ℕ) : ofNumber (n + 1) = (ofNumber n).next := by
  unfold ofNumber
  rw [← Function.iterate_succ_apply' next]
  by_cases hl : n % 7 = 6
  · have hr : (n + 1) % 7 = 0 := by omega
    rw [hl, hr]
    rfl
  · have hs : (n + 1) % 7 = n % 7 + 1 := by omega
    rw [hs]

end Weekday

/-- The day of the week of a date. -/
def Date.weekday (d : Date) : Weekday := .ofNumber (d.julianDay + 1)

/-- The days of the week follow each other as the dates do. -/
lemma Date.weekday_next (d : Date) : d.next.weekday = d.weekday.next := by
  rw [weekday, julianDay_next, Weekday.ofNumber_succ]
  rfl

/-- The time of Unix starts on a Thursday. -/
lemma Date.weekday_epoch : epoch.weekday = .thursday := by decide

end Core
