import Veysrs.Core.Calendar
import Veysrs.Core.Checked
import Veysrs.Router.Static

/-!
# Dates in headers

`format_http_date` and `parse_http_date` of `router/handler.rs`, against the calendar.

**Reading.**  The formula of `parse_http_date` is computed in `u64` without checks.  It is written
down once more with every operation checked (`DateFields.checked`), and it has a result exactly if
the sum of the days and the sum of the seconds fit (`DateFields.InRange`); then the machine computes
the value that the formula has over the integers (`parsedExactly_iff`).

**Printing.**  The algorithm of `format_http_date` cuts a number of days into centuries, years that
start in March, months and days (`Cut`).  The Julian day of what it finds is the number it started
with, so that it is the date the calendar has for that day (`civilDate_eq`), and the printed weekday
is the one of that date (`formatHttpDate_eq`).  None of its differences goes below zero, and its
indexes lie within the tables (`checkedFormat_eq`).

**There and back.**  The Julian day is also what `parse_http_date` computes, so that the time is read
back from the printed date (`http_date_round_trip`).
-/

namespace Veysrs

open Core List

namespace Handler

/-! ## Reading a date -/

/-- What is read from a date before it is computed with. -/
structure DateFields where
  day : UInt64
  month : ℕ
  year : UInt64
  hour : UInt64
  min : UInt64
  sec : UInt64
  deriving DecidableEq, Repr

/-- `parse_http_date` up to its formula. -/
def dateFields (s : Str) : Option DateFields :=
  let parts := splitWhitespace s
  if parts.length < 5 then none
  else match if parts.length = 6 then parts.tail else parts with
    | dayStr :: monthStr :: yearStr :: timeStr :: _ => do
        let day ← parseU64 (trimMatches ',' dayStr)
        let year ← parseU64 yearStr
        let month ← monthNames.findIdx? fun name => eqIgnoreAsciiCase name.toList monthStr
        match timeStr.splitOn ':' with
        | [hourStr, minStr, secStr] => do
            let hour ← parseU64 hourStr
            let min ← parseU64 minStr
            let sec ← parseU64 secStr
            return { day, month := month + 1, year, hour, min, sec }
        | _ => none
    | _ => none

def DateFields.value (f : DateFields) : Option UInt64 :=
  dateValue f.day (UInt64.ofNat f.month) f.year f.hour f.min f.sec

lemma parseHttpDate_eq (s : Str) : parseHttpDate s = (dateFields s).bind DateFields.value := by
  simp only [parseHttpDate, dateFields]
  split
  · rfl
  · generalize (if (splitWhitespace s).length = 6 then (splitWhitespace s).tail
      else splitWhitespace s) = words
    rcases words with _ | ⟨dayStr, _ | ⟨monthStr, _ | ⟨yearStr, _ | ⟨timeStr, _⟩⟩⟩⟩
    · rfl
    · rfl
    · rfl
    · rfl
    · simp only [Option.bind_eq_bind, Option.bind_assoc]
      congr 1
      rcases timeStr.splitOn ':' with _ | ⟨hourStr, _ | ⟨minStr, _ | ⟨secStr, _ | ⟨_, _⟩⟩⟩⟩
      · rfl
      · rfl
      · rfl
      · simp only [Option.bind_assoc]
        rfl
      · rfl

lemma dateFields_month {s : Str} {f : DateFields} (h : dateFields s = some f) :
    1 ≤ f.month ∧ f.month ≤ 12 := by
  simp only [dateFields] at h
  split at h
  · cases h
  · split at h
    · simp only [Option.bind_eq_bind, Option.bind_eq_some_iff] at h
      obtain ⟨day, -, year, -, month, hm, ht⟩ := h
      have hlt : month < 12 := (List.findIdx?_eq_some_iff_getElem.mp hm).1
      split at ht
      · simp only [Option.bind_eq_some_iff] at ht
        obtain ⟨hour, -, min, -, sec, -, hf⟩ := ht
        cases hf
        exact ⟨Nat.le_add_left 1 month, hlt⟩
      · cases ht
    · cases h

/-! ## The formula -/

/-- The formula of `parse_http_date` over the integers. -/
def DateFields.exact (f : DateFields) : Option ℤ :=
  let a : ℤ := (14 - f.month) / 12
  let y : ℤ := f.year.toNat + 4800 - a
  let m : ℤ := f.month + 12 * a - 3
  let jdn : ℤ := f.day.toNat + (153 * m + 2) / 5 + 365 * y + y / 4 - y / 100 + y / 400 - 32045
  if jdn < 2440588 then none
  else some ((jdn - 2440588) * 86400 + f.hour.toNat * 3600 + f.min.toNat * 60 + f.sec.toNat)

/-- Its first half with every operation on `u64` checked. -/
def checkedJulian (day month year : ℕ) : Option ℕ := do
  let a := (← checkedSub 14 month) / 12
  let y ← checkedSub (← checkedAdd year 4800) a
  let m ← checkedSub (← checkedAdd month (← checkedMul 12 a)) 3
  let jdn ← checkedAdd day ((← checkedAdd (← checkedMul 153 m) 2) / 5)
  let jdn ← checkedAdd jdn (← checkedMul 365 y)
  let jdn ← checkedAdd jdn (y / 4)
  let jdn ← checkedSub jdn (y / 100)
  let jdn ← checkedAdd jdn (y / 400)
  checkedSub jdn 32045

/-- And the second half. -/
def checkedSeconds (days hour min sec : ℕ) : Option ℕ := do
  let secs ← checkedMul 86400 days
  let secs ← checkedAdd secs (← checkedMul 3600 hour)
  let secs ← checkedAdd secs (← checkedMul 60 min)
  checkedAdd secs sec

def DateFields.checked (f : DateFields) : Option (Option ℕ) := do
  let jdn ← checkedJulian f.day.toNat f.month f.year.toNat
  if jdn < 2440588 then return none
  else
    let days ← checkedSub jdn 2440588
    return some (← checkedSeconds days f.hour.toNat f.min.toNat f.sec.toNat)

/-- The largest number on the way to the Julian day. -/
def julianBound (day month year : ℕ) : ℕ :=
  let a := (14 - month) / 12
  let y := year + 4800 - a
  day + (153 * (month + 12 * a - 3) + 2) / 5 + 365 * y + y / 4

section Formula

variable {day month year jdn days hour min sec secs : ℕ}

/-- The formula has a result if its largest sum has one. -/
lemma checkedJulian_eq_some_iff (hm : 1 ≤ month ∧ month ≤ 12) :
    checkedJulian day month year = some jdn ↔
      julianBound day month year < 2 ^ 64 ∧ julianNumber year month day = jdn := by
  simp only [checkedJulian, Option.bind_eq_bind, Option.bind_eq_some_iff, checkedSub_eq_some_iff,
    checkedAdd_eq_some_iff, checkedMul_eq_some_iff]
  constructor
  · rintro ⟨_, ⟨-, rfl⟩, _, ⟨-, rfl⟩, y, ⟨-, rfl⟩, _, ⟨-, rfl⟩, _, ⟨-, rfl⟩, m, ⟨-, rfl⟩, _,
      ⟨-, rfl⟩, _, ⟨-, rfl⟩, _, ⟨-, rfl⟩, _, ⟨-, rfl⟩, _, ⟨-, rfl⟩, _, ⟨hb, rfl⟩, _, ⟨-, rfl⟩,
      _, ⟨-, rfl⟩, ⟨-, hj⟩⟩
    exact ⟨hb, hj⟩
  · rintro ⟨hb, hj⟩
    replace hb : day + (153 * (month + 12 * ((14 - month) / 12) - 3) + 2) / 5 +
      365 * (year + 4800 - (14 - month) / 12) + (year + 4800 - (14 - month) / 12) / 4 < 2 ^ 64 :=
        hb
    refine ⟨_, ⟨by omega, rfl⟩, _, ⟨by omega, rfl⟩, _, ⟨by omega, rfl⟩, _, ⟨by omega, rfl⟩, _,
      ⟨by omega, rfl⟩, _, ⟨by omega, rfl⟩, _, ⟨by omega, rfl⟩, _, ⟨by omega, rfl⟩, _,
      ⟨by omega, rfl⟩, _, ⟨by omega, rfl⟩, _, ⟨by omega, rfl⟩, _, ⟨by omega, rfl⟩, _,
      ⟨by omega, rfl⟩, _, ⟨by omega, rfl⟩, by omega, hj⟩

/-- Over the natural numbers no difference of the formula is cut off. -/
lemma cast_julianNumber (hm : 1 ≤ month ∧ month ≤ 12) (day year : ℕ) :
    (day : ℤ) + (153 * ((month : ℤ) + 12 * ((14 - (month : ℤ)) / 12) - 3) + 2) / 5 +
      365 * ((year : ℤ) + 4800 - (14 - (month : ℤ)) / 12) +
      ((year : ℤ) + 4800 - (14 - (month : ℤ)) / 12) / 4 -
      ((year : ℤ) + 4800 - (14 - (month : ℤ)) / 12) / 100 +
      ((year : ℤ) + 4800 - (14 - (month : ℤ)) / 12) / 400 - 32045 = julianNumber year month day := by
  have ha : (14 - (month : ℤ)) / 12 = ((14 - month) / 12 : ℕ) := by omega
  have hs : (14 - month) / 12 ≤ 1 ∧ 3 ≤ month + 12 * ((14 - month) / 12) := by omega
  unfold julianNumber marchNumber
  rw [ha]
  simp only
  generalize (14 - month) / 12 = a at hs ⊢
  obtain ⟨y, hy⟩ : ∃ y, y = year + 4800 - a := ⟨_, rfl⟩
  have hye : (year : ℤ) + 4800 - a = y := by omega
  rw [hye, ← hy]
  have hl : 4799 ≤ y := by omega
  omega

/-- Where every step has a result, the machine computes it. -/
lemma toNat_julian {day month year : UInt64}
    (h : checkedJulian day.toNat month.toNat year.toNat = some jdn) :
    (day + (153 * (month + 12 * ((14 - month) / 12) - 3) + 2) / 5 +
      365 * (year + 4800 - (14 - month) / 12) + (year + 4800 - (14 - month) / 12) / 4 -
      (year + 4800 - (14 - month) / 12) / 100 +
      (year + 4800 - (14 - month) / 12) / 400 - 32045).toNat = jdn := by
  simp only [checkedJulian, Option.bind_eq_bind, Option.bind_eq_some_iff] at h
  obtain ⟨a, ha, late, hla, y, hy, months, hmon, march, hma, m, hm, p, hp, q, hq, days, hd,
    years, hyea, sum, hsum, leaps, hl, less, hle, more, hmo, hj⟩ := h
  have hs := toNat_div_eq (toNat_sub_of_checked (x := 14) (y := month) rfl rfl ha) (y := 12) rfl
  have hye := toNat_sub_of_checked (toNat_add_of_checked (x := year) (y := 4800) rfl rfl hla)
    hs hy
  have hmonth := toNat_sub_of_checked (toNat_add_of_checked (x := month) rfl
    (toNat_mul_of_checked (x := 12) rfl hs hmon) hma) (y := 3) rfl hm
  have hd := toNat_add_of_checked (x := day) rfl (toNat_div_eq (toNat_add_of_checked
    (toNat_mul_of_checked (x := 153) rfl hmonth hp) (y := 2) rfl hq) (y := 5) rfl) hd
  have hsum := toNat_add_of_checked hd (toNat_mul_of_checked (x := 365) rfl hye hyea) hsum
  have hl := toNat_add_of_checked hsum (toNat_div_eq hye (y := 4) rfl) hl
  have hle := toNat_sub_of_checked hl (toNat_div_eq hye (y := 100) rfl) hle
  have hmo := toNat_add_of_checked hle (toNat_div_eq hye (y := 400) rfl) hmo
  exact toNat_sub_of_checked hmo (y := 32045) rfl hj

/-- The time of a number of days and a time of day. -/
def secondsOf (days hour min sec : ℕ) : ℕ := 86400 * days + 3600 * hour + 60 * min + sec

lemma checkedSeconds_eq_some_iff : checkedSeconds days hour min sec = some secs ↔
    secondsOf days hour min sec < 2 ^ 64 ∧ secondsOf days hour min sec = secs := by
  simp only [checkedSeconds, Option.bind_eq_bind, Option.bind_eq_some_iff, checkedAdd_eq_some_iff,
    checkedMul_eq_some_iff]
  unfold secondsOf
  constructor
  · rintro ⟨_, ⟨-, rfl⟩, _, ⟨-, rfl⟩, _, ⟨-, rfl⟩, _, ⟨-, rfl⟩, _, ⟨-, rfl⟩, ⟨hb, hs⟩⟩
    exact ⟨hb, hs⟩
  · rintro ⟨hb, hs⟩
    exact ⟨_, ⟨by omega, rfl⟩, _, ⟨by omega, rfl⟩, _, ⟨by omega, rfl⟩, _, ⟨by omega, rfl⟩, _,
      ⟨by omega, rfl⟩, hb, hs⟩

lemma toNat_seconds {days64 hour min sec : UInt64} (hda : days64.toNat = days)
    (h : checkedSeconds days hour.toNat min.toNat sec.toNat = some secs) :
    (days64 * 86400 + hour * 3600 + min * 60 + sec).toNat = secs := by
  simp only [checkedSeconds, Option.bind_eq_bind, Option.bind_eq_some_iff] at h
  obtain ⟨a, ha, b, hb, c, hc, d, hd, e, he, hs⟩ := h
  rw [UInt64.mul_comm days64, UInt64.mul_comm hour, UInt64.mul_comm min]
  have hh := toNat_add_of_checked (toNat_mul_of_checked (x := 86400) rfl hda ha)
    (toNat_mul_of_checked (x := 3600) (y := hour) rfl rfl hb) hc
  have hm := toNat_add_of_checked hh
    (toNat_mul_of_checked (x := 60) (y := min) rfl rfl hd) he
  exact toNat_add_of_checked hm (y := sec) rfl hs

end Formula

namespace DateFields

variable {f : DateFields}

/-- The Julian day of the date, as a number without bound. -/
def julian (f : DateFields) : ℕ := julianNumber f.year.toNat f.month f.day.toNat

def seconds (f : DateFields) : ℕ :=
  secondsOf (f.julian - 2440588) f.hour.toNat f.min.toNat f.sec.toNat

/-- No number on the way is too large for `u64`. -/
def InRange (f : DateFields) : Prop :=
  julianBound f.day.toNat f.month f.year.toNat < 2 ^ 64 ∧
    (2440588 ≤ f.julian → f.seconds < 2 ^ 64)

/-- What the formula gives, as a number without bound. -/
def natural (f : DateFields) : Option ℕ := if f.julian < 2440588 then none else some f.seconds

lemma checked_eq_some_iff (hm : 1 ≤ f.month ∧ f.month ≤ 12) {v : Option ℕ} :
    f.checked = some v ↔ f.InRange ∧ f.natural = v := by
  simp only [checked, Option.bind_eq_bind, Option.bind_eq_some_iff,
    checkedJulian_eq_some_iff hm]
  constructor
  · rintro ⟨jdn, ⟨hb, hj⟩, hv⟩
    obtain rfl : f.julian = jdn := hj
    by_cases hea : f.julian < 2440588
    · rw [if_pos hea] at hv
      cases hv
      exact ⟨⟨hb, fun hle => absurd hea (Nat.not_lt.mpr hle)⟩, if_pos hea⟩
    · rw [if_neg hea, checkedSub_of_le (Nat.not_lt.mp hea), Option.bind_some] at hv
      obtain ⟨secs, hs, hv⟩ := Option.bind_eq_some_iff.mp hv
      cases hv
      obtain ⟨hlt, rfl⟩ := checkedSeconds_eq_some_iff.mp hs
      exact ⟨⟨hb, fun _ => hlt⟩, if_neg hea⟩
  · rintro ⟨⟨hb, hs⟩, rfl⟩
    refine ⟨f.julian, ⟨hb, rfl⟩, ?_⟩
    rw [natural]
    by_cases hea : f.julian < 2440588
    · rw [if_pos hea, if_pos hea]
      rfl
    · rw [if_neg hea, if_neg hea]
      have hle := Nat.not_lt.mp hea
      rw [checkedSub_of_le hle, Option.bind_some,
        checkedSeconds_eq_some_iff.mpr ⟨hs hle, rfl⟩]
      rfl

lemma exact_eq (hm : 1 ≤ f.month ∧ f.month ≤ 12) : f.exact = f.natural.map (↑) := by
  have hc : _ = (f.julian : ℤ) := cast_julianNumber hm f.day.toNat f.year.toNat
  unfold exact natural
  simp only [hc]
  by_cases hea : f.julian < 2440588
  · have hlt : (f.julian : ℤ) < 2440588 := by exact_mod_cast hea
    rw [if_pos hlt, if_pos hea]
    rfl
  · have hle : ¬ (f.julian : ℤ) < 2440588 := by exact_mod_cast hea
    rw [if_neg hle, if_neg hea, Option.map_some, Option.some_inj, seconds, secondsOf]
    omega

/-- Where every step has a result, the machine computes it. -/
lemma value_of_checked (hm : 1 ≤ f.month ∧ f.month ≤ 12) {v : Option ℕ}
    (h : f.checked = some v) : f.value.map UInt64.toNat = v := by
  have hm64 : (UInt64.ofNat f.month).toNat = f.month := by
    rw [UInt64.toNat_ofNat', Nat.mod_eq_of_lt (by omega)]
  simp only [checked, Option.bind_eq_bind, Option.bind_eq_some_iff] at h
  obtain ⟨jdn, hjdn, hv⟩ := h
  rw [← hm64] at hjdn
  have hj := toNat_julian hjdn
  unfold value dateValue
  simp only
  generalize f.day +
      (153 * (UInt64.ofNat f.month + 12 * ((14 - UInt64.ofNat f.month) / 12) - 3) + 2) / 5 +
      365 * (f.year + 4800 - (14 - UInt64.ofNat f.month) / 12) +
      (f.year + 4800 - (14 - UInt64.ofNat f.month) / 12) / 4 -
      (f.year + 4800 - (14 - UInt64.ofNat f.month) / 12) / 100 +
      (f.year + 4800 - (14 - UInt64.ofNat f.month) / 12) / 400 - 32045 = jdn64 at hj ⊢
  have hi : jdn64 < 2440588 ↔ jdn < 2440588 := by
    rw [UInt64.lt_iff_toNat_lt, hj]
    rfl
  by_cases hea : jdn < 2440588
  · rw [if_pos hea] at hv
    cases hv
    rw [if_pos (hi.mpr hea)]
    rfl
  · rw [if_neg hea, checkedSub_of_le (Nat.not_lt.mp hea), Option.bind_some] at hv
    obtain ⟨secs, hs, hv⟩ := Option.bind_eq_some_iff.mp hv
    cases hv
    rw [if_neg (fun hlt => hea (hi.mp hlt)), Option.map_some, Option.some_inj]
    exact toNat_seconds
      (toNat_sub_of_checked hj (y := 2440588) rfl (checkedSub_of_le (Nat.not_lt.mp hea)))
      hs

end DateFields

/-! ## Every date -/

/-- No operation of `parse_http_date` wraps around, and it returns what its formula gives over the
integers. -/
structure ParsedExactly (s : Str) : Prop where
  checked : ∀ f, dateFields s = some f → f.checked.isSome
  exact : (parseHttpDate s).map (fun time => (time.toNat : ℤ)) = (dateFields s).bind DateFields.exact

/-- Within these bounds. -/
lemma parseHttpDate_of_inRange {s : Str} {f : DateFields} (h : dateFields s = some f)
    (hr : f.InRange) : (parseHttpDate s).map UInt64.toNat = f.natural := by
  have hm := dateFields_month h
  rw [parseHttpDate_eq, h, Option.bind_some]
  exact DateFields.value_of_checked hm
    ((DateFields.checked_eq_some_iff hm).mpr ⟨hr, rfl⟩)

/-- **Dates of clients.**  The time is exact if and only if the sum of the days and the sum of the
seconds fit into `u64`. -/
theorem parsedExactly_iff (s : Str) :
    ParsedExactly s ↔ ∀ f, dateFields s = some f → f.InRange := by
  constructor
  · intro hexact f hf
    obtain ⟨v, hv⟩ := Option.isSome_iff_exists.mp (hexact.checked f hf)
    exact ((DateFields.checked_eq_some_iff (dateFields_month hf)).mp hv).1
  · intro hrange
    constructor
    · intro f hf
      rw [(DateFields.checked_eq_some_iff (dateFields_month hf)).mpr ⟨hrange f hf, rfl⟩]
      rfl
    · cases hf : dateFields s with
      | none =>
        rw [parseHttpDate_eq, hf]
        rfl
      | some f =>
        have hparsed := parseHttpDate_of_inRange hf (hrange f hf)
        rw [Option.bind_some, DateFields.exact_eq (dateFields_month hf), ← hparsed,
          Option.map_map]
        rfl

/-- The days are added up modulo the size of `u64`. -/
theorem late_day_wraps :
    ¬ ParsedExactly "Sun, 18446744073709551615 Nov 1994 08:49:37 GMT".toList := by
  intro hexact
  have hsome := hexact.checked ⟨18446744073709551615, 11, 1994, 8, 49, 37⟩ (by decide)
  exact absurd hsome (by decide)

/-! ## The date of a day -/

lemma century_step {l n r : ℕ} (hn : 4 * l / 146097 = n) (hr : l - (146097 * n + 3) / 4 = r) :
    l = 36524 * n + (n + 3) / 4 + r ∧ r ≤ 36524 ∧ (r = 36524 → n % 4 = 0) ∧
      (146097 * n + 3) / 4 ≤ l := by
  omega

lemma year_step {r i : ℕ} (hr : r ≤ 36524) (hi : 4000 * (r + 1) / 1461001 = i) :
    i ≤ 99 ∧ 1461 * i / 4 ≤ r ∧ r < 365 * (i + 1) + (i + 1) / 4 ∧
      1461 * i / 4 = 365 * i + i / 4 := by
  omega

lemma month_step {s j : ℕ} (hs : s ≤ 365) (hj : 80 * (s + 31) / 2447 = j) :
    1 ≤ j ∧ j ≤ 12 ∧ 2447 * j / 80 < s + 31 ∧ s < (153 * j + 2) / 5 ∧
      2447 * j / 80 = 30 + (153 * (j - 1) + 2) / 5 := by
  obtain ⟨hp, hle⟩ : 1 ≤ j ∧ j ≤ 12 := by omega
  interval_cases j
  all_goals omega

/-- How the algorithm cuts up a number of days, counted from a day long before: `n` centuries, `i`
years that start in March, and in the last of these `s` days, which are `j - 1` months and
`day - 1` days. -/
structure Cut (days n i s j day : ℕ) : Prop where
  late : 49 ≤ n
  year_le : i ≤ 99
  sum : days + 2509157 = 36524 * n + (n + 3) / 4 + (365 * i + i / 4) + s
  in_year : 365 * i + i / 4 + s < 365 * (i + 1) + (i + 1) / 4
  century : 365 * i + i / 4 + s = 36524 → n % 4 = 0
  month_pos : 1 ≤ j
  month_le : j ≤ 12
  in_month : s + 1 = (153 * (j - 1) + 2) / 5 + day
  month_end : s < (153 * j + 2) / 5
  day_pos : 1 ≤ day

lemma civilDate_cut (days : ℕ) : ∃ n i s j day, Cut days n i s j day ∧
    civilDate days = ⟨100 * (n - 49) + i + j / 11, j + 2 - 12 * (j / 11), day⟩ := by
  unfold civilDate
  have hst : days + 68569 + 2440588 = days + 2509157 := by omega
  simp only [hst]
  obtain ⟨n, hn⟩ : ∃ n, 4 * (days + 2509157) / 146097 = n := ⟨_, rfl⟩
  obtain ⟨r, hr⟩ : ∃ r, days + 2509157 - (146097 * n + 3) / 4 = r := ⟨_, rfl⟩
  rw [hn, hr]
  obtain ⟨i, hi⟩ : ∃ i, 4000 * (r + 1) / 1461001 = i := ⟨_, rfl⟩
  rw [hi]
  obtain ⟨s, hs⟩ : ∃ s, r - 1461 * i / 4 = s := ⟨_, rfl⟩
  rw [hs]
  obtain ⟨j, hj⟩ : ∃ j, 80 * (s + 31) / 2447 = j := ⟨_, rfl⟩
  rw [hj]
  obtain ⟨hsum, hr_le, hc, hn_le⟩ := century_step hn hr
  obtain ⟨hi_le, hle, hlt, hy⟩ := year_step hr_le hi
  obtain ⟨hj_pos, hj_le, hd, hend, hm⟩ := month_step (by omega) hj
  refine ⟨n, i, s, j, s + 31 - 2447 * j / 80, ?_, rfl⟩
  constructor
  all_goals omega
  
lemma marchNumber_century {i : ℕ} (hi : i ≤ 99) (c m day : ℕ) : marchNumber (100 * c + i) m day =
    day + (153 * m + 2) / 5 + 36524 * c + c / 4 + (365 * i + i / 4) - 32045 := by
  have hf : (100 * c + i) / 4 = 25 * c + i / 4 := by omega
  have hc : (100 * c + i) / 100 = c := by omega
  have hl : (100 * c + i) / 400 = c / 4 := by omega
  unfold marchNumber
  rw [hf, hc, hl]
  have hs : day + (153 * m + 2) / 5 + 365 * (100 * c + i) + (25 * c + i / 4) - c + c / 4 =
      day + (153 * m + 2) / 5 + 36524 * c + c / 4 + (365 * i + i / 4) := by
    omega
  rw [hs]

section Cut

variable {days n i s j day : ℕ}

lemma Cut.julianNumber_eq (h : Cut days n i s j day) :
    julianNumber (100 * (n - 49) + i + j / 11) (j + 2 - 12 * (j / 11)) day = days + 2440588 := by
  obtain ⟨hl, hye, hsum, -, -, hp, hle, hmo, hend, -⟩ := h
  have hs : (14 - (j + 2 - 12 * (j / 11))) / 12 = j / 11 := by omega
  have hy : 100 * (n - 49) + i + j / 11 + 4800 - j / 11 = 100 * (n - 1) + i := by omega
  have hm : j + 2 - 12 * (j / 11) + 12 * (j / 11) - 3 = j - 1 := by omega
  have hma : julianNumber (100 * (n - 49) + i + j / 11) (j + 2 - 12 * (j / 11)) day =
      marchNumber (100 * (n - 1) + i) (j - 1) day := by
    rw [julianNumber, hs, hy, hm]
  rw [hma, marchNumber_century hye]
  omega

/-- A year with a 29 February is a leap year. -/
lemma Cut.isLeapYear (h : Cut days n i s j day) (hl : s = 365) :
    isLeapYear (100 * (n - 49) + i + 1) = true := by
  obtain ⟨hla, hy, -, hlt, hc, -⟩ := h
  have h4 : (100 * (n - 49) + i + 1) % 4 = 0 := by omega
  by_cases hend : i = 99
  · have h400 : (100 * (n - 49) + i + 1) % 400 = 0 := by omega
    simp [Core.isLeapYear, h4, h400]
  · have h100 : (100 * (n - 49) + i + 1) % 100 ≠ 0 := by omega
    simp [Core.isLeapYear, h4, h100]

lemma Cut.day_le (h : Cut days n i s j day) :
    day ≤ monthLength (100 * (n - 49) + i + j / 11) (j + 2 - 12 * (j / 11)) := by
  have hl := h.isLeapYear
  obtain ⟨-, -, -, hlt, -, hp, hle, hm, hend, -⟩ := h
  obtain rfl | hlt12 : j = 12 ∨ j < 12 := by omega
  · show day ≤ if Core.isLeapYear (100 * (n - 49) + i + 1) then 29 else 28
    split_ifs with hy
    · omega
    · have hs : s ≠ 365 := fun hla => hy (hl hla)
      omega
  · clear hl
    unfold monthLength
    interval_cases j <;> simp <;> omega

end Cut

/-- **The printed date is the calendar's**, as many days after 1 January 1970. -/
lemma civilDate_eq (days : ℕ) :
    civilDate days = ⟨(Date.next^[days] .epoch).year, (Date.next^[days] .epoch).month,
      (Date.next^[days] .epoch).day⟩ := by
  obtain ⟨n, i, s, j, day, hc, hd⟩ := civilDate_cut days
  have hle := hc.month_le
  let date : Date :=
    { year := 100 * (n - 49) + i + j / 11
      month := j + 2 - 12 * (j / 11)
      day
      month_pos := by omega
      month_le := by omega
      day_pos := hc.day_pos
      day_le := hc.day_le }
  have hep : Date.epoch.julianDay = 2440588 := by decide
  have ha : date = Date.next^[days] .epoch := by
    apply Date.eq_iterate_next
    rw [Nat.add_comm]
    exact hc.julianNumber_eq
  rw [hd, ← ha]

/-! ## The text of a date -/

def weekdayName : Weekday → String
  | .sunday => "Sun"
  | .monday => "Mon"
  | .tuesday => "Tue"
  | .wednesday => "Wed"
  | .thursday => "Thu"
  | .friday => "Fri"
  | .saturday => "Sat"

/-- The weekday of the date, the date and the time of day, as headers have them. -/
def dateText (date : Date) (secsOfDay : ℕ) : Str :=
  (weekdayName date.weekday).toList ++ ", ".toList ++ padded 2 date.day ++ ' ' ::
    (monthNames.getD (date.month - 1) "").toList ++ ' ' :: padded 4 date.year ++ ' ' ::
    padded 2 (secsOfDay / 3600) ++ ':' :: padded 2 (secsOfDay % 3600 / 60) ++ ':' ::
    padded 2 (secsOfDay % 60) ++ " GMT".toList

lemma weekdayName_ofNumber (n : ℕ) : weekdayName (.ofNumber n) = weekdays.getD (n % 7) "" := by
  have hlt : n % 7 < 7 := Nat.mod_lt n (by decide)
  unfold Weekday.ofNumber
  generalize n % 7 = k at hlt
  interval_cases k
  all_goals rfl

/-- The printed weekday is the one of the date. -/
lemma weekday_after (days : ℕ) :
    weekdayName (Date.next^[days] .epoch).weekday = weekdays.getD ((days + 4) % 7) "" := by
  -- the epoch is a Thursday, and from there the days go round
  have hd : (Date.next^[days] .epoch).weekday = .ofNumber (days + 4) := by
    induction days with
    | zero => exact Date.weekday_epoch
    | succ days ih =>
      rw [Function.iterate_succ_apply', Date.weekday_next, ih, ← Weekday.ofNumber_succ]
  rw [hd, weekdayName_ofNumber]

/-- **What is printed** is the weekday, date and time of the calendar. -/
lemma formatHttpDate_eq (secs : ℕ) :
    formatHttpDate secs = dateText (Date.next^[secs / 86400] .epoch) (secs % 86400) := by
  rw [dateText, weekday_after]
  simp only [formatHttpDate, civilDate_eq]

/-! ### Every step of the printing -/

/-- `div_ceil`. -/
def divCeil (a b : ℕ) : ℕ := (a + (b - 1)) / b

/-- The century of `format_http_date` and the days in it, with every operation on `u64` checked. -/
def checkedCentury (l : ℕ) : Option (ℕ × ℕ) := do
  let n := (← checkedMul 4 l) / 146097
  let l ← checkedSub l (divCeil (← checkedMul 146097 n) 4)
  return (n, l)

/-- The year in a century and the days in it. -/
def checkedYear (l : ℕ) : Option (ℕ × ℕ) := do
  let i := (← checkedMul 4000 (← checkedAdd l 1)) / 1461001
  let l ← checkedAdd (← checkedSub l ((← checkedMul 1461 i) / 4)) 31
  return (i, l)

/-- The month in a year and the day in it. -/
def checkedMonth (l : ℕ) : Option (ℕ × ℕ) := do
  let j := (← checkedMul 80 l) / 2447
  let day ← checkedSub l ((← checkedMul 2447 j) / 80)
  return (j, day)

def checkedCivilDate (days : ℕ) : Option CivilDate := do
  let (n, l) ← checkedCentury (← checkedAdd (← checkedAdd days 68569) 2440588)
  let (i, l) ← checkedYear l
  let (j, day) ← checkedMonth l
  let l := j / 11
  let month ← checkedSub (← checkedAdd j 2) (← checkedMul 12 l)
  let year ← checkedAdd (← checkedAdd (← checkedMul 100 (← checkedSub n 49)) i) l
  return { year, month, day }

/-- And the text, with every index within its array. -/
def checkedFormat (secs : ℕ) : Option Str := do
  let days := secs / 86400
  let secsOfDay := secs % 86400
  let weekday ← weekdays[(← checkedAdd days 4) % 7]?
  let date ← checkedCivilDate days
  let month ← monthNames[← checkedSub date.month 1]?
  return weekday.toList ++ ", ".toList ++ padded 2 date.day ++ ' ' :: month.toList ++ ' ' ::
    padded 4 date.year ++ ' ' :: padded 2 (secsOfDay / 3600) ++ ':' ::
    padded 2 (secsOfDay % 3600 / 60) ++ ':' :: padded 2 (secsOfDay % 60) ++ " GMT".toList

lemma checkedCentury_eq {l n r : ℕ} (hl : l < 2 ^ 57) (hn : 4 * l / 146097 = n)
    (hr : l - (146097 * n + 3) / 4 = r) : checkedCentury l = some (n, r) := by
  obtain ⟨-, -, -, hle⟩ := century_step hn hr
  unfold checkedCentury divCeil
  simp only [Option.bind_eq_bind]
  rw [checkedMul_of_lt (by omega), Option.bind_some, hn, checkedMul_of_lt (by omega),
    Option.bind_some, checkedSub_of_le hle, hr]
  rfl

lemma checkedYear_eq {r i s : ℕ} (hr : r ≤ 36524) (hi : 4000 * (r + 1) / 1461001 = i)
    (hs : r - 1461 * i / 4 = s) : checkedYear r = some (i, s + 31) := by
  obtain ⟨hi_le, hle, -, -⟩ := year_step hr hi
  unfold checkedYear
  simp only [Option.bind_eq_bind]
  rw [checkedAdd_of_lt (by omega), Option.bind_some, checkedMul_of_lt (by omega), Option.bind_some,
    hi, checkedMul_of_lt (by omega), Option.bind_some, checkedSub_of_le hle, Option.bind_some, hs,
    checkedAdd_of_lt (by omega)]
  rfl

lemma checkedMonth_eq {s j : ℕ} (hs : s ≤ 365) (hj : 80 * (s + 31) / 2447 = j) :
    checkedMonth (s + 31) = some (j, s + 31 - 2447 * j / 80) := by
  obtain ⟨-, hj_le, hd, -, -⟩ := month_step hs hj
  unfold checkedMonth
  simp only [Option.bind_eq_bind]
  rw [checkedMul_of_lt (by omega), Option.bind_some, hj, checkedMul_of_lt (by omega),
    Option.bind_some, checkedSub_of_le hd.le]
  rfl

lemma checkedCivilDate_eq {days : ℕ} (h : days < 2 ^ 56) :
    checkedCivilDate days = some (civilDate days) := by
  unfold checkedCivilDate civilDate
  rw [checkedAdd_of_lt (show days + 68569 < 2 ^ 64 by omega), Option.bind_eq_bind,
    Option.bind_some, checkedAdd_of_lt (show days + 68569 + 2440588 < 2 ^ 64 by omega)]
  obtain ⟨l, hl⟩ : ∃ l, days + 68569 + 2440588 = l := ⟨_, rfl⟩
  obtain ⟨n, hn⟩ : ∃ n, 4 * l / 146097 = n := ⟨_, rfl⟩
  obtain ⟨r, hr⟩ : ∃ r, l - (146097 * n + 3) / 4 = r := ⟨_, rfl⟩
  obtain ⟨i, hi⟩ : ∃ i, 4000 * (r + 1) / 1461001 = i := ⟨_, rfl⟩
  obtain ⟨s, hs⟩ : ∃ s, r - 1461 * i / 4 = s := ⟨_, rfl⟩
  obtain ⟨j, hj⟩ : ∃ j, 80 * (s + 31) / 2447 = j := ⟨_, rfl⟩
  obtain ⟨hsum, hr_le, -, -⟩ := century_step hn hr
  have hs_le : s ≤ 365 := by omega
  have hl_lt : l < 2 ^ 57 := by omega
  have hm : checkedAdd j 2 = some (j + 2) := checkedAdd_of_lt (by omega)
  have hla : checkedMul 12 (j / 11) = some (12 * (j / 11)) := checkedMul_of_lt (by omega)
  have hlate : checkedSub n 49 = some (n - 49) := checkedSub_of_le (by omega)
  have hc : checkedMul 100 (n - 49) = some (100 * (n - 49)) := checkedMul_of_lt (by omega)
  have hy : checkedAdd (100 * (n - 49)) i = some (100 * (n - 49) + i) :=
    checkedAdd_of_lt (by omega)
  clear hsum
  rw [hl]
  simp only [hn, hr, hi, hs, hj, checkedCentury_eq hl_lt hn hr, checkedYear_eq hr_le hi hs,
    checkedMonth_eq hs_le hj, Option.bind_eq_bind, Option.bind_some, hm, hla, hlate,
    hc, hy]
  rw [checkedSub_of_le (by omega), Option.bind_some, checkedAdd_of_lt (by omega), Option.bind_some]
  rfl

lemma getElem?_eq_getD {names : List String} {k : ℕ} (h : k < names.length) :
    names[k]? = some (names.getD k "") := by
  simp [h]

/-- No operation of the printing wraps around, and no index is out of bounds. -/
lemma checkedFormat_eq {secs : ℕ} (h : secs < 2 ^ 64) :
    checkedFormat secs = some (formatHttpDate secs) := by
  have hd : secs / 86400 < 2 ^ 56 := by omega
  have hm : 1 ≤ (civilDate (secs / 86400)).month ∧ (civilDate (secs / 86400)).month ≤ 12 := by
    rw [civilDate_eq]
    exact ⟨Date.month_pos _, Date.month_le _⟩
  have hw : (secs / 86400 + 4) % 7 < weekdays.length := Nat.mod_lt _ (by decide)
  have hn : (civilDate (secs / 86400)).month - 1 < monthNames.length := by
    show _ < 12
    omega
  simp only [checkedFormat, Option.bind_eq_bind]
  rw [checkedAdd_of_lt (by omega), Option.bind_some, getElem?_eq_getD hw, Option.bind_some,
    checkedCivilDate_eq hd, Option.bind_some, checkedSub_of_le hm.1, Option.bind_some,
    getElem?_eq_getD hn]
  rfl

/-! ## There and back -/

/-- A number with zeros in front of it is still that number. -/
lemma numeral_padded (width n : ℕ) : Numeral (padded width n) n := (numeral_decimal n).zeros _

/-- The words of a date. -/
def dateWords (date : Date) (secsOfDay : ℕ) : List Str :=
  [(weekdayName date.weekday).toList ++ [','], padded 2 date.day,
    (monthNames.getD (date.month - 1) "").toList, padded 4 date.year,
    padded 2 (secsOfDay / 3600) ++ ':' :: padded 2 (secsOfDay % 3600 / 60) ++ ':' ::
      padded 2 (secsOfDay % 60), "GMT".toList]

lemma dateText_eq (date : Date) (secsOfDay : ℕ) :
    dateText date secsOfDay = [' '].intercalate (dateWords date secsOfDay) := by
  simp [dateText, dateWords]

/-- A word has characters, and none of them is white space. -/
def SolidWord (word : Str) : Prop := word ≠ [] ∧ ∀ c ∈ word, isWhitespace c = false

lemma solidWord_of_all {word : Str} (hne : word ≠ [])
    (h : (word.all fun c => !isWhitespace c) = true) : SolidWord word :=
  ⟨hne, fun c hc => by simpa using all_eq_true.mp h c hc⟩

lemma solidWord_padded (width n : ℕ) : SolidWord (padded width n) :=
  ⟨(numeral_padded width n).ne_nil,
    fun c hc => isWhitespace_of_isDigit ((numeral_padded width n).digits c hc)⟩

lemma solidWord_append_cons {a b : Str} {c : Char} (ha : SolidWord a) (hb : SolidWord b)
    (hc : isWhitespace c = false) : SolidWord (a ++ c :: b) := by
  refine ⟨append_ne_nil_of_left_ne_nil ha.1 _, ?_⟩
  simp only [forall_mem_append, forall_mem_cons]
  exact ⟨ha.2, hc, hb.2⟩

lemma solidWord_weekday (weekday : Weekday) :
    SolidWord ((weekdayName weekday).toList ++ [',']) := by
  cases weekday
  all_goals exact solidWord_of_all (by decide) rfl

lemma solidWord_month {k : ℕ} (hk : k < 12) : SolidWord (monthNames.getD k "").toList := by
  interval_cases k
  all_goals exact solidWord_of_all (by decide) rfl

lemma month_sub_lt (date : Date) : date.month - 1 < 12 := by
  have hle := date.month_le
  omega

lemma splitWhitespace_dateText (date : Date) (secsOfDay : ℕ) :
    splitWhitespace (dateText date secsOfDay) = dateWords date secsOfDay := by
  have hc : isWhitespace ':' = false := by decide
  have ht : SolidWord (padded 2 (secsOfDay / 3600) ++ ':' :: padded 2 (secsOfDay % 3600 / 60) ++
      ':' :: padded 2 (secsOfDay % 60)) :=
    solidWord_append_cons (solidWord_append_cons (solidWord_padded _ _) (solidWord_padded _ _) hc)
      (solidWord_padded _ _) hc
  rw [dateText_eq]
  apply splitWhitespace_intercalate
  simp only [dateWords, forall_mem_cons]
  exact ⟨solidWord_weekday _, solidWord_padded _ _, solidWord_month (month_sub_lt date),
    solidWord_padded _ _, ht, solidWord_of_all (by decide) rfl,
    fun _ h => absurd h not_mem_nil⟩

lemma parseU64_padded (width : ℕ) {n : ℕ} (hn : n < 2 ^ 64) :
    parseU64 (padded width n) = some (UInt64.ofNat n) := by
  rw [parseU64, (numeral_padded width n).parseUnsigned hn, Option.map_some]

lemma trimMatches_comma {text : Str} (h : ∀ c ∈ text, c.isDigit = true) :
    trimMatches ',' text = text := by
  have hne : ∀ c ∈ text, (c == ',') = false := by
    intro c hc
    rw [beq_eq_false_iff_ne]
    rintro rfl
    exact absurd (h ',' hc) (by decide)
  have hd : text.dropWhile (· == ',') = text := by
    rw [dropWhile_eq_self_iff]
    intro hp
    simp [hne _ (getElem_mem hp)]
  rw [trimMatches, hd, rdropWhile_eq_self_iff]
  intro hne'
  simp [hne _ (getLast_mem hne')]

lemma findIdx?_month {k : ℕ} (hk : k < 12) : (monthNames.findIdx? fun name =>
    eqIgnoreAsciiCase name.toList (monthNames.getD k "").toList) = some k := by
  interval_cases k
  all_goals decide

lemma splitOn_time (a b c : ℕ) : (padded 2 a ++ ':' :: padded 2 b ++ ':' :: padded 2 c).splitOn ':' =
    [padded 2 a, padded 2 b, padded 2 c] := by
  have hc : ∀ part ∈ [padded 2 a, padded 2 b, padded 2 c], ':' ∉ part := by
    have hd : ∀ n, ':' ∉ padded 2 n := fun n hm =>
      absurd ((numeral_padded 2 n).digits ':' hm) (by decide)
    simp only [forall_mem_cons]
    exact ⟨hd a, hd b, hd c, fun _ h => absurd h not_mem_nil⟩
  have hj : padded 2 a ++ ':' :: padded 2 b ++ ':' :: padded 2 c =
      [':'].intercalate [padded 2 a, padded 2 b, padded 2 c] := by
    simp
  rw [hj, splitOn_intercalate ':' hc (cons_ne_nil _ _)]

/-- The fields of a printed date are read back. -/
lemma dateFields_dateText {date : Date} {secsOfDay : ℕ} (hy : date.year < 2 ^ 64)
    (hs : secsOfDay < 86400) :
    dateFields (dateText date secsOfDay) = some
      { day := .ofNat date.day, month := date.month, year := .ofNat date.year
        hour := .ofNat (secsOfDay / 3600), min := .ofNat (secsOfDay % 3600 / 60)
        sec := .ofNat (secsOfDay % 60) } := by
  have hd : date.day < 2 ^ 64 := lt_of_le_of_lt date.day_le_31 (by decide)
  have hm : date.month - 1 + 1 = date.month := Nat.sub_add_cancel date.month_pos
  unfold dateFields
  rw [splitWhitespace_dateText]
  simp only [dateWords, length_cons, length_nil, tail_cons, if_true,
    trimMatches_comma (numeral_padded _ _).digits, findIdx?_month (month_sub_lt date),
    splitOn_time, Option.bind_eq_bind]
  rw [parseU64_padded 2 hd, parseU64_padded 4 hy, parseU64_padded 2 (by omega),
    Option.bind_some, parseU64_padded 2 (by omega), Option.bind_some, parseU64_padded 2 (by omega),
    Option.bind_some, hm]
  rfl

/-- The sums on the way to the Julian day are not much larger than it is. -/
lemma julianBound_le {month : ℕ} (hm : 1 ≤ month ∧ month ≤ 12) (day year : ℕ) :
    julianBound day month year ≤ 2 * julianNumber year month day + 64090 ∧
      year ≤ julianNumber year month day := by
  have hs : (14 - month) / 12 ≤ 1 := by omega
  unfold julianBound julianNumber marchNumber
  simp only
  generalize (14 - month) / 12 = a at hs ⊢
  obtain ⟨y, hy⟩ : ∃ y, y = year + 4800 - a := ⟨_, rfl⟩
  omega

/-- A printed date is read back. -/
lemma parseHttpDate_formatHttpDate {secs : ℕ} (h : secs < 2 ^ 64) :
    (parseHttpDate (formatHttpDate secs)).map UInt64.toNat = some secs := by
  obtain ⟨date, hd⟩ : ∃ date, date = Date.next^[secs / 86400] .epoch := ⟨_, rfl⟩
  have hj : julianNumber date.year date.month date.day = 2440588 + secs / 86400 := by
    rw [hd]
    exact Date.julianDay_iterate_next _ _
  obtain ⟨hb, hyear_le⟩ := julianBound_le ⟨date.month_pos, date.month_le⟩ date.day date.year
  have hy : date.year < 2 ^ 64 := by omega
  have hday : date.day < 2 ^ 64 := lt_of_le_of_lt date.day_le_31 (by decide)
  have hs : secs % 86400 < 86400 := Nat.mod_lt _ (by decide)
  have ht : ∀ {n : ℕ}, n < 2 ^ 64 → (UInt64.ofNat n).toNat = n := fun hn => by
    rw [UInt64.toNat_ofNat', Nat.mod_eq_of_lt hn]
  have hfi := dateFields_dateText hy hs
  rw [formatHttpDate_eq, ← hd]
  generalize hf : DateFields.mk _ _ _ _ _ _ = f at hfi
  have hfj : f.julian = 2440588 + secs / 86400 := by
    rw [← hf, DateFields.julian]
    simp only [ht hy, ht hday, hj]
  have hfs : f.seconds = secs := by
    rw [DateFields.seconds, hfj, ← hf, secondsOf]
    rw [ht (by omega), ht (by omega), ht (by omega)]
    omega
  have hr : f.InRange := by
    refine ⟨?_, fun _ => by rwa [hfs]⟩
    rw [← hf]
    simp only [ht hy, ht hday]
    omega
  rw [parseHttpDate_of_inRange hfi hr, DateFields.natural, hfs,
    if_neg (by omega)]

/-- **Dates round trip.**  For every time, the printed date is the one of the calendar with its day
of the week, nothing goes wrong on the way, and the time is read back from it. -/
theorem http_date_round_trip (s : UInt64) :
    parseHttpDate (formatHttpDate s.toNat) = some s ∧
      checkedFormat s.toNat = some (formatHttpDate s.toNat) ∧
      formatHttpDate s.toNat = dateText (Date.next^[s.toNat / 86400] .epoch) (s.toNat % 86400) := by
  have hlt : s.toNat < 2 ^ 64 := s.toNat_lt
  refine ⟨?_, checkedFormat_eq hlt, formatHttpDate_eq s.toNat⟩
  obtain ⟨time, htime, hvalue⟩ := Option.map_eq_some_iff.mp (parseHttpDate_formatHttpDate hlt)
  rw [htime, UInt64.toNat_inj.mp hvalue]

end Handler

end Veysrs
