import Mathlib
import Waitprims.Core.Rfc3339

/-! # The calendar of the timestamps

The proleptic Gregorian calendar by counting: a year has 366 days if it is a leap year, a month has
the days of its month, and a date is as many days after the first of year 0 as lie between. The two
conversions between dates and day numbers, which count from March in eras of four hundred years,
agree with it and undo each other.

* **`daysBefore`** — the days before a date, one year and one month after the other.
* **`daysFromCivil_eq`** — the day number of a date is that count.
* **`civilFromDays_spec`** — the date of a day number is a valid one, and has that number.
* **`year_bounds`** — which day numbers have a year of four digits. -/

namespace Waitprims

namespace Calendar

/-! ## Counting days -/

/-- The days of a year. -/
def daysInYear (year : Nat) : Nat := if isLeapYear year then 366 else 365

/-- The days before a date, from the first of year 0. -/
def daysBefore (year month day : Nat) : Nat :=
  ∑ y ∈ Finset.range year, daysInYear y + ∑ m ∈ Finset.Ico 1 month, daysInMonth year m + (day - 1)

/-- A valid calendar date. -/
def ValidDate (year : Int) (month day : Nat) : Prop :=
  (1 ≤ month ∧ month ≤ 12) ∧ 1 ≤ day ∧ day ≤ daysInMonth year month

instance (year : Int) (month day : Nat) : Decidable (ValidDate year month day) :=
  inferInstanceAs (Decidable (_ ∧ _))

/-- Whether a year is a leap year, in quotients. -/
theorem isLeapYear_iff (year : Int) :
    isLeapYear year = true ↔ year % 4 = 0 ∧ (year % 100 ≠ 0 ∨ year % 400 = 0) := by
  simp [isLeapYear]

/-- The days of the years before one. -/
theorem sum_daysInYear (year : Nat) :
    ∑ y ∈ Finset.range year, daysInYear y
      = 365 * year + (year + 3) / 4 - (year + 99) / 100 + (year + 399) / 400 := by
  induction year with
  | zero => rfl
  | succ year ih =>
    rw [Finset.sum_range_succ, ih]
    unfold daysInYear
    by_cases hleap : isLeapYear year = true
    · rw [if_pos hleap]
      rw [isLeapYear_iff] at hleap
      omega
    · rw [if_neg hleap]
      rw [isLeapYear_iff] at hleap
      omega

/-- February has a day more in a leap year. -/
theorem daysInMonth_two (year : Int) :
    daysInMonth year 2 = if isLeapYear year then 29 else 28 := rfl

/-- A month has 31 days at most. -/
theorem daysInMonth_le (year : Int) (month : Nat) : daysInMonth year month ≤ 31 := by
  unfold daysInMonth
  split
  all_goals first | omega | (split <;> omega)

/-- A date of no month is not valid. -/
theorem month_of_day {year : Int} {month day : Nat} (h : 1 ≤ day ∧ day ≤ daysInMonth year month) :
    ValidDate year month day := by
  refine ⟨?_, h⟩
  by_contra hout
  have hzero : daysInMonth year month = 0 := by
    unfold daysInMonth
    split
    all_goals first | rfl | omega
  omega

/-- **The day number of a date is the count of the days before it**, taken from 1970-01-01. -/
theorem daysFromCivil_eq {year month day : Nat} (h : ValidDate year month day) :
    daysFromCivil year month day = daysBefore year month day - 719528 := by
  obtain ⟨⟨hlow, hhigh⟩, hday, _⟩ := h
  have hmonths : ((∑ m ∈ Finset.Ico 1 month, daysInMonth year m : ℕ) : Int)
      = (if month ≤ 2 then 31 * (month - 1 : Int)
        else (153 * (month - 3 : Int) + 2) / 5 + 31 + daysInMonth year 2) := by
    interval_cases month
    all_goals simp [Finset.sum_Ico_eq_sum_range, Finset.sum_range_succ, daysInMonth]
    all_goals omega
  unfold daysBefore daysFromCivil
  dsimp only
  rw [Nat.cast_add, Nat.cast_add, hmonths, sum_daysInYear, daysInMonth_two]
  clear hmonths
  rcases Nat.lt_or_ge 2 month with hspring | hwinter
  · -- from March on the leap day of the year is behind
    rw [if_neg (by omega), if_neg (by omega)]
    by_cases hleap : isLeapYear year = true
    · rw [if_pos hleap]
      rw [isLeapYear_iff] at hleap
      omega
    · rw [if_neg hleap]
      rw [isLeapYear_iff] at hleap
      omega
  · rw [if_pos (by omega), if_pos (by omega)]
    omega

/-! ## The date of a day number -/

/-- The days of an era: its century, the four years in the century, the year in these, the day. -/
theorem era_parts {day : Int} (h : 0 ≤ day ∧ day < 146097) :
    ∃ b q y s, (0 ≤ b ∧ b ≤ 3) ∧ (0 ≤ q ∧ q ≤ 24) ∧ (0 ≤ y ∧ y ≤ 3) ∧ (0 ≤ s ∧ s ≤ 365) ∧
      (s = 365 → y = 3 ∧ (q = 24 → b = 3)) ∧ day = 36524 * b + 1461 * q + 365 * y + s := by
  let b := min (day / 36524) 3
  let r := day - 36524 * b
  let y := min (r % 1461 / 365) 3
  refine ⟨b, r / 1461, y, r % 1461 - 365 * y, ?_⟩
  omega

/-- The year of the era a day is in. -/
theorem yearOfEra_eq {day b q y s : Int} (hb : 0 ≤ b ∧ b ≤ 3) (hq : 0 ≤ q ∧ q ≤ 24)
    (hy : 0 ≤ y ∧ y ≤ 3) (hs : 0 ≤ s ∧ s ≤ 365) (hlast : s = 365 → y = 3 ∧ (q = 24 → b = 3))
    (hday : day = 36524 * b + 1461 * q + 365 * y + s) :
    (day - day / 1460 + day / 36524 - day / 146096) / 365 = 100 * b + 4 * q + y := by
  by_cases hend : day = 146096
  · obtain ⟨rfl, rfl, rfl⟩ : b = 3 ∧ q = 24 ∧ y = 3 := by omega
    rw [hend]
    decide
  · have hcentury : day / 36524 = b := by omega
    have hera : day / 146096 = 0 := by omega
    rw [hcentury, hera]
    -- each four years have a day more than 1460
    by_cases hshort : 24 * b + q + 365 * y + s < 1460
    · have hdays : day / 1460 = 25 * b + q := by omega
      rw [hdays]
      omega
    · have hdays : day / 1460 = 25 * b + q + 1 := by omega
      rw [hdays]
      omega

/-- The year of an era, by its parts. -/
theorem quotients_of_parts {b q y yearOfEra : Int} (hb : 0 ≤ b ∧ b ≤ 3) (hq : 0 ≤ q ∧ q ≤ 24)
    (hy : 0 ≤ y ∧ y ≤ 3) (h : yearOfEra = 100 * b + 4 * q + y) :
    (0 ≤ yearOfEra ∧ yearOfEra < 400) ∧ yearOfEra / 4 = 25 * b + q ∧ yearOfEra / 100 = b := by
  omega

/-- The year behind a last day of February is a leap year. -/
theorem isLeapYear_of_parts {b q year era : Int} (hq : 0 ≤ q ∧ q ≤ 24)
    (hcentury : q = 24 → b = 3) (h : year - 1 = 100 * b + 4 * q + 3 + era * 400) :
    isLeapYear year = true := by
  rw [isLeapYear_iff]
  omega

/-- **A day number in its era**: the year of the era and the day of that year, as they are computed
and as they count, with a day 365 only at the end of a leap year's February. -/
theorem era_spec {era dayOfEra : Int} (h : 0 ≤ dayOfEra ∧ dayOfEra < 146097) :
    ∃ yearOfEra s, (0 ≤ yearOfEra ∧ yearOfEra < 400) ∧ (0 ≤ s ∧ s ≤ 365) ∧
      (dayOfEra - dayOfEra / 1460 + dayOfEra / 36524 - dayOfEra / 146096) / 365 = yearOfEra ∧
      dayOfEra = 365 * yearOfEra + yearOfEra / 4 - yearOfEra / 100 + s ∧
      (s = 365 → ∀ year, year - 1 = yearOfEra + era * 400 → isLeapYear year = true) := by
  obtain ⟨b, q, y, s, hb, hq, hy, hs, hlast, hparts⟩ := era_parts h
  have hyear := yearOfEra_eq hb hq hy hs hlast hparts
  obtain ⟨hrange, hquarter, hcentury⟩ := quotients_of_parts hb hq hy (Eq.refl _)
  refine ⟨100 * b + 4 * q + y, s, hrange, hs, hyear, ?_, ?_⟩
  · rw [hquarter, hcentury, hparts]
    ring
  · intro hend year hnext
    obtain ⟨rfl, hq24⟩ := hlast hend
    exact isLeapYear_of_parts hq hq24 hnext

/-- A date of the year that starts in March: the month and the day in it of a day of that year. -/
theorem march_date {s m d : Int} (hs : 0 ≤ s ∧ s ≤ 365) (hm : m = (5 * s + 2) / 153)
    (hd : d = s - (153 * m + 2) / 5 + 1) :
    (0 ≤ m ∧ m ≤ 11) ∧ 1 ≤ d ∧ (153 * m + 2) / 5 + d - 1 = s ∧
      (m = 11 → d ≤ 29 ∧ (d = 29 → s = 365)) ∧ d ≤ 31 ∧
      (m = 1 ∨ m = 3 ∨ m = 6 ∨ m = 8 → d ≤ 30) := by
  omega

/-- The number of a month of the year that starts in March. -/
def marchMonth (m : Int) : Nat := (if m < 10 then m + 3 else m - 9).toNat

/-- Its number there. -/
theorem marchMonth_back {m : Int} (h : 0 ≤ m ∧ m ≤ 11) : ((marchMonth m : Int) + 9) % 12 = m := by
  unfold marchMonth
  split <;> omega

/-- January and February are the last months. -/
theorem marchMonth_le_two {m : Int} (h : 0 ≤ m ∧ m ≤ 11) : marchMonth m ≤ 2 ↔ ¬ m < 10 := by
  unfold marchMonth
  split <;> omega

/-- The days of the months, from March on. -/
theorem le_daysInMonth {m d year : Int} (hm : 0 ≤ m ∧ m ≤ 11) (hlong : d ≤ 31)
    (hshort : m = 1 ∨ m = 3 ∨ m = 6 ∨ m = 8 → d ≤ 30)
    (hfeb : m = 11 → d ≤ 29 ∧ (d = 29 → isLeapYear year = true)) :
    d.toNat ≤ daysInMonth year (marchMonth m) := by
  obtain ⟨hlow, hhigh⟩ := hm
  rcases eq_or_ne m 11 with rfl | hne
  · obtain ⟨hle, hleap⟩ := hfeb rfl
    show d.toNat ≤ if isLeapYear year then 29 else 28
    split
    · omega
    · next hno =>
      have hlt : d ≠ 29 := fun heq => hno (hleap heq)
      omega
  · interval_cases m
    all_goals
      simp only [marchMonth, daysInMonth, Int.reduceLT, Int.reduceAdd, Int.reduceSub, if_true,
        if_false, Int.reduceToNat]
      omega

/-- A day of an era that starts in March, by its year and the day of that year. -/
theorem daysFromCivil_march {era yearOfEra : Int} (h : 0 ≤ yearOfEra ∧ yearOfEra < 400)
    {year : Int} {month day : Nat}
    (hyear : (if month ≤ 2 then year - 1 else year) = yearOfEra + era * 400) :
    daysFromCivil year month day = era * 146097 + (yearOfEra * 365 + yearOfEra / 4
      - yearOfEra / 100 + ((153 * ((month + 9) % 12 : Int) + 2) / 5 + day - 1)) - 719468 := by
  have hera : (yearOfEra + era * 400) / 400 = era := by omega
  unfold daysFromCivil
  dsimp only
  rw [hyear, hera, Int.add_sub_cancel]

/-- **The date of a day number** is a valid one, and has that number. -/
theorem civilFromDays_spec {days year : Int} {month day : Nat}
    (h : civilFromDays days = (year, month, day)) :
    ValidDate year month day ∧ daysFromCivil year month day = days := by
  obtain ⟨era, hera⟩ : ∃ era, era = (days + 719468) / 146097 := ⟨_, rfl⟩
  obtain ⟨dayOfEra, hdayOfEra⟩ : ∃ d, d = days + 719468 - era * 146097 := ⟨_, rfl⟩
  obtain ⟨yearOfEra, s, hrange, hs, hyearOfEra, hparts, hleap⟩ :=
    @era_spec era dayOfEra (by omega)
  have hdayOfYear : dayOfEra - (365 * yearOfEra + yearOfEra / 4 - yearOfEra / 100) = s := by
    rw [hparts]
    ring
  obtain ⟨m, hmonth⟩ : ∃ m, m = (5 * s + 2) / 153 := ⟨_, rfl⟩
  obtain ⟨d, hday⟩ : ∃ d, d = s - (153 * m + 2) / 5 + 1 := ⟨_, rfl⟩
  obtain ⟨hm, hone, hback, hfeb, hlong, hshort⟩ := march_date hs hmonth hday
  unfold civilFromDays at h
  dsimp only at h
  rw [← hera, ← hdayOfEra, hyearOfEra, hdayOfYear, ← hmonth, ← hday, Prod.mk.injEq,
    Prod.mk.injEq] at h
  obtain ⟨hyear, hmonth', rfl⟩ := h
  obtain rfl : marchMonth m = month := hmonth'
  have hmarch : (if marchMonth m ≤ 2 then year - 1 else year) = yearOfEra + era * 400 := by
    rw [← hyear]
    by_cases hspring : m < 10
    · have hlate : ¬ m + 3 ≤ 2 := by linarith [hm.1]
      rw [if_neg (by rw [marchMonth_le_two hm]; simpa using hspring), if_pos hspring,
        if_neg hlate, Int.add_zero]
    · have hearly : m - 9 ≤ 2 := by linarith [hm.2]
      rw [if_pos ((marchMonth_le_two hm).mpr hspring), if_neg hspring, if_pos hearly,
        Int.add_sub_cancel]
  have hone' : 1 ≤ d.toNat := by
    clear hback hfeb hlong hshort hparts hyearOfEra hdayOfYear hmonth hday
    omega
  refine ⟨month_of_day ⟨hone', le_daysInMonth hm hlong hshort ?_⟩, ?_⟩
  · intro heleven
    obtain ⟨hle, hlastDay⟩ := hfeb heleven
    refine ⟨hle, fun heq => hleap (hlastDay heq) year ?_⟩
    rwa [if_pos ((marchMonth_le_two hm).mpr (by rw [heleven]; decide))] at hmarch
  · have hdays : days = era * 146097 + dayOfEra - 719468 := by
      rw [hdayOfEra]
      ring
    rw [daysFromCivil_march hrange hmarch, marchMonth_back hm, hdays, hparts,
      Int.toNat_of_nonneg (by linarith), hback]
    ring

/-- **The years of four digits** have the day numbers from the first of year 0 to the last of
9999. -/
theorem year_bounds {year : Int} {month day : Nat} (h : ValidDate year month day) :
    (0 ≤ year ↔ -719528 ≤ daysFromCivil year month day) ∧
      (year ≤ 9999 ↔ daysFromCivil year month day ≤ 2932896) := by
  obtain ⟨⟨hlow, hhigh⟩, hone, hday⟩ := h
  have hlong := daysInMonth_le year month
  obtain ⟨dayOfYear, hdayOfYear, hspring, hwinter⟩ : ∃ d : Int,
      (153 * ((month + 9) % 12 : Nat) + 2) / 5 + day - 1 = d ∧
        (2 < month → 0 ≤ d ∧ d ≤ 305) ∧ (month ≤ 2 → 306 ≤ d ∧ d ≤ 367) := by
    refine ⟨_, rfl, ?_⟩
    interval_cases month <;> omega
  unfold daysFromCivil
  dsimp only
  rw [show ((153 * ((month + 9) % 12) + 2) / 5 + day - 1 : Int) = dayOfYear by
    rw [← hdayOfYear]; push_cast; rfl]
  clear hdayOfYear hday hlong
  rcases Nat.lt_or_ge 2 month with hmonth | hmonth
  · have hdays := hspring hmonth
    rw [if_neg (by omega)]
    omega
  · have hdays := hwinter hmonth
    rw [if_pos (by omega)]
    omega

end Calendar

end Waitprims
