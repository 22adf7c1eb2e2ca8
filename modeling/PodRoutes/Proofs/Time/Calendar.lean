import PodRoutes.Time.Calendar

/-!
# Days and dates

Every day has a date, and the date has that day (`daysOfDate_dateOfDays`). Of a day one takes the
era of four hundred years, the year in the era and the day in the year, years running from March;
`exists_march` says that these make up the day again, and that a year with a leap day is one that
is followed by a leap year.
-/

namespace PodRoutes.Calendar

/-! ### The year of a day -/

/-- The year of its era in which a day lies, years running from March. -/
def yearIn (dayOfEra : Int) : Int :=
  (dayOfEra - dayOfEra / 1460 + dayOfEra / 36524 - dayOfEra / 146096) / 365

/-- The days of an era before one of its years. -/
def daysBefore (yearOfEra : Int) : Int := 365 * yearOfEra + yearOfEra / 4 - yearOfEra / 100

variable {d : Int}

theorem yearIn_bounds (h0 : 0 ≤ d) (h1 : d < 146097) : 0 ≤ yearIn d ∧ yearIn d < 400 := by
  rw [yearIn]
  omega

/-- The century of a day is that of its year, except that the last day of an era is still in the
fourth century. -/
theorem yearIn_div_hundred (h0 : 0 ≤ d) (h1 : d < 146096) : yearIn d / 100 = d / 36524 := by
  have hlast : d / 146096 = 0 := by omega
  have hcases : d / 36524 = 0 ∨ d / 36524 = 1 ∨ d / 36524 = 2 ∨ d / 36524 = 3 := by omega
  rw [yearIn, hlast]
  rcases hcases with h | h | h | h
  · omega
  · omega
  · omega
  · omega

theorem daysBefore_yearIn (h0 : 0 ≤ d) (h1 : d < 146097) :
    daysBefore (yearIn d) ≤ d ∧ d ≤ daysBefore (yearIn d) + 365 := by
  by_cases hd : d = 146096
  · subst hd
    decide
  have hcentury := yearIn_div_hundred h0 (by omega)
  have hlast : d / 146096 = 0 := by omega
  have hyear : yearIn d = (d - d / 1460 + d / 36524) / 365 := by rw [yearIn, hlast, Int.sub_zero]
  rw [daysBefore, hcentury]
  have hfour : yearIn d / 4 ≤ d / 1460 ∧ d / 1460 ≤ yearIn d / 4 + 1 := by omega
  omega

/-- Only a year before a leap year has a day more. -/
theorem leap_of_last (h0 : 0 ≤ d) (h1 : d < 146097) (hlast : d = daysBefore (yearIn d) + 365) :
    (yearIn d + 1) % 4 = 0 ∧ ((yearIn d + 1) % 100 ≠ 0 ∨ (yearIn d + 1) % 400 = 0) := by
  by_cases hd : d = 146096
  · subst hd
    decide
  have hcentury := yearIn_div_hundred h0 (by omega)
  have hera : d / 146096 = 0 := by omega
  have hyear : yearIn d = (d - d / 1460 + d / 36524) / 365 := by rw [yearIn, hera, Int.sub_zero]
  have hbounds := yearIn_bounds h0 h1
  rw [daysBefore, hcentury] at hlast
  have hfour : d / 1460 = yearIn d / 4 + 1 := by omega
  have hrest : yearIn d % 4 = 3 := by omega
  -- the last year of a century has no such day
  have hnot : yearIn d % 100 ≠ 99 := by omega
  omega

/-! ### Dates -/

/-- The date of a day in a year that runs from March. -/
def ofMarch (year dayOfYear : Int) : Int × Nat × Nat :=
  let monthFromMarch := (5 * dayOfYear + 2) / 153
  let day := dayOfYear - (153 * monthFromMarch + 2) / 5 + 1
  let month := if monthFromMarch < 10 then monthFromMarch + 3 else monthFromMarch - 9
  (if month ≤ 2 then year + 1 else year, month.toNat, day.toNat)

theorem exists_march (days : Int) : ∃ era year dayOfYear : Int, 0 ≤ year ∧ year < 400 ∧
    0 ≤ dayOfYear ∧ dayOfYear ≤ 365 ∧
    (dayOfYear = 365 → isLeap (year + era * 400 + 1) = true) ∧
    days = era * 146097 + daysBefore year + dayOfYear - 719468 ∧
    dateOfDays days = ofMarch (year + era * 400) dayOfYear := by
  let era := (days + 719468) / 146097
  let d := days + 719468 - era * 146097
  have h0 : 0 ≤ d := by omega
  have h1 : d < 146097 := by omega
  obtain ⟨hlow, hhigh⟩ := yearIn_bounds h0 h1
  obtain ⟨hfirst, hlast⟩ := daysBefore_yearIn h0 h1
  refine ⟨era, yearIn d, d - daysBefore (yearIn d), hlow, hhigh, by omega, by omega, ?_, by omega,
    ?_⟩
  · intro hleap
    have hyear := leap_of_last h0 h1 (by omega)
    simp only [isLeap, decide_not, Bool.and_eq_true, Bool.or_eq_true, Bool.not_eq_true',
      decide_eq_true_eq, decide_eq_false_iff_not]
    omega
  · rw [dateOfDays, Int.fdiv_eq_ediv_of_nonneg _ (by decide)]
    rfl

variable {year dayOfYear : Int}

theorem ofMarch_month (h0 : 0 ≤ dayOfYear) (h1 : dayOfYear ≤ 365) :
    1 ≤ (ofMarch year dayOfYear).2.1 ∧ (ofMarch year dayOfYear).2.1 ≤ 12 := by
  simp only [ofMarch]
  split <;> omega

theorem daysInMonth_of_ne_two {month : Nat} (h : month ≠ 2) (year : Int) :
    daysInMonth year month =
      if month = 4 ∨ month = 6 ∨ month = 9 ∨ month = 11 then 30 else 31 := if_neg h

theorem daysInMonth_le (year : Int) (month : Nat) : daysInMonth year month ≤ 31 := by
  rw [daysInMonth]
  repeat' split
  all_goals decide

theorem ofMarch_day (h0 : 0 ≤ dayOfYear) (h1 : dayOfYear ≤ 365)
    (hleap : dayOfYear = 365 → isLeap (year + 1) = true) :
    1 ≤ (ofMarch year dayOfYear).2.2 ∧ (ofMarch year dayOfYear).2.2 ≤
      daysInMonth (ofMarch year dayOfYear).1 (ofMarch year dayOfYear).2.1 := by
  let month := (5 * dayOfYear + 2) / 153
  have hmonth : (5 * dayOfYear + 2) / 153 = month := rfl
  simp only [ofMarch, hmonth]
  refine ⟨by omega, ?_⟩
  by_cases hlate : month < 10
  · rw [if_pos hlate, daysInMonth_of_ne_two (by omega)]
    split
    · omega
    · omega
  rw [if_neg hlate]
  by_cases hjanuary : month = 10
  · rw [hjanuary]
    change _ ≤ 31
    omega
  · have hfebruary : month = 11 := by omega
    simp only [hfebruary, daysInMonth, Int.reduceSub, Int.reduceToNat, if_true, Int.le_refl]
    split
    · omega
    · have hshort : dayOfYear ≠ 365 := fun h => absurd (hleap h) ‹_›
      omega

theorem daysOfDate_ofMarch {era year : Int} (hlow : 0 ≤ year) (hhigh : year < 400)
    (h0 : 0 ≤ dayOfYear) (h1 : dayOfYear ≤ 365) :
    daysOfDate (ofMarch (year + era * 400) dayOfYear).1 (ofMarch (year + era * 400) dayOfYear).2.1
        (ofMarch (year + era * 400) dayOfYear).2.2 =
      era * 146097 + daysBefore year + dayOfYear - 719468 := by
  let month := (5 * dayOfYear + 2) / 153
  have hmonth : (5 * dayOfYear + 2) / 153 = month := rfl
  have hera : (year + era * 400) / 400 = era := by omega
  simp only [daysOfDate, ofMarch, hmonth, daysBefore, Int.fdiv_eq_ediv_of_nonneg _
    (show (0 : Int) ≤ 400 by decide)]
  by_cases hlate : month < 10
  · have hnot : ¬(month + 3 ≤ 2) := by omega
    have hnat : ¬((month + 3).toNat ≤ 2) := by omega
    simp only [hlate, if_true, hnot, if_false, hnat, hera]
    omega
  · have hyes : month - 9 ≤ 2 := by omega
    have hnat : (month - 9).toNat ≤ 2 := by omega
    have hyear : year + era * 400 + 1 - 1 = year + era * 400 := by omega
    simp only [hlate, if_false, hyes, if_true, hnat, hyear, hera]
    omega

theorem daysOfDate_dateOfDays (days : Int) :
    daysOfDate (dateOfDays days).1 (dateOfDays days).2.1 (dateOfDays days).2.2 = days := by
  obtain ⟨era, year, dayOfYear, hlow, hhigh, h0, h1, -, hdays, hdate⟩ := exists_march days
  rw [hdate, daysOfDate_ofMarch hlow hhigh h0 h1, ← hdays]

theorem dateOfDays_month (days : Int) :
    1 ≤ (dateOfDays days).2.1 ∧ (dateOfDays days).2.1 ≤ 12 := by
  obtain ⟨era, year, dayOfYear, -, -, h0, h1, -, -, hdate⟩ := exists_march days
  rw [hdate]
  exact ofMarch_month h0 h1

theorem dateOfDays_day (days : Int) : 1 ≤ (dateOfDays days).2.2 ∧
    (dateOfDays days).2.2 ≤ daysInMonth (dateOfDays days).1 (dateOfDays days).2.1 := by
  obtain ⟨era, year, dayOfYear, -, -, h0, h1, hleap, -, hdate⟩ := exists_march days
  rw [hdate]
  exact ofMarch_day h0 h1 hleap

/-- The days that are kept are those of the years that dates are kept for. -/
theorem dateOfDays_year {days : Int} (h : isKeptDay days = true) :
    firstYear ≤ (dateOfDays days).1 ∧ (dateOfDays days).1 ≤ lastYear := by
  obtain ⟨era, year, dayOfYear, hlow, hhigh, h0, h1, -, hdays, hdate⟩ := exists_march days
  have hfirst : daysOfDate firstYear 1 1 = -96465292 := by decide
  have hlast : daysOfDate lastYear 12 31 = 95026236 := by decide
  simp only [isKeptDay, hfirst, hlast, Bool.and_eq_true, decide_eq_true_eq] at h
  rw [daysBefore] at hdays
  rw [hdate]
  simp only [ofMarch, firstYear, lastYear]
  by_cases hlate : (5 * dayOfYear + 2) / 153 < 10
  · rw [if_pos hlate, if_neg (by omega)]
    omega
  · rw [if_neg hlate, if_pos (by omega)]
    have hera : era ≤ 655 := by omega
    have hyear : era = 655 → year < 142 := by omega
    omega

end PodRoutes.Calendar
