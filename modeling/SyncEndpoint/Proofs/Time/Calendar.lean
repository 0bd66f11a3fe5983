import Mathlib.Data.Int.Basic
import SyncEndpoint.Time.Timestamp

set_option autoImplicit false

/-! # The calendar

Counting days forth and back: every number of days has a date (`isValid_ofDays`), which lies that
many days after the first one (`toDays_ofDays`), and later days have later dates (`before_ofDays`).
A day is seen as a day of a year that starts in March, which is a year of an era. -/

namespace SyncEndpoint.Date

/-! ## Years of an era -/

theorem yearOfEra_le {day day' : Nat} (h : day ≤ day') : yearOfEra day ≤ yearOfEra day' := by
  refine Nat.div_le_div_right ?_
  obtain ⟨more, rfl⟩ := Nat.exists_eq_add_of_le h
  have hquarter : (day + more) / 1460 ≤ day / 1460 + more := by omega
  have hcentury : (day + more) / 146096 - day / 146096 ≤
      (day + more) / 36524 - day / 36524 := by omega
  omega

/-- The first and the last day of a year lie in it. -/
theorem yearOfEra_ends : ∀ year < 400, yearOfEra (dayOfEra year 0) = year ∧
    yearOfEra (dayOfEra (year + 1) 0 - 1) = year := by
  decide +kernel

/-- The days of a year from March on, of which the leap day belongs to the next year. -/
def lastDayOfYear (year : Nat) : Nat :=
  if isLeapYear (year + 1) then 365 else 364

theorem dayOfEra_succ : ∀ year < 399,
    dayOfEra (year + 1) 0 = dayOfEra year 0 + lastDayOfYear year + 1 := by
  decide +kernel

theorem dayOfEra_eq (year dayOfYear : Nat) :
    dayOfEra year dayOfYear = dayOfEra year 0 + dayOfYear := rfl

theorem isLeapYear_add (era year : Int) : isLeapYear (era * 400 + year) = isLeapYear year := by
  have hmod : ∀ n : Int, n ∣ 400 → (era * 400 + year) % n = year % n := by
    rintro n ⟨k, hk⟩
    rw [hk, Int.mul_left_comm, Int.mul_add_emod_self_left]
  simp only [isLeapYear, hmod 4 (by decide), hmod 100 (by decide), hmod 400 (by decide)]

/-- A day of an era is a day of a year of the era. -/
theorem exists_dayOfEra {day : Nat} (h : day < 146097) : yearOfEra day < 400 ∧
    ∃ dayOfYear ≤ lastDayOfYear (yearOfEra day), day = dayOfEra (yearOfEra day) dayOfYear := by
  have hyear : yearOfEra day < 400 := by
    have hlast : yearOfEra day ≤ yearOfEra 146096 := yearOfEra_le (by omega)
    exact Nat.lt_of_le_of_lt hlast (by decide)
  have hstart : dayOfEra (yearOfEra day) 0 ≤ day := by
    by_contra hbefore
    -- The last day of the year before is not earlier, and lies in an earlier year.
    cases hprev : yearOfEra day with
    | zero => simp [hprev, dayOfEra] at hbefore
    | succ year =>
      rw [hprev] at hbefore
      have hle : yearOfEra day ≤ yearOfEra (dayOfEra (year + 1) 0 - 1) := yearOfEra_le (by omega)
      rw [(yearOfEra_ends year (by omega)).2] at hle
      omega
  have hend : day ≤ dayOfEra (yearOfEra day) 0 + lastDayOfYear (yearOfEra day) := by
    by_contra hafter
    rcases Nat.lt_or_ge (yearOfEra day) 399 with hinner | hlast
    · have hsucc := dayOfEra_succ _ hinner
      have hle : yearOfEra (dayOfEra (yearOfEra day + 1) 0) ≤ yearOfEra day := yearOfEra_le (by omega)
      rw [(yearOfEra_ends _ (by omega)).1] at hle
      omega
    · have heq : yearOfEra day = 399 := by omega
      have hera : dayOfEra 399 0 + lastDayOfYear 399 = 146096 := by decide
      rw [heq, hera] at hafter
      omega
  refine ⟨hyear, day - dayOfEra (yearOfEra day) 0, by omega, ?_⟩
  rw [dayOfEra_eq]
  omega

/-! ## Days of a year -/

/-- The month, counted from March on, that a day of a year lies in. -/
def monthFromMarch (dayOfYear : Nat) : Nat :=
  (5 * dayOfYear + 2) / 153

/-- The month that a day of a year lies in. -/
def monthOf (dayOfYear : Nat) : Nat :=
  if monthFromMarch dayOfYear < 10 then monthFromMarch dayOfYear + 3
  else monthFromMarch dayOfYear - 9

/-- The day of its month that a day of a year is. -/
def dayOf (dayOfYear : Nat) : Nat :=
  dayOfYear - (153 * monthFromMarch dayOfYear + 2) / 5 + 1

/-- The date of a day of a year of an era. -/
def ofEra (era : Int) (year dayOfYear : Nat) : Date where
  year := era * 400 + year + (if monthOf dayOfYear ≤ 2 then 1 else 0)
  month := monthOf dayOfYear
  day := dayOf dayOfYear

/-- A date is that of a day of a year of an era. -/
theorem exists_ofDays_eq (days : Int) : ∃ (era : Int) (year dayOfYear : Nat), year < 400 ∧
    dayOfYear ≤ lastDayOfYear year ∧
    days = era * daysPerEra + dayOfEra year dayOfYear - epochOffset ∧
    ofDays days = ofEra era year dayOfYear := by
  have hday : ((days + epochOffset) % daysPerEra).toNat < 146097 := by
    rw [daysPerEra]
    omega
  obtain ⟨hyear, dayOfYear, hlast, heq⟩ := exists_dayOfEra hday
  refine ⟨(days + epochOffset) / daysPerEra, _, dayOfYear, hyear, hlast, ?_, ?_⟩
  · rw [← heq, daysPerEra]
    omega
  · have hrest : ((days + epochOffset) % daysPerEra).toNat -
        dayOfEra (yearOfEra ((days + epochOffset) % daysPerEra).toNat) 0 = dayOfYear := by
      rw [dayOfEra_eq] at heq
      omega
    simp only [ofDays, hrest]
    rfl

/-- The months of a year have their days, and the leap day comes last in February. -/
theorem monthOf_dayOf : ∀ day < 366, 1 ≤ monthOf day ∧ monthOf day ≤ 12 ∧
    dayOf day ≤ daysInMonth (if day = 365 then 4 else 1) (monthOf day) ∧
    dayOfYear (monthOf day) (dayOf day) = day := by
  decide +kernel

theorem lt_of_le_lastDayOfYear {year day : Nat} (h : day ≤ lastDayOfYear year) : day < 366 := by
  rw [lastDayOfYear] at h
  split at h <;> omega

theorem daysInMonth_le {year year' : Int} {month : Nat}
    (h : month = 2 → isLeapYear year = true → isLeapYear year' = true) :
    daysInMonth year month ≤ daysInMonth year' month := by
  by_cases hfebruary : month = 2
  · cases hleap : isLeapYear year with
    | false =>
      have hshort : 28 ≤ if isLeapYear year' = true then 29 else 28 := by split <;> decide
      simpa [daysInMonth, hfebruary, hleap] using hshort
    | true => simp [daysInMonth, hfebruary, hleap, h hfebruary hleap]
  · simp [daysInMonth, hfebruary]

theorem daysInMonth_le_31 (year : Int) (month : Nat) : daysInMonth year month ≤ 31 := by
  rw [daysInMonth]
  split_ifs <;> decide

theorem isValid_ofEra {era : Int} {year day : Nat} (h : day ≤ lastDayOfYear year) :
    (ofEra era year day).isValid = true := by
  obtain ⟨hlow, hhigh, hday, -⟩ := monthOf_dayOf day (lt_of_le_lastDayOfYear h)
  have hfit : dayOf day ≤ daysInMonth (ofEra era year day).year (monthOf day) := by
    refine Nat.le_trans hday (daysInMonth_le fun hfebruary hleap => ?_)
    -- February belongs to the year of the calendar that begins before this year ends.
    have hyear : (ofEra era year day).year = era * 400 + (year + 1) := by
      simp only [ofEra, hfebruary]
      omega
    have hday : day = 365 := by
      by_contra hday
      rw [if_neg hday] at hleap
      exact absurd hleap (by decide)
    rw [hyear, isLeapYear_add]
    by_contra hcommon
    rw [lastDayOfYear, if_neg hcommon] at h
    omega
  have hfirst : 1 ≤ dayOf day := Nat.le_add_left _ _
  simp only [ofEra] at hfit
  simp [isValid, ofEra, hlow, hhigh, hfirst, hfit]

theorem toDays_ofEra (era : Int) {year day : Nat} (hyear : year < 400) (h : day < 366) :
    (ofEra era year day).toDays = era * daysPerEra + dayOfEra year day - epochOffset := by
  obtain ⟨-, -, -, hday⟩ := monthOf_dayOf day h
  have hmarch : (if (ofEra era year day).month ≤ 2 then (ofEra era year day).year - 1
      else (ofEra era year day).year) = era * 400 + year := by
    simp only [ofEra]
    split <;> omega
  have hera : (era * 400 + year) / 400 = era := by omega
  have hyearOfEra : ((era * 400 + year) % 400).toNat = year := by omega
  rw [toDays, hmarch]
  simp only [hera, hyearOfEra]
  rw [show dayOfYear (ofEra era year day).month (ofEra era year day).day = day from hday]

/-! ## Both ways -/

theorem toDays_ofDays (days : Int) : (ofDays days).toDays = days := by
  obtain ⟨era, year, day, hyear, hlast, heq, hof⟩ := exists_ofDays_eq days
  rw [hof, toDays_ofEra era hyear (lt_of_le_lastDayOfYear hlast), ← heq]

theorem isValid_ofDays (days : Int) : (ofDays days).isValid = true := by
  obtain ⟨era, year, day, -, hlast, -, hof⟩ := exists_ofDays_eq days
  rw [hof, isValid_ofEra hlast]

/-! ## Order -/

/-- One date lies before another one. -/
def Before (d d' : Date) : Prop :=
  d.year < d'.year ∨ d.year = d'.year ∧
    (d.month < d'.month ∨ d.month = d'.month ∧ d.day < d'.day)

theorem dayOfEra_lt {year day : Nat} (hyear : year < 400) (h : day ≤ lastDayOfYear year) :
    dayOfEra year day < 146097 := by
  have hall : ∀ year < 400, dayOfEra year 0 + lastDayOfYear year < 146097 := by decide +kernel
  have hlast := hall year hyear
  rw [dayOfEra_eq]
  omega

theorem dayOfEra_lt_dayOfEra {year year' day : Nat} (h : year < year') (hyear : year' < 400)
    (hday : day ≤ lastDayOfYear year) (day' : Nat) : dayOfEra year day < dayOfEra year' day' := by
  have hsucc := dayOfEra_succ year (by omega)
  have hle : dayOfEra (year + 1) 0 ≤ dayOfEra year' 0 := by
    obtain ⟨more, rfl⟩ := Nat.exists_eq_add_of_le (Nat.succ_le_of_lt h)
    clear hyear h
    induction more with
    | zero => exact Nat.le_refl _
    | succ more ih =>
      refine Nat.le_trans ih ?_
      simp only [dayOfEra]
      omega
  rw [dayOfEra_eq, dayOfEra_eq year']
  omega

/-- A later day of a year lies in a later month, or later in the same month. -/
theorem monthFromMarch_lt {day day' : Nat} (h : day < day') :
    monthFromMarch day < monthFromMarch day' ∨
      monthFromMarch day = monthFromMarch day' ∧ dayOf day < dayOf day' := by
  simp only [dayOf, monthFromMarch]
  omega

theorem monthOf_cases {day : Nat} (h : day < 366) :
    monthFromMarch day < 10 ∧ monthOf day = monthFromMarch day + 3 ∨
      10 ≤ monthFromMarch day ∧ monthOf day + 9 = monthFromMarch day ∧ monthOf day ≤ 2 := by
  have hmonth : monthFromMarch day ≤ 11 := by
    rw [monthFromMarch]
    omega
  rw [monthOf]
  split <;> omega

theorem before_ofEra {era era' : Int} {year year' day day' : Nat} (hday : day < 366)
    (hday' : day' < 366) (h : era * 400 + year < era' * 400 + year' ∨
      era * 400 + year = era' * 400 + year' ∧ day < day') :
    (ofEra era year day).Before (ofEra era' year' day') := by
  simp only [Before, ofEra]
  have hmonth := monthOf_cases hday
  have hmonth' := monthOf_cases hday'
  rcases h with hyears | ⟨hyears, hdays⟩
  · omega
  · have hmonths := monthFromMarch_lt hdays
    omega

/-- Later days have later dates. -/
theorem before_ofDays {days days' : Int} (h : days < days') : (ofDays days).Before (ofDays days') := by
  obtain ⟨era, year, day, hyear, hlast, heq, hof⟩ := exists_ofDays_eq days
  obtain ⟨era', year', day', hyear', hlast', heq', hof'⟩ := exists_ofDays_eq days'
  rw [hof, hof']
  have hera := dayOfEra_lt hyear hlast
  have hera' := dayOfEra_lt hyear' hlast'
  refine before_ofEra (lt_of_le_lastDayOfYear hlast) (lt_of_le_lastDayOfYear hlast') ?_
  rw [daysPerEra] at heq heq'
  rcases Int.lt_trichotomy era era' with hlt | heras | hgt
  · omega
  · rcases Nat.lt_trichotomy year year' with hlt | hyears | hgt
    · omega
    · rw [dayOfEra_eq, hyears] at heq
      rw [dayOfEra_eq] at heq'
      omega
    · have hlater := dayOfEra_lt_dayOfEra hgt hyear hlast' day
      omega
  · omega

end SyncEndpoint.Date
