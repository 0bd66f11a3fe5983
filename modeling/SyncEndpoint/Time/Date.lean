set_option autoImplicit false

/-! # Calendar dates

Dates of the proleptic Gregorian calendar and their count in days from 1970-01-01. Years are taken
to start in March, so that the leap day is the last one; four hundred such years make an era of
146097 days. -/

namespace SyncEndpoint

/-- A date: year, month from 1 and day from 1. -/
structure Date where
  year : Int
  month : Nat
  day : Nat
  deriving DecidableEq

namespace Date

/-- Whether a year has a leap day. -/
def isLeapYear (year : Int) : Bool :=
  year % 4 == 0 && (year % 100 != 0 || year % 400 == 0)

def daysInMonth (year : Int) (month : Nat) : Nat :=
  if month == 2 then (if isLeapYear year then 29 else 28)
  else if month == 4 || month == 6 || month == 9 || month == 11 then 30
  else 31

/-- Whether there is such a date. -/
def isValid (d : Date) : Bool :=
  1 ≤ d.month && d.month ≤ 12 && 1 ≤ d.day && d.day ≤ daysInMonth d.year d.month

def daysPerEra : Int := 146097

/-- Days from the first day of an era to 1970-01-01. -/
def epochOffset : Int := 719468

/-- The day within its year, counted from 0 at the first of March. -/
def dayOfYear (month day : Nat) : Nat :=
  (153 * ((month + 9) % 12) + 2) / 5 + (day - 1)

/-- The day within its era of a day of a year of the era. -/
def dayOfEra (yearOfEra dayOfYear : Nat) : Nat :=
  yearOfEra * 365 + yearOfEra / 4 - yearOfEra / 100 + dayOfYear

/-- Days from 1970-01-01 to a date; negative before. -/
def toDays (d : Date) : Int :=
  let year := if d.month ≤ 2 then d.year - 1 else d.year
  let era := year / 400
  let yearOfEra := (year % 400).toNat
  era * daysPerEra + dayOfEra yearOfEra (dayOfYear d.month d.day) - epochOffset

/-- The year of its era that a day of the era lies in. -/
def yearOfEra (day : Nat) : Nat :=
  (day - day / 1460 + day / 36524 - day / 146096) / 365

/-- The date that lies a number of days after 1970-01-01. -/
def ofDays (days : Int) : Date :=
  let shifted := days + epochOffset
  let era := shifted / daysPerEra
  let day := (shifted % daysPerEra).toNat
  let year := yearOfEra day
  let dayOfYear := day - dayOfEra year 0
  let monthFromMarch := (5 * dayOfYear + 2) / 153
  let month := if monthFromMarch < 10 then monthFromMarch + 3 else monthFromMarch - 9
  { year := era * 400 + year + (if month ≤ 2 then 1 else 0)
    month := month
    day := dayOfYear - (153 * monthFromMarch + 2) / 5 + 1 }

end Date

end SyncEndpoint
