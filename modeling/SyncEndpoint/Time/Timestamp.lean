import SyncEndpoint.Time.Date
import SyncEndpoint.Text.Basic

set_option autoImplicit false

/-! # Points in time

A point in time counts seconds from 1970-01-01T00:00:00Z and nanoseconds within the second. A
leap second is written as nanoseconds past the first billion of the second before it. Times that are
made from numbers or read from a text have leap seconds at the end of a minute only. Times lie in
the years -262143 to 262142. -/

namespace SyncEndpoint

/-- A point in time, in UTC. -/
structure Timestamp where
  seconds : Int
  nanoseconds : Nat
  deriving DecidableEq

namespace Timestamp

def secondsPerDay : Int := 86400
def nanosPerSecond : Nat := 1000000000

/-- The first and the last day that a time may lie in. -/
def firstDay : Int := Date.toDays ⟨-262143, 1, 1⟩
def lastDay : Int := Date.toDays ⟨262142, 12, 31⟩

/-- Whether there is such a time: any second can have a leap second after it. -/
def inRange (t : Timestamp) : Bool :=
  firstDay ≤ t.seconds / secondsPerDay && t.seconds / secondsPerDay ≤ lastDay &&
    t.nanoseconds < 2 * nanosPerSecond

/-- Whether a time can be made from its seconds and nanoseconds. -/
def isValid (t : Timestamp) : Bool :=
  t.inRange && (t.nanoseconds < nanosPerSecond || t.seconds % 60 == 59)

/-- The time of some seconds and nanoseconds, if it can be made. -/
def make? (seconds : Int) (nanoseconds : Nat) : Option Timestamp :=
  let t : Timestamp := ⟨seconds, nanoseconds⟩
  if t.isValid then some t else none

/-! ## Calendar fields -/

def date (t : Timestamp) : Date :=
  Date.ofDays (t.seconds / secondsPerDay)

/-- The second within the day. -/
def secondOfDay (t : Timestamp) : Nat :=
  (t.seconds % secondsPerDay).toNat

def hour (t : Timestamp) : Nat := t.secondOfDay / 3600
def minute (t : Timestamp) : Nat := t.secondOfDay / 60 % 60

/-- The second within the minute. A leap second is shown as the one that would follow: as the
second 60 at the end of a minute. -/
def second (t : Timestamp) : Nat :=
  t.secondOfDay % 60 + (if t.nanoseconds < nanosPerSecond then 0 else 1)

/-- The nanoseconds within the second that is shown. -/
def fraction (t : Timestamp) : Nat :=
  t.nanoseconds % nanosPerSecond

/-! ## Text -/

/-- A year: four digits, or a sign and at least four digits outside of 0 to 9999. -/
def yearText (year : Int) : String :=
  if 0 ≤ year ∧ year ≤ 9999 then Text.padded 4 year.toNat
  else (if year < 0 then "-" else "+") ++ Text.padded 4 year.natAbs

/-- Date and time of day to the second. -/
def secondText (t : Timestamp) : String :=
  yearText t.date.year ++ "-" ++ Text.padded 2 t.date.month ++ "-" ++ Text.padded 2 t.date.day ++
    "T" ++ Text.padded 2 t.hour ++ ":" ++ Text.padded 2 t.minute ++ ":" ++ Text.padded 2 t.second

/-- The fraction of a second in the fewest of 0, 3, 6 and 9 digits that lose nothing. -/
def fractionText (fraction : Nat) : String :=
  if fraction = 0 then ""
  else if fraction % 1000000 = 0 then "." ++ Text.padded 3 (fraction / 1000000)
  else if fraction % 1000 = 0 then "." ++ Text.padded 6 (fraction / 1000)
  else "." ++ Text.padded 9 fraction

def toRfc3339 (t : Timestamp) : String :=
  t.secondText ++ fractionText t.fraction ++ "Z"

/-- The form with exactly three digits of the fraction, the rest cut off. -/
def toMillisText (t : Timestamp) : String :=
  t.secondText ++ "." ++ Text.padded 3 (t.fraction / 1000000) ++ "Z"

end Timestamp

end SyncEndpoint
