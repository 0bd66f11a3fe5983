import SyncEndpoint.Time.Timestamp

set_option autoImplicit false

/-! # Reading times

Reads RFC 3339 and more: blanks may stand before each number and around the separators of a date
and a time, a space or a small letter may stand between date and time, the year may have a sign and
then any number of digits, numbers may be short, the fraction may have any number of digits, of
which nine count, and the offset may lack its colon or be the name UTC. -/

namespace SyncEndpoint

namespace Timestamp

namespace Reader

/-- Text without the blanks in front. -/
def skipBlanks (cs : List Char) : List Char :=
  cs.dropWhile Text.isBlank

/-- Reads between one and `most` digits. -/
def number? (most : Nat) (cs : List Char) : Option (Nat × List Char) :=
  match (cs.take most).takeWhile Char.isDigit with
  | [] => none
  | ds => (Text.numeral? 10 Text.digitValue? ds).map fun n => (n, cs.drop ds.length)

/-- Reads a number of at most two digits, which may not be less than `low` or more than `high`. -/
def field? (low high : Nat) (cs : List Char) : Option (Nat × List Char) := do
  let (n, rest) ← number? 2 (skipBlanks cs)
  if low ≤ n ∧ n ≤ high then pure (n, rest) else none

/-- Reads a character, and blanks before it. -/
def mark? (c : Char) (cs : List Char) : Option (List Char) :=
  match skipBlanks cs with
  | d :: rest => if d = c then some rest else none
  | [] => none

/-- Reads a year: at most four digits, or a sign and any number of digits. -/
def year? (cs : List Char) : Option (Int × List Char) :=
  match skipBlanks cs with
  | '-' :: rest => (number? rest.length rest).map fun (n, rest) => (-(n : Int), rest)
  | '+' :: rest => (number? rest.length rest).map fun (n, rest) => ((n : Int), rest)
  | rest => (number? 4 rest).map fun (n, rest) => ((n : Int), rest)

def date? (cs : List Char) : Option (Date × List Char) := do
  let (year, cs) ← year? cs
  let (month, cs) ← field? 1 12 (← mark? '-' cs)
  let (day, cs) ← field? 1 31 (← mark? '-' cs)
  pure (⟨year, month, day⟩, cs)

/-- Reads a fraction of a second in nanoseconds; without a point there is none. -/
def fraction? (cs : List Char) : Option (Nat × List Char) :=
  match cs with
  | '.' :: rest => do
    let digits := rest.takeWhile Char.isDigit
    let (n, _) ← number? 9 rest
    pure (n * Nat.pow 10 (9 - digits.length), rest.drop digits.length)
  | _ => some (0, cs)

/-- Reads a time of day, as the second of the day and nanoseconds. -/
def timeOfDay? (cs : List Char) : Option ((Nat × Nat) × List Char) := do
  let (hour, cs) ← field? 0 23 cs
  let (minute, cs) ← field? 0 59 (← mark? ':' cs)
  let (second, cs) ← field? 0 60 (← mark? ':' cs)
  let (fraction, cs) ← fraction? cs
  let whole := hour * 3600 + minute * 60
  if second = 60 then pure ((whole + 59, nanosPerSecond + fraction), cs)
  else pure ((whole + second, fraction), cs)

/-- Two digits at the head of a text. -/
def twoDigits? : List Char → Option (Nat × List Char)
  | a :: b :: rest => do
    let x ← Text.digitValue? a
    let y ← Text.digitValue? b
    pure (x * 10 + y, rest)
  | _ => none

/-- The sign of an offset. The minus sign of typography counts as one. -/
def sign? : Char → Option Int
  | '+' => some 1
  | '-' => some (-1)
  | '\u2212' => some (-1)
  | _ => none

/-- Reads an offset from UTC, in seconds. -/
def offset? (cs : List Char) : Option (Int × List Char) :=
  match cs with
  | [] => none
  | c :: rest =>
    if c = 'Z' ∨ c = 'z' then some (0, rest)
    else if (cs.take 3).map Char.toUpper = ['U', 'T', 'C'] then some (0, cs.drop 3)
    else do
      let sign ← sign? c
      let (hours, rest) ← twoDigits? rest
      let (minutes, rest) ← twoDigits? (rest.dropWhile fun c => c == ':' || Text.isBlank c)
      if minutes < 60 ∧ hours < 24 then pure (sign * ((hours * 3600 + minutes * 60 : Nat) : Int), rest)
      else none

/-- Reads a time with its offset, and nothing but blanks after it. -/
def timestamp? (cs : List Char) : Option Timestamp := do
  let (date, cs) ← date? cs
  let cs ← match cs with
    | c :: rest => if c = 'T' ∨ c = 't' ∨ c = ' ' then some rest else none
    | [] => none
  let ((second, nanoseconds), cs) ← timeOfDay? cs
  let (offset, cs) ← offset? (skipBlanks cs)
  let days := date.toDays
  if (skipBlanks cs).isEmpty ∧ date.isValid ∧ firstDay ≤ days ∧ days ≤ lastDay then
    make? (days * secondsPerDay + second - offset) nanoseconds
  else none

end Reader

/-- The time that a text in RFC 3339, or a little beside it, stands for. -/
def ofRfc3339? (s : String) : Option Timestamp :=
  Reader.timestamp? s.toList

end Timestamp

end SyncEndpoint
