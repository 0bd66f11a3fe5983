import SyncEndpoint.Text.Basic
import SyncEndpoint.Toml.Value

set_option autoImplicit false

/-! # Unquoted TOML values

Truth values, integers, floats and points in time: everything that is written without quotes and
brackets. Each reader below takes the whole literal. -/

namespace SyncEndpoint.Toml

namespace Scalar

/-! ## Digits -/

/-- Digits without the underscores between them; each underscore stands between two digits. -/
def ungroup? (isDigit : Char → Bool) : List Char → Option (List Char)
  | [] => none
  | [c] => if isDigit c then some [c] else none
  | c :: '_' :: rest =>
    if isDigit c then (ungroup? isDigit rest).map (c :: ·) else none
  | c :: rest =>
    if isDigit c then (ungroup? isDigit rest).map (c :: ·) else none

/-- Grouped decimal digits. -/
def digits? (cs : List Char) : Option (List Char) :=
  ungroup? Char.isDigit cs

/-- Grouped decimal digits without a zero in front, unless it is the only one. -/
def whole? (cs : List Char) : Option (List Char) :=
  match digits? cs with
  | some ('0' :: _ :: _) => none
  | ds => ds

/-- The number of some decimal digits. -/
def decimal (ds : List Char) : Nat :=
  (Text.numeral? 10 Text.digitValue? ds).getD 0

/-- A sign, if there is one, and what follows. -/
def splitSign : List Char → Bool × List Char
  | '+' :: rest => (false, rest)
  | '-' :: rest => (true, rest)
  | cs => (false, cs)

/-! ## Integers -/

def baseDigit? (base : Nat) (c : Char) : Option Nat :=
  (Text.hexValue? c).filter (· < base)

/-- A number in another base than ten. -/
def based? (base : Nat) (cs : List Char) : Option Int := do
  let ds ← ungroup? (fun c => (baseDigit? base c).isSome) cs
  let n ← Text.numeral? base (baseDigit? base) ds
  pure n

def integer? (cs : List Char) : Option Int :=
  match cs with
  | '0' :: 'x' :: rest => based? 16 rest
  | '0' :: 'o' :: rest => based? 8 rest
  | '0' :: 'b' :: rest => based? 2 rest
  | _ =>
    let (negative, rest) := splitSign cs
    (whole? rest).map fun ds => if negative then -(decimal ds : Int) else decimal ds

/-! ## Floats -/

/-- The exponent of a float, with its sign. -/
def exponent? (cs : List Char) : Option Int :=
  let (negative, rest) := splitSign cs
  (digits? rest).map fun ds => if negative then -(decimal ds : Int) else decimal ds

def isExponentMark (c : Char) : Bool := c == 'e' || c == 'E'

/-- The digits and the power of ten of a float without sign that is not special. -/
def magnitude? (cs : List Char) : Option (List Char × Int) :=
  let mantissa := cs.takeWhile (!isExponentMark ·)
  let whole := mantissa.takeWhile (· != '.')
  let power : Option Int := match cs.drop mantissa.length with
    | [] => some 0
    | _ :: rest => exponent? rest
  match mantissa.drop whole.length, cs.drop mantissa.length with
  | [], [] => none
  | [], _ => do
    let ds ← whole? whole
    pure (ds, ← power)
  | _ :: fraction, _ => do
    let ds ← whole? whole
    let fs ← digits? fraction
    pure (ds ++ fs, (← power) - fs.length)

/-- Whether a literal is a float. -/
def isFloat (cs : List Char) : Bool :=
  let (_, rest) := splitSign cs
  rest == ['i', 'n', 'f'] || rest == ['n', 'a', 'n'] || (magnitude? rest).isSome

/-- The least number that is too large for a double, with half of the last place's unit taken off:
what lies at or above it rounds to infinity. -/
def doubleLimit : Nat := Nat.pow 2 1024 - Nat.pow 2 970

/-- Whether a float literal stands for a number that a double can hold. -/
def fitsDouble (cs : List Char) : Bool :=
  match magnitude? (splitSign cs).2 with
  | none => true
  | some (ds, power) =>
    let ds := ds.dropWhile (· == '0')
    if ds.isEmpty || (ds.length : Int) + power < 308 then true
    else if (ds.length : Int) + power > 310 then false
    else
      let n := decimal ds
      if power ≤ 0 then n < doubleLimit * Nat.pow 10 power.natAbs
      else n * Nat.pow 10 power.natAbs < doubleLimit

/-! ## Points in time -/

/-- A number of exactly `width` digits. -/
def fixed? (width : Nat) (cs : List Char) : Option Nat :=
  if cs.length = width && cs.all Char.isDigit then some (decimal cs) else none

def isLeapYear (year : Nat) : Bool :=
  year % 4 == 0 && (year % 100 != 0 || year % 400 == 0)

/-- The length of a month. -/
def monthDays (year month : Nat) : Nat :=
  if month == 2 then (if isLeapYear year then 29 else 28)
  else if month == 4 || month == 6 || month == 9 || month == 11 then 30
  else 31

/-- Whether a literal is a date. -/
def isDate (cs : List Char) : Bool :=
  match cs.splitOn '-' with
  | [y, m, d] =>
    match fixed? 4 y, fixed? 2 m, fixed? 2 d with
    | some y, some m, some d => 1 ≤ m && m ≤ 12 && 1 ≤ d && d ≤ monthDays y m
    | _, _, _ => false
  | _ => false

/-- Whether a literal is a number of two digits that is at most `most`. -/
def isTwoDigits (most : Nat) (cs : List Char) : Bool :=
  match fixed? 2 cs with
  | some n => n ≤ most
  | none => false

def isHour (cs : List Char) : Bool := isTwoDigits 23 cs
def isMinute (cs : List Char) : Bool := isTwoDigits 59 cs

/-- Whether a literal is a second, of which a leap second is one, with or without a fraction. -/
def isSecond (cs : List Char) : Bool :=
  let whole := cs.takeWhile (· != '.')
  let fraction := cs.drop whole.length
  isTwoDigits 60 whole &&
    (fraction.isEmpty || (fraction.length > 1 && fraction.tail.all Char.isDigit))

/-- Whether a literal is a time of day. The second may be left out. -/
def isTimeOfDay (cs : List Char) : Bool :=
  match cs.splitOn ':' with
  | [h, m] => isHour h && isMinute m
  | [h, m, s] => isHour h && isMinute m && isSecond s
  | _ => false

/-- Whether a literal is a distance from UTC. -/
def isOffset (cs : List Char) : Bool :=
  match cs with
  | ['Z'] | ['z'] => true
  | sign :: rest =>
    (sign == '+' || sign == '-') &&
      match rest.splitOn ':' with
      | [h, m] => isHour h && isMinute m
      | _ => false
  | [] => false

def isOffsetStart (c : Char) : Bool := c == 'Z' || c == 'z' || c == '+' || c == '-'

/-- Whether a literal is a time of day with or without an offset. -/
def isOffsetTime (cs : List Char) : Bool :=
  let local_ := cs.takeWhile (!isOffsetStart ·)
  let offset := cs.drop local_.length
  isTimeOfDay local_ && (offset.isEmpty || isOffset offset)

/-- Whether a literal is a point in time: a date, a time of day, or both. -/
def isTime (cs : List Char) : Bool :=
  isTimeOfDay cs || isDate cs ||
    (isDate (cs.take 10) &&
      match cs.drop 10 with
      | c :: rest => (c == 'T' || c == 't' || c == ' ') && isOffsetTime rest
      | [] => false)

/-! ## All of them -/

def ofLiteral? (cs : List Char) : Option Value :=
  if cs = ['t', 'r', 'u', 'e'] then some (.boolean true)
  else if cs = ['f', 'a', 'l', 's', 'e'] then some (.boolean false)
  else
    match integer? cs with
    | some n => some (.integer n)
    | none => if isFloat cs then some (.float cs) else if isTime cs then some (.time cs) else none

end Scalar

end SyncEndpoint.Toml
