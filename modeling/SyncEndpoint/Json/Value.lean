import SyncEndpoint.Text.Basic

set_option autoImplicit false

/-! # JSON values

A JSON value keeps its numbers and strings as they are written: a number by its literal, a string
by what stands between its quotes. So nothing is lost in a number, and a string that holds half of
a surrogate pair, which no text can, is a value all the same. -/

namespace SyncEndpoint

inductive Json where
  | null
  | bool (b : Bool)
  | num (literal : List Char)
  | str (body : List Char)
  | arr (items : List Json)
  | obj (members : List (List Char × Json))

namespace Json

/-! ## Strings -/

/-- The four digits of a Unicode escape. -/
def hex4 (n : Nat) : List Char :=
  [Text.hexDigit (n / 4096 % 16), Text.hexDigit (n / 256 % 16), Text.hexDigit (n / 16 % 16),
    Text.hexDigit (n % 16)]

/-- How a character is written in a string: quotes, backslashes and control characters are
escaped, everything else stands for itself. -/
def escapeChar (c : Char) : List Char :=
  if c = '"' then ['\\', '"']
  else if c = '\\' then ['\\', '\\']
  else if c = '\x08' then ['\\', 'b']
  else if c = '\t' then ['\\', 't']
  else if c = '\n' then ['\\', 'n']
  else if c = '\x0c' then ['\\', 'f']
  else if c = '\r' then ['\\', 'r']
  else if c.toNat < 0x20 then '\\' :: 'u' :: hex4 c.toNat
  else [c]

/-- What stands between the quotes for a text. -/
def escape (cs : List Char) : List Char :=
  cs.flatMap escapeChar

/-- The value of four hexadecimal digits. -/
def hex4? (a b c d : Char) : Option Nat :=
  Text.numeral? 16 Text.hexValue? [a, b, c, d]

def shortEscape? : Char → Option Char
  | '"' => some '"'
  | '\\' => some '\\'
  | '/' => some '/'
  | 'b' => some '\x08'
  | 'f' => some '\x0c'
  | 'n' => some '\n'
  | 'r' => some '\r'
  | 't' => some '\t'
  | _ => none

/-- Adds a character to a text that may be missing. -/
def consChar (c : Char) (rest : Option (List Char)) : Option (List Char) :=
  rest.map (c :: ·)

/-- The text that the body of a string stands for; none if it holds half of a surrogate pair. -/
def unescape? : List Char → Option (List Char)
  | [] => some []
  | '\\' :: 'u' :: a :: b :: c :: d :: rest =>
    match hex4? a b c d with
    | none => none
    | some n =>
      if n < 0xD800 ∨ 0xE000 ≤ n then consChar (Char.ofNat n) (unescape? rest)
      else if n < 0xDC00 then
        match rest with
        | '\\' :: 'u' :: e :: f :: g :: h :: rest =>
          match hex4? e f g h with
          | none => none
          | some m =>
            if 0xDC00 ≤ m ∧ m < 0xE000 then
              consChar (Char.ofNat (0x10000 + (n - 0xD800) * 0x400 + (m - 0xDC00)))
                (unescape? rest)
            else none
        | _ => none
      else none
  | '\\' :: e :: rest =>
    match shortEscape? e with
    | some c => consChar c (unescape? rest)
    | none => none
  | c :: rest => consChar c (unescape? rest)

/-! ## Values of other types -/

def ofString (s : String) : Json := .str (escape s.toList)

/-- The value of a natural number. -/
def ofNat (n : Nat) : Json := .num (Nat.toDigits 10 n)

/-- The value of something that may be missing. -/
def ofOption {α : Type} (f : α → Json) : Option α → Json
  | none => .null
  | some a => f a

/-- An object with texts as keys. -/
def ofMembers (members : List (String × Json)) : Json :=
  .obj (members.map fun (k, v) => (escape k.toList, v))

def string? : Json → Option String
  | .str body => (unescape? body).map String.ofList
  | _ => none

/-- The value of a number without sign, point and exponent that is less than `bound`. -/
def natBelow? (bound : Nat) : Json → Option Nat
  | .num literal =>
    match Text.numeral? 10 Text.digitValue? literal with
    | some n => if n < bound then some n else none
    | none => none
  | _ => none

/-- The value of a truth value. -/
def bool? : Json → Option Bool
  | .bool b => some b
  | _ => none

/-- Reads null as a missing value. -/
def option? {α : Type} (read : Json → Option α) : Json → Option (Option α)
  | .null => some none
  | v => (read v).map some

end Json

end SyncEndpoint
