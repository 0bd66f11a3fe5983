set_option autoImplicit false

/-! # Characters, blanks and trimming

The pieces of text handling that everything else shares: trimming a list at one end, the blank
characters of Unicode (property `White_Space`), and the digits of numerals. Text is worked on as a
list of characters, so that the lemmas of lists apply. -/

namespace SyncEndpoint.Text

/-! ## Trimming -/

/-- What is left of a list after the longest tail of elements satisfying `p` is cut off. -/
def trimEnd {α : Type} (p : α → Bool) (xs : List α) : List α :=
  (xs.reverse.dropWhile p).reverse

/-- Trims both ends. -/
def trimBoth {α : Type} (p : α → Bool) (xs : List α) : List α :=
  trimEnd p (xs.dropWhile p)

theorem trimEnd_nil {α : Type} (p : α → Bool) : trimEnd p [] = [] := rfl

/-! ## Blanks -/

/-- The characters with the Unicode property `White_Space`. -/
def isBlank (c : Char) : Bool :=
  let n := c.toNat
  (0x09 ≤ n && n ≤ 0x0D) || n == 0x20 || n == 0x85 || n == 0xA0 || n == 0x1680 ||
    (0x2000 ≤ n && n ≤ 0x200A) || n == 0x2028 || n == 0x2029 || n == 0x202F || n == 0x205F ||
    n == 0x3000

/-- A text without the blanks at either end. -/
def trimBlanks (s : String) : String :=
  String.ofList (trimBoth isBlank s.toList)

/-- Whether a text has no character but blanks. -/
def isAllBlank (s : String) : Bool :=
  s.toList.all isBlank

/-! ## Digits -/

/-- The value of a hexadecimal digit of either case. -/
def hexValue? (c : Char) : Option Nat :=
  if '0' ≤ c ∧ c ≤ '9' then some (c.toNat - '0'.toNat)
  else if 'a' ≤ c ∧ c ≤ 'f' then some (c.toNat - 'a'.toNat + 10)
  else if 'A' ≤ c ∧ c ≤ 'F' then some (c.toNat - 'A'.toNat + 10)
  else none

/-- The value of a decimal digit. -/
def digitValue? (c : Char) : Option Nat :=
  if '0' ≤ c ∧ c ≤ '9' then some (c.toNat - '0'.toNat) else none

/-- The value of a list of digits in base `base`, if all of them are digits by `value?`. The empty
list has the value 0. -/
def numeral? (base : Nat) (value? : Char → Option Nat) (cs : List Char) : Option Nat :=
  cs.foldlM (fun acc c => (value? c).map (acc * base + ·)) 0

/-- A number in decimal with zeros in front up to `width` digits. -/
def padded (width n : Nat) : String :=
  let digits := Nat.toDigits 10 n
  String.ofList (List.replicate (width - digits.length) '0' ++ digits)

/-- The lower-case hexadecimal digit of `n < 16`. -/
def hexDigit (n : Nat) : Char :=
  if n < 10 then Char.ofNat ('0'.toNat + n) else Char.ofNat ('a'.toNat + (n - 10))

end SyncEndpoint.Text
