import SyncEndpoint.Text.Basic

set_option autoImplicit false

/-! # Reading a bounded number

A natural number in decimal digits, with or without a plus in front. The first thing from the left
that is wrong is reported. -/

namespace SyncEndpoint.Text

/-- Why a text is not a number within its bound. -/
inductive NumeralError where
  | empty
  | badDigit
  | tooLarge
  deriving DecidableEq

namespace NumeralError

def message : NumeralError → String
  | .empty => "cannot parse integer from empty string"
  | .badDigit => "invalid digit found in string"
  | .tooLarge => "number too large to fit in target type"

end NumeralError

/-- One more digit behind the number `n`. -/
def appendDigit (bound n : Nat) (c : Char) : Except NumeralError Nat :=
  match digitValue? c with
  | none => .error .badDigit
  | some digit => if n * 10 + digit < bound then .ok (n * 10 + digit) else .error .tooLarge

/-- The number that a text stands for, if it is less than `bound`. -/
def numberBelow (bound : Nat) (s : String) : Except NumeralError Nat :=
  match s.toList with
  | [] => .error .empty
  | '+' :: [] => .error .badDigit
  | '+' :: digits => digits.foldlM (appendDigit bound) 0
  | digits => digits.foldlM (appendDigit bound) 0

end SyncEndpoint.Text
