import SyncEndpoint.Text.Hex
import SyncEndpoint.Unicode.CombiningClass

set_option autoImplicit false

/-! # Quoted text

How a text is shown to a developer: between quotes, with an escape for whatever would not be seen
as itself. Bytes that are not text are shown by their hexadecimal digits. -/

namespace SyncEndpoint.Text.Quoted

/-- Ranges of characters that are never seen: control and format characters, blanks other than the
space, variation selectors, and those for private use. -/
def unseenRanges : List (Nat × Nat) :=
  [(0x0, 0x1F), (0x7F, 0xA0), (0xAD, 0xAD), (0x34F, 0x34F), (0x600, 0x605), (0x61C, 0x61C),
    (0x6DD, 0x6DD), (0x70F, 0x70F), (0x890, 0x891), (0x8E2, 0x8E2), (0x1680, 0x1680),
    (0x180E, 0x180E), (0x2000, 0x200F), (0x2028, 0x202F), (0x205F, 0x206F), (0x3000, 0x3000),
    (0xD800, 0xF8FF), (0xFE00, 0xFE0F), (0xFEFF, 0xFEFF), (0xFFF0, 0xFFFB), (0xFFFE, 0xFFFF),
    (0x110BD, 0x110BD), (0x110CD, 0x110CD), (0x13430, 0x1343F), (0x1BCA0, 0x1BCA3),
    (0x1D173, 0x1D17A), (0xE0000, 0x10FFFF)]

/-- Whether a character is not seen by itself, be it never seen or a mark on another one. -/
def isUnseen (c : Char) : Bool :=
  Unicode.combiningClass c.toNat != 0 ||
    unseenRanges.any fun r => r.1 ≤ c.toNat && c.toNat ≤ r.2

/-- A character with its number in hexadecimal. -/
def numbered (c : Char) : List Char :=
  ['\\', 'u', '{'] ++ Nat.toDigits 16 c.toNat ++ ['}']

/-- How a character is shown between quotes. -/
def escapeChar (c : Char) : List Char :=
  if c == '"' then ['\\', '"']
  else if c == '\\' then ['\\', '\\']
  else if c == '\t' then ['\\', 't']
  else if c == '\n' then ['\\', 'n']
  else if c == '\r' then ['\\', 'r']
  else if c.toNat == 0 then ['\\', '0']
  else if isUnseen c then numbered c
  else [c]

/-- How a text is shown. -/
def ofString (s : String) : String :=
  String.ofList ('"' :: s.toList.flatMap escapeChar ++ ['"'])

/-- How a piece of a byte string is shown between quotes. There a single quote is escaped, too. -/
def escapePiece : Utf8.Piece → List Char
  | .scalar c => if c == '\'' then ['\\', c] else escapeChar c
  | .broken bytes => bytes.flatMap fun b => '\\' :: 'x' :: (Hex.ofByte b).map Char.toUpper

/-- How a byte string is shown. -/
def ofBytes (bytes : Bytes) : String :=
  String.ofList ('"' :: (Utf8.pieces bytes).flatMap escapePiece ++ ['"'])

end SyncEndpoint.Text.Quoted
