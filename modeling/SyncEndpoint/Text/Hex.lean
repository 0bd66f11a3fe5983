import SyncEndpoint.Text.Utf8

set_option autoImplicit false

/-! # Bytes in hexadecimal

Two lower-case digits for each byte, the high one first. -/

namespace SyncEndpoint.Text.Hex

/-- The two digits of a byte. -/
def ofByte (b : UInt8) : List Char :=
  [hexDigit (b.toNat / 16), hexDigit (b.toNat % 16)]

/-- The hexadecimal form of a byte string. -/
def encode (bs : Bytes) : String :=
  String.ofList (bs.flatMap ofByte)

/-- Reads digits in pairs. -/
def decodeChars? : List Char → Option Bytes
  | [] => some []
  | [_] => none
  | hi :: lo :: rest => do
    let h ← hexValue? hi
    let l ← hexValue? lo
    let bs ← decodeChars? rest
    pure (UInt8.ofNat (h * 16 + l) :: bs)

/-- The byte string that a text of hexadecimal digits stands for. -/
def decode? (s : String) : Option Bytes :=
  decodeChars? s.toList

end SyncEndpoint.Text.Hex
