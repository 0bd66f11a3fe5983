import SyncEndpoint.Text.Basic

set_option autoImplicit false

/-! # Identifiers of collections

An identifier is a UUID of version 4: 122 bits in hexadecimal, with the version and the variant at
their places. -/

namespace SyncEndpoint.Uuid

/-- The last `width` hexadecimal digits of a number. -/
def digits : Nat → Nat → List Char
  | 0, _ => []
  | width + 1, n => digits width (n / 16) ++ [Text.hexDigit (n % 16)]

/-- The digit that holds the variant and the two bits behind it. -/
def variantDigit (n : Nat) : Char :=
  Text.hexDigit (8 + n % 4)

/-- The identifier whose free bits are the last 122 bits of a number. -/
def ofNat (n : Nat) : String :=
  String.ofList (digits 8 (n >>> 90) ++ '-' :: digits 4 (n >>> 74) ++
    '-' :: '4' :: digits 3 (n >>> 62) ++
    '-' :: variantDigit (n >>> 60) :: digits 3 (n >>> 48) ++ '-' :: digits 12 n)

end SyncEndpoint.Uuid
