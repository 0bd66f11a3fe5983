import SyncEndpoint.Text.Basic

set_option autoImplicit false

/-! # UTF-8

Byte strings are lists of bytes. `encode` writes a text in UTF-8, `decode?` reads exactly the
byte strings that are UTF-8, and `decodeLossy` reads any byte string, putting U+FFFD for each
broken sequence. A broken sequence is the longest start of a well-formed one, or else one byte:
the reader works one byte at a time and keeps what it has seen of the current sequence. -/

namespace SyncEndpoint

/-- A byte string. -/
abbrev Bytes := List UInt8

namespace Text.Utf8

/-- The UTF-8 bytes of a list of characters. -/
def encodeChars (cs : List Char) : Bytes :=
  cs.flatMap String.utf8EncodeChar

/-- The UTF-8 bytes of a text. -/
def encode (s : String) : Bytes :=
  encodeChars s.toList

/-- One thing read from a byte string: a scalar value, or the bytes of a broken sequence. -/
inductive Piece where
  | scalar (c : Char)
  | broken (bytes : Bytes)

/-- The reader between two bytes: at the start of a sequence, or inside one, with the bytes seen,
the bits read so far, the number of bytes still to come and the range the next one lies in. -/
inductive Reader where
  | start
  | inside (seen : Bytes) (bits missing : Nat) (low high : UInt8)

/-- Reads a byte at the start of a sequence. -/
def Reader.first (b : UInt8) : List Piece × Reader :=
  if b < 0x80 then ([.scalar (Char.ofNat b.toNat)], .start)
  else if b < 0xC2 then ([.broken [b]], .start)
  else if b < 0xE0 then ([], .inside [b] (b.toNat - 0xC0) 1 0x80 0xBF)
  else if b == 0xE0 then ([], .inside [b] 0 2 0xA0 0xBF)
  else if b == 0xED then ([], .inside [b] (b.toNat - 0xE0) 2 0x80 0x9F)
  else if b < 0xF0 then ([], .inside [b] (b.toNat - 0xE0) 2 0x80 0xBF)
  else if b == 0xF0 then ([], .inside [b] 0 3 0x90 0xBF)
  else if b < 0xF4 then ([], .inside [b] (b.toNat - 0xF0) 3 0x80 0xBF)
  else if b == 0xF4 then ([], .inside [b] (b.toNat - 0xF0) 3 0x80 0x8F)
  else ([.broken [b]], .start)

/-- Reads one byte: what is finished by it, and where the reader then stands. -/
def Reader.push (r : Reader) (b : UInt8) : List Piece × Reader :=
  match r with
  | .start => Reader.first b
  | .inside seen bits missing low high =>
    if low ≤ b && b ≤ high then
      let bits := bits * 64 + (b.toNat - 0x80)
      if missing ≤ 1 then ([.scalar (Char.ofNat bits)], .start)
      else ([], .inside (seen ++ [b]) bits (missing - 1) 0x80 0xBF)
    else
      let (out, r') := Reader.first b
      (.broken seen :: out, r')

/-- What the end of the input leaves unfinished. -/
def Reader.finish : Reader → List Piece
  | .start => []
  | .inside seen _ _ _ _ => [.broken seen]

/-- The pieces of a byte string, read from a given reader on. -/
def piecesFrom : Reader → Bytes → List Piece
  | r, [] => r.finish
  | r, b :: bs => (r.push b).1 ++ piecesFrom (r.push b).2 bs

/-- The pieces of a byte string. -/
def pieces (bs : Bytes) : List Piece :=
  piecesFrom .start bs

/-- The character that stands for a broken sequence. -/
def replacement : Char := Char.ofNat 0xFFFD

def Piece.lossy : Piece → Char
  | .scalar c => c
  | .broken _ => replacement

/-- A piece as a character, if it is one. -/
def Piece.scalar? : Piece → Option Char
  | .scalar c => some c
  | .broken _ => none

/-- The text of a byte string, with a replacement character for each broken sequence. -/
def decodeLossy (bs : Bytes) : String :=
  String.ofList ((pieces bs).map Piece.lossy)

/-- The text of a byte string, if all of it is UTF-8. -/
def decode? (bs : Bytes) : Option String :=
  ((pieces bs).mapM Piece.scalar?).map String.ofList

end Text.Utf8

end SyncEndpoint
