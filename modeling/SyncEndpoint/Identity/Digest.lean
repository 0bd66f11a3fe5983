import SyncEndpoint.Text.Hex

set_option autoImplicit false

/-! # BLAKE3

The digest that identifies a content. A hasher takes one byte after the other. It holds the chunk
it is in, and a stack of the chaining values of complete subtrees, the smallest on top: when a
chunk is complete, its value is joined with those of the subtrees that are as large as what it
makes. A block is compressed only when a byte comes after it, since the last one is compressed
with other flags. -/

namespace SyncEndpoint.Digest

/-! ## Compression -/

abbrev ChainingValue := Vector UInt32 8

/-- The words of a block, and the working state of the compression. -/
abbrev Words := Vector UInt32 16

def initialValue : ChainingValue :=
  #v[0x6A09E667, 0xBB67AE85, 0x3C6EF372, 0xA54FF53A, 0x510E527F, 0x9B05688C, 0x1F83D9AB,
    0x5BE0CD19]

/-- Rotates a word to the right. -/
def rotateRight (x : UInt32) (n : UInt32) : UInt32 :=
  (x >>> n) ||| (x <<< (32 - n))

/-- Mixes two words of the message into four words of the state. -/
def mix (v : Words) (a b c d : Fin 16) (x y : UInt32) : Words :=
  let va := v[a] + v[b] + x
  let vd := rotateRight (v[d] ^^^ va) 16
  let vc := v[c] + vd
  let vb := rotateRight (v[b] ^^^ vc) 12
  let va := va + vb + y
  let vd := rotateRight (vd ^^^ va) 8
  let vc := vc + vd
  let vb := rotateRight (vb ^^^ vc) 7
  (((v.set a va).set b vb).set c vc).set d vd

/-- One round: the columns of the state, and then its diagonals. -/
def round (v m : Words) : Words :=
  let v := mix v 0 4 8 12 m[0] m[1]
  let v := mix v 1 5 9 13 m[2] m[3]
  let v := mix v 2 6 10 14 m[4] m[5]
  let v := mix v 3 7 11 15 m[6] m[7]
  let v := mix v 0 5 10 15 m[8] m[9]
  let v := mix v 1 6 11 12 m[10] m[11]
  let v := mix v 2 7 8 13 m[12] m[13]
  mix v 3 4 9 14 m[14] m[15]

/-- The order of the message's words in the next round. -/
def permute (m : Words) : Words :=
  #v[m[2], m[6], m[3], m[10], m[7], m[0], m[4], m[13], m[1], m[11], m[12], m[5], m[9], m[14],
    m[15], m[8]]

/-- The given number of rounds. -/
def rounds : Nat → Words → Words → Words
  | 0, v, _ => v
  | n + 1, v, m => rounds n (round v m) (permute m)

/-- What a block is compressed with. -/
structure Flags where
  chunkStart : Bool := false
  chunkEnd : Bool := false
  parent : Bool := false
  root : Bool := false

def Flags.bits (f : Flags) : UInt32 :=
  let bit (set : Bool) (value : UInt32) : UInt32 := if set then value else 0
  bit f.chunkStart 1 ||| bit f.chunkEnd 2 ||| bit f.parent 4 ||| bit f.root 8

/-- A block that is ready to be compressed. -/
structure Output where
  value : ChainingValue
  block : Words
  counter : Nat
  length : Nat
  flags : Flags

/-- The chaining value that a block gives. -/
def Output.compress (o : Output) (root : Bool) : ChainingValue :=
  let h := o.value
  let i := initialValue
  let bits := { o.flags with root }.bits
  let v : Words :=
    #v[h[0], h[1], h[2], h[3], h[4], h[5], h[6], h[7], i[0], i[1], i[2], i[3],
      UInt32.ofNat o.counter, UInt32.ofNat (o.counter >>> 32), UInt32.ofNat o.length, bits]
  let v := rounds 7 v o.block
  #v[v[0] ^^^ v[8], v[1] ^^^ v[9], v[2] ^^^ v[10], v[3] ^^^ v[11], v[4] ^^^ v[12],
    v[5] ^^^ v[13], v[6] ^^^ v[14], v[7] ^^^ v[15]]

/-- The block of two chaining values side by side. -/
def parentOutput (left right : ChainingValue) : Output :=
  { value := initialValue, block := left ++ right, counter := 0, length := 64
    flags := { parent := true } }

/-! ## Words and bytes -/

/-- The words of a list of bytes, the low byte of each first. -/
def wordsOf : Bytes → List UInt32
  | a :: b :: c :: d :: rest =>
    (a.toUInt32 ||| (b.toUInt32 <<< 8) ||| (c.toUInt32 <<< 16) ||| (d.toUInt32 <<< 24)) ::
      wordsOf rest
  | _ => []

/-- The length of a block in bytes, and that of a chunk in blocks. -/
def blockLength : Nat := 64
def blocksPerChunk : Nat := 16

/-- The words of a block; what is missing are zeros. -/
def blockWords (bytes : Bytes) : Words :=
  let words := (wordsOf (bytes ++ List.replicate (blockLength - bytes.length) 0)).toArray
  Vector.ofFn fun i : Fin 16 => words.getD i 0

/-- The bytes of a word, the low one first. -/
def bytesOf (w : UInt32) : Bytes :=
  [w.toUInt8, (w >>> 8).toUInt8, (w >>> 16).toUInt8, (w >>> 24).toUInt8]

/-! ## Chunks -/

/-- A chunk as far as it has been taken. -/
structure Chunk where
  /-- The number of chunks before it. -/
  counter : Nat
  value : ChainingValue := initialValue
  /-- The number of blocks that are compressed. -/
  blocks : Nat := 0
  /-- The bytes of the block that is not, the last one first, and their number. -/
  pending : Bytes := []
  length : Nat := 0

namespace Chunk

/-- The block that is not compressed. -/
def output (c : Chunk) (chunkEnd : Bool) : Output :=
  { value := c.value, block := blockWords c.pending.reverse, counter := c.counter
    length := c.length, flags := { chunkStart := c.blocks == 0, chunkEnd } }

/-- Whether a chunk takes no more bytes. -/
def isFull (c : Chunk) : Bool :=
  c.blocks + 1 == blocksPerChunk && c.length == blockLength

/-- Takes a byte. -/
def push (c : Chunk) (b : UInt8) : Chunk :=
  if c.length == blockLength then
    { c with value := (c.output false).compress false, blocks := c.blocks + 1
             pending := [b], length := 1 }
  else { c with pending := b :: c.pending, length := c.length + 1 }

end Chunk

/-! ## The hasher -/

/-- A hasher: the chunk it is in, and the values of the subtrees before it. -/
structure Hasher where
  chunk : Chunk := { counter := 0 }
  stack : List ChainingValue := []

namespace Hasher

/-- Puts the value of a subtree on the stack. `subtrees` subtrees of its size are complete; as long
as that is even, the topmost one is the left sibling. -/
def join : List ChainingValue → ChainingValue → Nat → List ChainingValue
  | left :: rest, value, subtrees =>
    if subtrees % 2 = 0 then join rest ((parentOutput left value).compress false) (subtrees / 2)
    else value :: left :: rest
  | [], value, _ => [value]

/-- Starts a new chunk if the one it is in is full. -/
def advance (h : Hasher) : Hasher :=
  if h.chunk.isFull then
    let chunks := h.chunk.counter + 1
    { chunk := { counter := chunks }
      stack := join h.stack ((h.chunk.output true).compress false) chunks }
  else h

/-- Takes a byte. -/
def push (h : Hasher) (b : UInt8) : Hasher :=
  let h := h.advance
  { h with chunk := h.chunk.push b }

def update (h : Hasher) (bytes : Bytes) : Hasher :=
  bytes.foldl push h

/-- The last block: that of the chunk, joined with the subtrees before it. -/
def finalOutput (h : Hasher) : Output :=
  h.stack.foldl (fun o left => parentOutput left (o.compress false)) (h.chunk.output true)

/-- The digest of the bytes that were taken. -/
def finish (h : Hasher) : Bytes :=
  (h.finalOutput.compress true).toList.flatMap bytesOf

theorem update_append (h : Hasher) (a b : Bytes) :
    h.update (a ++ b) = (h.update a).update b :=
  List.foldl_append

end Hasher

/-- The digest of a content. -/
def digest (bytes : Bytes) : Bytes :=
  (Hasher.update {} bytes).finish

/-- The digest of a content in hexadecimal. -/
def hexDigest (bytes : Bytes) : String :=
  Text.Hex.encode (digest bytes)

end SyncEndpoint.Digest
