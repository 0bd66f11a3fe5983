import Mathlib.Algebra.Group.Nat.Defs
import SyncEndpoint.Identity.Digest

set_option autoImplicit false

/-! # The tree behind a digest

What a digest is, without a hasher: a content of at most one chunk is compressed block by block, and
a longer one is cut in two, where the left part is the largest complete subtree that leaves something
for the right one. A hasher comes to the same (`digest_eq_treeDigest`), wherever the content ends: the
values on its stack are those of the complete subtrees that the bits of the number of chunks stand
for. -/

namespace SyncEndpoint.Digest

/-! ## The tree -/

/-- The length of a chunk in bytes. -/
def chunkLength : Nat := blocksPerChunk * blockLength

/-- The length of a complete subtree of the height `g` in bytes. -/
def subtreeLength (g : Nat) : Nat := 2 ^ g * chunkLength

theorem chunkLength_pos : 0 < chunkLength := by
  decide

theorem subtreeLength_pos (g : Nat) : 0 < subtreeLength g :=
  Nat.mul_pos (Nat.two_pow_pos g) chunkLength_pos

@[simp]
theorem subtreeLength_zero : subtreeLength 0 = chunkLength :=
  Nat.one_mul _

theorem subtreeLength_succ (g : Nat) : subtreeLength (g + 1) = 2 * subtreeLength g := by
  rw [subtreeLength, Nat.pow_succ', Nat.mul_assoc, subtreeLength]

theorem chunkLength_le_subtreeLength (g : Nat) : chunkLength ≤ subtreeLength g :=
  Nat.le_mul_of_pos_left chunkLength (Nat.two_pow_pos g)

/-- The last block of what is left of a chunk, which is all of it if `isFirst` holds. -/
def blocksOutput (counter : Nat) (value : ChainingValue) (isFirst : Bool) (bytes : Bytes) : Output :=
  if bytes.length ≤ blockLength then
    { value, block := blockWords bytes, counter, length := bytes.length
      flags := { chunkStart := isFirst, chunkEnd := true } }
  else
    let block : Output :=
      { value, block := blockWords (bytes.take blockLength), counter, length := blockLength
        flags := { chunkStart := isFirst } }
    blocksOutput counter (block.compress false) false (bytes.drop blockLength)
termination_by bytes.length
decreasing_by
  have hblock : 0 < blockLength := by decide
  rw [List.length_drop]
  omega

section Blocks

variable {counter : Nat} {value : ChainingValue} {isFirst : Bool} {bytes block : Bytes}

theorem blocksOutput_of_le (h : bytes.length ≤ blockLength) :
    blocksOutput counter value isFirst bytes =
      { value, block := blockWords bytes, counter, length := bytes.length
        flags := { chunkStart := isFirst, chunkEnd := true } } := by
  rw [blocksOutput, if_pos h]

/-- A block with something behind it is compressed for what is behind it. -/
theorem blocksOutput_append (hblock : block.length = blockLength) (hne : bytes ≠ []) :
    blocksOutput counter value isFirst (block ++ bytes) =
      blocksOutput counter
        (Output.compress
          { value, block := blockWords block, counter, length := blockLength
            flags := { chunkStart := isFirst } } false) false bytes := by
  have hpos := List.length_pos_iff.mpr hne
  have hlong : ¬ (block ++ bytes).length ≤ blockLength := by
    rw [List.length_append]
    omega
  rw [blocksOutput, if_neg hlong]
  dsimp only
  rw [← hblock, List.take_left, List.drop_left]

end Blocks

/-- The last block of a chunk. -/
def chunkOutput (counter : Nat) (bytes : Bytes) : Output :=
  blocksOutput counter initialValue true bytes

/-- The height of the subtree to the left, of `n` bytes: the largest that does not take them all. -/
def leftHeight (n : Nat) : Nat :=
  ((n - 1) / chunkLength).log2

theorem subtreeLength_leftHeight_lt {n : Nat} (h : chunkLength < n) :
    subtreeLength (leftHeight n) < n := by
  have hchunks : (n - 1) / chunkLength ≠ 0 :=
    Nat.pos_iff_ne_zero.mp (Nat.div_pos (Nat.le_sub_one_of_lt h) chunkLength_pos)
  calc
    subtreeLength (leftHeight n) ≤ (n - 1) / chunkLength * chunkLength :=
      Nat.mul_le_mul_right _ (Nat.log2_self_le hchunks)
    _ ≤ n - 1 := Nat.div_mul_le_self _ _
    _ < n := by omega

/-- The topmost block of a content of which the first chunk has the number `first`. -/
def treeOutput (first : Nat) (bytes : Bytes) : Output :=
  if bytes.length ≤ chunkLength then chunkOutput first bytes
  else
    let height := leftHeight bytes.length
    parentOutput ((treeOutput first (bytes.take (subtreeLength height))).compress false)
      ((treeOutput (first + 2 ^ height) (bytes.drop (subtreeLength height))).compress false)
termination_by bytes.length
decreasing_by
  · have hleft := subtreeLength_leftHeight_lt (Nat.lt_of_not_le ‹¬ bytes.length ≤ chunkLength›)
    rw [List.length_take]
    omega
  · have hleft := subtreeLength_pos (leftHeight bytes.length)
    rw [List.length_drop]
    omega

/-- The value of a subtree. -/
def treeValue (first : Nat) (bytes : Bytes) : ChainingValue :=
  (treeOutput first bytes).compress false

/-- The digest of a content, by its tree. -/
def treeDigest (bytes : Bytes) : Bytes :=
  ((treeOutput 0 bytes).compress true).toList.flatMap bytesOf

theorem treeOutput_of_le {first : Nat} {bytes : Bytes} (h : bytes.length ≤ chunkLength) :
    treeOutput first bytes = chunkOutput first bytes := by
  rw [treeOutput, if_pos h]

/-- A subtree goes to the left if it is at least half of what there is. -/
theorem leftHeight_eq {n g : Nat} (hlow : subtreeLength g < n) (hhigh : n ≤ subtreeLength (g + 1)) :
    leftHeight n = g := by
  have hle : 2 ^ g ≤ (n - 1) / chunkLength := by
    rw [Nat.le_div_iff_mul_le chunkLength_pos]
    exact Nat.le_sub_one_of_lt hlow
  have hlt : (n - 1) / chunkLength < 2 ^ (g + 1) := by
    rw [Nat.div_lt_iff_lt_mul chunkLength_pos]
    exact Nat.sub_one_lt_of_le (Nat.zero_lt_of_lt hlow) hhigh
  have hpos := Nat.two_pow_pos g
  exact (Nat.log2_eq_iff (by omega)).mpr ⟨hle, hlt⟩

section Joining

variable {first g : Nat} {left right : Bytes}

/-- A complete subtree, with at most as much behind it, is the left part of the tree of both. -/
theorem treeOutput_append (hleft : left.length = subtreeLength g) (hne : right ≠ [])
    (hright : right.length ≤ subtreeLength g) :
    treeOutput first (left ++ right) =
      parentOutput (treeValue first left) (treeValue (first + 2 ^ g) right) := by
  have hpos := List.length_pos_iff.mpr hne
  have hchunk := chunkLength_le_subtreeLength g
  have hdouble := subtreeLength_succ g
  have hlength : (left ++ right).length = subtreeLength g + right.length := by
    rw [List.length_append, hleft]
  have hheight : leftHeight (left ++ right).length = g :=
    leftHeight_eq (by omega) (by omega)
  rw [treeOutput, if_neg (by omega)]
  dsimp only
  rw [hheight, ← hleft, List.take_left, List.drop_left, treeValue, treeValue]

theorem treeValue_append (hleft : left.length = subtreeLength g)
    (hright : right.length = subtreeLength g) :
    treeValue first (left ++ right) =
      (parentOutput (treeValue first left) (treeValue (first + 2 ^ g) right)).compress false := by
  have hne : right ≠ [] := by
    rw [← List.length_pos_iff, hright]
    exact subtreeLength_pos g
  rw [treeValue, treeOutput_append hleft hne (Nat.le_of_eq hright)]

end Joining

/-! ## Chunks -/

namespace Chunk

/-- How far a chunk has been taken: by `n` bytes, of which a block is compressed only when another
byte comes. -/
structure Taken (c : Chunk) (n : Nat) : Prop where
  total : c.blocks * blockLength + c.length = n
  length_eq : c.length = c.pending.length
  length_le : c.length ≤ blockLength
  length_pos : 0 < n → 0 < c.length

theorem taken_new (counter : Nat) : Taken { counter } 0 :=
  ⟨rfl, rfl, Nat.zero_le _, id⟩

variable {c : Chunk} {n : Nat}

theorem Taken.push (h : c.Taken n) (b : UInt8) : (c.push b).Taken (n + 1) := by
  have hblock : 0 < blockLength := by decide
  obtain ⟨htotal, heq, hle, -⟩ := h
  rw [Chunk.push]
  split
  · next hfull =>
    rw [beq_iff_eq] at hfull
    refine ⟨?_, rfl, hblock, fun _ => Nat.one_pos⟩
    rw [← htotal, hfull]
    exact congrArg (· + 1) (Nat.succ_mul _ _)
  · next hroom =>
    rw [beq_iff_eq] at hroom
    refine ⟨congrArg (· + 1) htotal, ?_, Nat.lt_of_le_of_ne hle hroom, fun _ => Nat.succ_pos _⟩
    exact congrArg (· + 1) heq

theorem Taken.foldl_push (h : c.Taken n) (bytes : Bytes) :
    (bytes.foldl Chunk.push c).Taken (n + bytes.length) := by
  induction bytes generalizing c n with
  | nil => exact h
  | cons b bytes ih =>
    have hrest := ih (h.push b)
    rw [Nat.add_assoc, Nat.add_comm 1] at hrest
    exact hrest

theorem Taken.isFull_iff (h : c.Taken n) : c.isFull = true ↔ n = chunkLength := by
  obtain ⟨htotal, -, hle, hpos⟩ := h
  rw [isFull, Bool.and_eq_true, beq_iff_eq, beq_iff_eq]
  simp only [chunkLength, blockLength, blocksPerChunk] at *
  omega

/-- Taking bytes one by one compresses them block by block. -/
theorem Taken.output_foldl_push (h : c.Taken n) (bytes : Bytes) :
    (bytes.foldl Chunk.push c).output true =
      blocksOutput c.counter c.value (c.blocks == 0) (c.pending.reverse ++ bytes) := by
  have hlength : c.pending.reverse.length = c.length := by
    rw [List.length_reverse, h.length_eq]
  induction bytes generalizing c n with
  | nil =>
    rw [List.append_nil, blocksOutput_of_le (hlength ▸ h.length_le), hlength]
    rfl
  | cons b bytes ih =>
    have hpushed := h.push b
    rw [List.foldl_cons, ih hpushed (by rw [List.length_reverse, hpushed.length_eq]), Chunk.push]
    split
    · next hfull =>
      -- The block that waits is compressed for the byte behind it.
      rw [beq_iff_eq] at hfull
      rw [blocksOutput_append (hlength.trans hfull) (List.cons_ne_nil b bytes), ← hfull]
      rfl
    · rw [List.reverse_cons, List.append_assoc, List.singleton_append]

theorem output_of_bytes (counter : Nat) (bytes : Bytes) :
    (bytes.foldl Chunk.push { counter }).output true = chunkOutput counter bytes :=
  (taken_new counter).output_foldl_push bytes

theorem isFull_of_bytes_iff (counter : Nat) (bytes : Bytes) :
    (bytes.foldl Chunk.push { counter }).isFull = true ↔ bytes.length = chunkLength := by
  rw [((taken_new counter).foldl_push bytes).isFull_iff, Nat.zero_add]

theorem counter_push (c : Chunk) (b : UInt8) : (c.push b).counter = c.counter := by
  rw [Chunk.push]
  split <;> rfl

theorem counter_foldl_push (c : Chunk) (bytes : Bytes) :
    (bytes.foldl Chunk.push c).counter = c.counter := by
  induction bytes generalizing c with
  | nil => rfl
  | cons b bytes ih => rw [List.foldl_cons, ih, counter_push]

end Chunk

/-! ## The stack -/

namespace Hasher

/-- The values of the complete subtrees of a content of `n` pieces, each of the height `g`: the bits
of `n` say which heights there are, the lowest one on top. -/
inductive Stacked : Nat → Nat → Bytes → List ChainingValue → Prop
  | none (g : Nat) : Stacked g 0 [] []
  | even {g n : Nat} {front : Bytes} {stack : List ChainingValue}
      (h : Stacked (g + 1) n front stack) : Stacked g (2 * n) front stack
  | odd {g n : Nat} {front last : Bytes} {stack : List ChainingValue}
      (h : Stacked (g + 1) n front stack) (hlast : last.length = subtreeLength g) :
      Stacked g (2 * n + 1) (front ++ last) (treeValue (front.length / chunkLength) last :: stack)

section Stacked

variable {g n : Nat} {front last : Bytes} {stack : List ChainingValue}

/-- Without pieces there is no subtree. -/
theorem Stacked.eq_nil (h : Stacked g n front stack) (hn : n = 0) : front = [] ∧ stack = [] := by
  induction h with
  | none => exact ⟨rfl, rfl⟩
  | even _ ih => exact ih (by omega)
  | odd => omega

/-- The number of the chunk behind a complete subtree. -/
theorem div_chunkLength_append {above sub : Bytes} (hsub : sub.length = subtreeLength g) :
    (above ++ sub).length / chunkLength = above.length / chunkLength + 2 ^ g := by
  rw [List.length_append, hsub, subtreeLength, Nat.add_mul_div_right _ _ chunkLength_pos]

theorem join_odd (stack : List ChainingValue) (value : ChainingValue) (n : Nat) :
    join stack value (2 * n + 1) = value :: stack := by
  cases stack with
  | nil => rfl
  | cons left rest => rw [join, if_neg (by omega)]

theorem join_even (left : ChainingValue) (rest : List ChainingValue) (value : ChainingValue)
    (n : Nat) :
    join (left :: rest) value (2 * n) = join rest ((parentOutput left value).compress false) n := by
  rw [join, if_pos (Nat.mul_mod_right 2 n), Nat.mul_div_cancel_left n Nat.two_pos]

/-- A piece more is joined with the subtrees that are as large as what it makes. -/
theorem Stacked.join (h : Stacked g n front stack) (hlast : last.length = subtreeLength g) :
    Stacked g (n + 1) (front ++ last)
      (join stack (treeValue (front.length / chunkLength) last) (n + 1)) := by
  induction h generalizing last with
  | none g => exact .odd (.none (g + 1)) hlast
  | @even g n front stack h ih =>
    rw [join_odd]
    exact .odd h hlast
  | @odd g n front sub stack h hsub ih =>
    -- The topmost subtree is the left sibling of the piece.
    have hboth : (sub ++ last).length = subtreeLength (g + 1) := by
      rw [List.length_append, hsub, hlast, subtreeLength_succ, Nat.two_mul]
    have hjoined := ih hboth
    rw [treeValue_append hsub hlast, ← div_chunkLength_append hsub, ← List.append_assoc] at hjoined
    rw [show 2 * n + 1 + 1 = 2 * (n + 1) by omega, join_even]
    exact .even hjoined

/-- Joined with the tree of what comes behind them, the subtrees give the tree of all. -/
theorem Stacked.foldl_parentOutput (h : Stacked g n front stack) (hne : last ≠ [])
    (hlast : last.length ≤ subtreeLength g) :
    stack.foldl (fun o left => parentOutput left (o.compress false))
        (treeOutput (front.length / chunkLength) last) =
      treeOutput 0 (front ++ last) := by
  induction h generalizing last with
  | none => rw [List.length_nil, Nat.zero_div, List.foldl_nil, List.nil_append]
  | @even g n front stack h ih =>
    have hdouble := subtreeLength_succ g
    exact ih hne (by omega)
  | @odd g n front sub stack h hsub ih =>
    have hdouble := subtreeLength_succ g
    have hboth : (sub ++ last).length ≤ subtreeLength (g + 1) := by
      rw [List.length_append, hsub]
      omega
    rw [List.foldl_cons, div_chunkLength_append hsub, List.append_assoc,
      ← ih (List.append_ne_nil_of_right_ne_nil sub hne) hboth, treeOutput_append hsub hne hlast]
    rfl

end Stacked

/-! ## The hasher -/

/-- A hasher that has taken some bytes: those at the end, which are at most a chunk, are in its chunk,
and the subtrees of the chunks before are on its stack. -/
structure Holds (h : Hasher) (front last : Bytes) : Prop where
  chunk : h.chunk = last.foldl Chunk.push { counter := front.length / chunkLength }
  stack : Stacked 0 (front.length / chunkLength) front h.stack
  last_le : last.length ≤ chunkLength
  front_eq_nil : last = [] → front = []

variable {h : Hasher} {front last : Bytes}

theorem holds_new : Holds {} [] [] :=
  ⟨rfl, .none 0, Nat.zero_le _, fun _ => rfl⟩

theorem Holds.push (hold : h.Holds front last) (b : UInt8) :
    ∃ front' last', front' ++ last' = front ++ last ++ [b] ∧ (h.push b).Holds front' last' := by
  have hfull := Chunk.isFull_of_bytes_iff (front.length / chunkLength) last
  rw [← hold.chunk] at hfull
  rw [Hasher.push, advance]
  split
  · next hisFull =>
    have hlength := hfull.mp hisFull
    rw [← subtreeLength_zero] at hlength
    refine ⟨front ++ last, [b], rfl, ?_, ?_, ?_, nofun⟩
    · dsimp only
      rw [div_chunkLength_append hlength, hold.chunk, Chunk.counter_foldl_push]
      rfl
    · dsimp only
      rw [div_chunkLength_append hlength, hold.chunk, Chunk.counter_foldl_push, Chunk.output_of_bytes,
        ← treeOutput_of_le hold.last_le]
      exact hold.stack.join hlength
    · exact chunkLength_pos
  · next hisFull =>
    rw [hfull] at hisFull
    refine ⟨front, last ++ [b], (List.append_assoc _ _ _).symm, ?_, hold.stack, ?_, ?_⟩
    · dsimp only
      rw [hold.chunk, List.foldl_append]
      rfl
    · have hle := hold.last_le
      rw [List.length_append, List.length_singleton]
      omega
    · intro hnil
      simp at hnil

theorem Holds.update (hold : h.Holds front last) (bytes : Bytes) :
    ∃ front' last', front' ++ last' = front ++ last ++ bytes ∧ (h.update bytes).Holds front' last' := by
  induction bytes generalizing h front last with
  | nil => exact ⟨front, last, (List.append_nil _).symm, hold⟩
  | cons b bytes ih =>
    obtain ⟨front₁, last₁, hpushed, hold₁⟩ := hold.push b
    obtain ⟨front₂, last₂, hupdated, hold₂⟩ := ih hold₁
    refine ⟨front₂, last₂, ?_, hold₂⟩
    rw [hupdated, hpushed, List.append_assoc, List.singleton_append]

theorem Holds.finalOutput_eq (hold : h.Holds front last) :
    h.finalOutput = treeOutput 0 (front ++ last) := by
  rw [finalOutput, hold.chunk, Chunk.output_of_bytes, ← treeOutput_of_le hold.last_le]
  by_cases hne : last = []
  · -- Then there is nothing at all.
    have hfront := hold.front_eq_nil hne
    have hnone : front.length / chunkLength = 0 := by
      rw [hfront, List.length_nil, Nat.zero_div]
    rw [(hold.stack.eq_nil hnone).2, hnone, hfront]
    rfl
  · exact hold.stack.foldl_parentOutput hne (subtreeLength_zero ▸ hold.last_le)

end Hasher

/-- A hasher gives the digest by the tree. -/
theorem digest_eq_treeDigest (bytes : Bytes) : digest bytes = treeDigest bytes := by
  obtain ⟨front, last, hbytes, hold⟩ := Hasher.holds_new.update bytes
  rw [digest, Hasher.finish, hold.finalOutput_eq, hbytes, treeDigest]
  rfl

example : Text.Hex.encode (treeDigest []) =
    "af1349b9f5f9a1a6a0404dea36dcc9499bcb25c9adc112b7cc9a93cae41f3262" := by
  rw [← digest_eq_treeDigest]
  decide +kernel

end SyncEndpoint.Digest
