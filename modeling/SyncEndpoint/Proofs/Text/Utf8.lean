import Mathlib.Data.List.Basic
import SyncEndpoint.Text.Utf8

set_option autoImplicit false

/-! # Reading back what UTF-8 wrote

`decodeLossy` and `decode?` are left inverses of `encode`: the byte reader turns the bytes of each
character into that character and stands at the start of a sequence again. It follows that two
texts with the same bytes are equal. The bytes below `0x80` occur in an encoding only as the
characters with these numbers, so that a split at such a byte is a split at a character. What comes
first by its characters comes first by its bytes. -/

namespace SyncEndpoint.Text.Utf8

/-! ## Encodings -/

@[simp]
theorem encodeChars_nil : encodeChars [] = [] := rfl

theorem encodeChars_cons (c : Char) (cs : List Char) :
    encodeChars (c :: cs) = String.utf8EncodeChar c ++ encodeChars cs := by
  simp [encodeChars]

/-- The number of a character is in one of the two ranges of scalar values. -/
theorem toNat_range (c : Char) :
    c.toNat < 0xD800 ∨ 0xDFFF < c.toNat ∧ c.toNat < 0x110000 := c.valid

/-! ## The reader on the bytes of one character -/

/-- What the reader does with a byte at the start of a sequence, by the number of the byte. -/
theorem Reader.first_ofNat (n : Nat) (hn : n < 256) :
    Reader.first (UInt8.ofNat n) =
      if n < 0x80 then ([.scalar (Char.ofNat n)], .start)
      else if n < 0xC2 then ([.broken [UInt8.ofNat n]], .start)
      else if n < 0xE0 then ([], .inside [UInt8.ofNat n] (n - 0xC0) 1 0x80 0xBF)
      else if n = 0xE0 then ([], .inside [UInt8.ofNat n] 0 2 0xA0 0xBF)
      else if n = 0xED then ([], .inside [UInt8.ofNat n] (n - 0xE0) 2 0x80 0x9F)
      else if n < 0xF0 then ([], .inside [UInt8.ofNat n] (n - 0xE0) 2 0x80 0xBF)
      else if n = 0xF0 then ([], .inside [UInt8.ofNat n] 0 3 0x90 0xBF)
      else if n < 0xF4 then ([], .inside [UInt8.ofNat n] (n - 0xF0) 3 0x80 0xBF)
      else if n = 0xF4 then ([], .inside [UInt8.ofNat n] (n - 0xF0) 3 0x80 0x8F)
      else ([.broken [UInt8.ofNat n]], .start) := by
  have toNat : (UInt8.ofNat n).toNat = n := by simp [Nat.mod_eq_of_lt hn]
  have eq_iff : ∀ k : UInt8, (UInt8.ofNat n == k) = decide (n = k.toNat) := by
    intro k
    rw [Bool.eq_iff_iff, beq_iff_eq, decide_eq_true_iff, ← UInt8.toNat_inj, toNat]
  simp only [Reader.first, UInt8.lt_iff_toNat_lt, toNat, eq_iff, decide_eq_true_eq]
  rfl

/-- A byte in the range that the reader waits for, with more to come. -/
theorem piecesFrom_inside (seen : Bytes) (bits missing : Nat) (low high : UInt8) (n : Nat)
    (rest : Bytes) (hlow : low.toNat ≤ n) (hhigh : n ≤ high.toNat) :
    piecesFrom (.inside seen bits (missing + 2) low high) (UInt8.ofNat n :: rest) =
      piecesFrom (.inside (seen ++ [UInt8.ofNat n]) (bits * 64 + (n - 0x80)) (missing + 1)
        0x80 0xBF) rest := by
  have hn : n < 256 := Nat.lt_of_le_of_lt hhigh high.toNat_lt
  have toNat : (UInt8.ofNat n).toNat = n := by simp [Nat.mod_eq_of_lt hn]
  simp [piecesFrom, Reader.push, UInt8.le_iff_toNat_le, toNat, hlow, hhigh]

/-- The last byte of a sequence, in the range that the reader waits for. -/
theorem piecesFrom_last (seen : Bytes) (bits : Nat) (low high : UInt8) (n : Nat) (rest : Bytes)
    (hlow : low.toNat ≤ n) (hhigh : n ≤ high.toNat) :
    piecesFrom (.inside seen bits 1 low high) (UInt8.ofNat n :: rest) =
      .scalar (Char.ofNat (bits * 64 + (n - 0x80))) :: piecesFrom .start rest := by
  have hn : n < 256 := Nat.lt_of_le_of_lt hhigh high.toNat_lt
  have toNat : (UInt8.ofNat n).toNat = n := by simp [Nat.mod_eq_of_lt hn]
  simp [piecesFrom, Reader.push, UInt8.le_iff_toNat_le, toNat, hlow, hhigh]

/-- The first byte of a sequence of two. -/
theorem piecesFrom_two (n : Nat) (rest : Bytes) (hlow : 0xC2 ≤ n) (hhigh : n < 0xE0) :
    piecesFrom .start (UInt8.ofNat n :: rest) =
      piecesFrom (.inside [UInt8.ofNat n] (n - 0xC0) 1 0x80 0xBF) rest := by
  simp only [piecesFrom, Reader.push]
  rw [Reader.first_ofNat n (by omega), if_neg (by omega), if_neg (by omega), if_pos (by omega)]
  rfl

/-- The first byte of a sequence of three. What may follow depends on it, so that nothing is
written in three bytes that fits in two, and no surrogate. -/
theorem piecesFrom_three (n : Nat) (rest : Bytes) (hlow : 0xE0 ≤ n) (hhigh : n < 0xF0) :
    ∃ low high : UInt8,
      piecesFrom .start (UInt8.ofNat n :: rest) =
        piecesFrom (.inside [UInt8.ofNat n] (n - 0xE0) 2 low high) rest ∧
      low.toNat = (if n = 0xE0 then 0xA0 else 0x80) ∧
      high.toNat = (if n = 0xED then 0x9F else 0xBF) := by
  simp only [piecesFrom, Reader.push]
  rw [Reader.first_ofNat n (by omega), if_neg (by omega), if_neg (by omega), if_neg (by omega)]
  by_cases h0 : n = 0xE0
  · subst h0
    exact ⟨0xA0, 0xBF, rfl, rfl, rfl⟩
  · rw [if_neg h0, if_neg h0]
    by_cases hD : n = 0xED
    · subst hD
      exact ⟨0x80, 0x9F, rfl, rfl, rfl⟩
    · rw [if_neg hD, if_neg hD, if_pos hhigh]
      exact ⟨0x80, 0xBF, rfl, rfl, rfl⟩

/-- The first byte of a sequence of four. What may follow depends on it, so that nothing is
written in four bytes that fits in three, and nothing beyond the last code point. -/
theorem piecesFrom_four (n : Nat) (rest : Bytes) (hlow : 0xF0 ≤ n) (hhigh : n ≤ 0xF4) :
    ∃ low high : UInt8,
      piecesFrom .start (UInt8.ofNat n :: rest) =
        piecesFrom (.inside [UInt8.ofNat n] (n - 0xF0) 3 low high) rest ∧
      low.toNat = (if n = 0xF0 then 0x90 else 0x80) ∧
      high.toNat = (if n = 0xF4 then 0x8F else 0xBF) := by
  simp only [piecesFrom, Reader.push]
  rw [Reader.first_ofNat n (by omega), if_neg (by omega), if_neg (by omega), if_neg (by omega),
    if_neg (by omega), if_neg (by omega), if_neg (by omega)]
  by_cases h0 : n = 0xF0
  · subst h0
    exact ⟨0x90, 0xBF, rfl, rfl, rfl⟩
  · rw [if_neg h0, if_neg h0]
    by_cases h4 : n = 0xF4
    · subst h4
      exact ⟨0x80, 0x8F, rfl, rfl, rfl⟩
    · rw [if_neg h4, if_neg h4, if_pos (by omega)]
      exact ⟨0x80, 0xBF, rfl, rfl, rfl⟩

/-- The reader turns the bytes of a character into that character. -/
theorem piecesFrom_encodeChar (c : Char) (rest : Bytes) :
    piecesFrom .start (String.utf8EncodeChar c ++ rest) = .scalar c :: piecesFrom .start rest := by
  have hc : Char.ofNat c.toNat = c := Char.ofNat_toNat c
  have hrange := toNat_range c
  have hv : c.val.toNat = c.toNat := rfl
  simp only [String.utf8EncodeChar, hv]
  generalize c.toNat = v at hc hrange
  -- One case for each length. `hbits` puts the number together again from the bits in the bytes.
  split
  · next h1 =>
    simp only [List.cons_append, List.nil_append, piecesFrom, Reader.push]
    rw [Reader.first_ofNat v (by omega), if_pos (by omega), hc]
    rfl
  · next h1 =>
    split
    · next h2 =>
      have hbits : (v / 64 % 32 + 192 - 192) * 64 + (v % 64 + 128 - 128) = v := by omega
      simp only [List.cons_append, List.nil_append]
      rw [piecesFrom_two _ _ (by omega) (by omega),
        piecesFrom_last _ _ _ _ _ _ (by simp) (by simp; omega), hbits, hc]
    · next h2 =>
      split
      · next h3 =>
        have hbits : ((v / 4096 % 16 + 224 - 224) * 64 + (v / 64 % 64 + 128 - 128)) * 64 +
            (v % 64 + 128 - 128) = v := by omega
        simp only [List.cons_append, List.nil_append]
        obtain ⟨low, high, hlead, hlow, hhigh⟩ :=
          piecesFrom_three (v / 4096 % 16 + 224)
            (UInt8.ofNat (v / 64 % 64 + 128) :: UInt8.ofNat (v % 64 + 128) :: rest)
            (by omega) (by omega)
        rw [hlead, piecesFrom_inside _ _ 0 _ _ _ _ (by split at hlow <;> omega)
            (by split at hhigh <;> omega),
          piecesFrom_last _ _ _ _ _ _ (by simp) (by simp; omega), hbits, hc]
      · next h3 =>
        have hbits : (((v / 262144 % 8 + 240 - 240) * 64 + (v / 4096 % 64 + 128 - 128)) * 64 +
            (v / 64 % 64 + 128 - 128)) * 64 + (v % 64 + 128 - 128) = v := by omega
        simp only [List.cons_append, List.nil_append]
        obtain ⟨low, high, hlead, hlow, hhigh⟩ :=
          piecesFrom_four (v / 262144 % 8 + 240)
            (UInt8.ofNat (v / 4096 % 64 + 128) :: UInt8.ofNat (v / 64 % 64 + 128) ::
              UInt8.ofNat (v % 64 + 128) :: rest)
            (by omega) (by omega)
        rw [hlead, piecesFrom_inside _ _ 1 _ _ _ _ (by split at hlow <;> omega)
            (by split at hhigh <;> omega),
          piecesFrom_inside _ _ 0 _ _ _ _ (by simp) (by simp; omega),
          piecesFrom_last _ _ _ _ _ _ (by simp) (by simp; omega), hbits, hc]

/-! ## Reading back a text -/

theorem piecesFrom_encodeChars (cs : List Char) :
    piecesFrom .start (encodeChars cs) = cs.map Piece.scalar := by
  induction cs with
  | nil => rfl
  | cons c cs ih => rw [encodeChars_cons, piecesFrom_encodeChar, ih, List.map_cons]

theorem pieces_encode (s : String) : pieces (encode s) = s.toList.map Piece.scalar :=
  piecesFrom_encodeChars s.toList

@[simp]
theorem decodeLossy_encode (s : String) : decodeLossy (encode s) = s := by
  have hlossy : Piece.lossy ∘ Piece.scalar = id := rfl
  rw [decodeLossy, pieces_encode, List.map_map, hlossy, List.map_id, String.ofList_toList]

@[simp]
theorem decode?_encode (s : String) : decode? (encode s) = some s := by
  have hscalars : ∀ cs : List Char, (cs.map Piece.scalar).mapM Piece.scalar? = some cs := by
    intro cs
    induction cs with
    | nil => rfl
    | cons c cs ih => simp [Piece.scalar?, ih]
  simp [decode?, pieces_encode, hscalars]

/-- Two texts with the same bytes are equal. -/
theorem encode_injective : Function.Injective encode := by
  intro s t h
  rw [← decodeLossy_encode s, h, decodeLossy_encode]

@[simp]
theorem encode_inj {s t : String} : encode s = encode t ↔ s = t :=
  encode_injective.eq_iff

/-! ## Bytes below `0x80` -/

/-- A byte below `0x80` occurs only in the encoding of the character with its number. -/
theorem mem_encodeChar_of_lt (c : Char) (n : Nat) (hn : n < 0x80) :
    UInt8.ofNat n ∈ String.utf8EncodeChar c ↔ c.toNat = n := by
  have hv : c.val.toNat = c.toNat := rfl
  have ofNat_inj : ∀ k, k < 256 → (UInt8.ofNat n = UInt8.ofNat k ↔ n = k) := by
    intro k hk
    rw [← UInt8.toNat_inj]
    simp [Nat.mod_eq_of_lt hk, Nat.mod_eq_of_lt (show n < 256 by omega)]
  have hrange := toNat_range c
  simp only [String.utf8EncodeChar, hv]
  generalize c.toNat = v at hrange
  -- The bytes of longer encodings are all `0x80` or more.
  split
  · next h1 => rw [List.mem_singleton, ofNat_inj _ (by omega), eq_comm]
  · next h1 =>
    split
    · next h2 =>
      simp only [List.mem_cons, List.not_mem_nil, or_false]
      rw [ofNat_inj _ (by omega), ofNat_inj _ (by omega)]
      omega
    · next h2 =>
      split
      · next h3 =>
        simp only [List.mem_cons, List.not_mem_nil, or_false]
        rw [ofNat_inj _ (by omega), ofNat_inj _ (by omega), ofNat_inj _ (by omega)]
        omega
      · next h3 =>
        simp only [List.mem_cons, List.not_mem_nil, or_false]
        rw [ofNat_inj _ (by omega), ofNat_inj _ (by omega), ofNat_inj _ (by omega),
          ofNat_inj _ (by omega)]
        omega

/-- A character below `0x80` is written as the byte with its number. -/
theorem encodeChar_of_lt (c : Char) (hc : c.toNat < 0x80) :
    String.utf8EncodeChar c = [UInt8.ofNat c.toNat] := by
  have hv : c.val.toNat = c.toNat := rfl
  simp only [String.utf8EncodeChar, hv]
  rw [if_pos (by omega)]

theorem encodeChars_of_lt {cs : List Char} (h : ∀ c ∈ cs, c.toNat < 0x80) :
    encodeChars cs = cs.map fun c => UInt8.ofNat c.toNat := by
  induction cs with
  | nil => rfl
  | cons c cs ih =>
    rw [List.forall_mem_cons] at h
    rw [encodeChars_cons, encodeChar_of_lt c h.1, ih h.2, List.singleton_append, List.map_cons]

/-! ## The order of texts -/

theorem ofNat_cons_lt {a b : Nat} {u v : Bytes} (ha : a < 256) (hb : b < 256) (hle : a ≤ b)
    (h : a = b → u < v) : UInt8.ofNat a :: u < UInt8.ofNat b :: v := by
  rw [List.cons_lt_cons_iff]
  by_cases heq : a = b
  · exact Or.inr ⟨congrArg UInt8.ofNat heq, h heq⟩
  · refine Or.inl ?_
    rw [UInt8.lt_iff_toNat_lt, UInt8.toNat_ofNat_of_lt' ha, UInt8.toNat_ofNat_of_lt' hb]
    omega

/-- The bytes of a smaller character come first, whatever is behind them. -/
theorem encodeChar_append_lt {c d : Char} (h : c < d) (u v : Bytes) :
    String.utf8EncodeChar c ++ u < String.utf8EncodeChar d ++ v := by
  have hc := toNat_range c
  have hd := toNat_range d
  have hlt : c.toNat < d.toNat := h
  have hvc : c.val.toNat = c.toNat := rfl
  have hvd : d.val.toNat = d.toNat := rfl
  simp only [String.utf8EncodeChar, hvc, hvd]
  generalize c.toNat = x at hc hlt
  generalize d.toNat = y at hd hlt
  -- Of two lengths the smaller one has the smaller first byte; in the same length the bits of the
  -- number come in order. That all bytes are equal contradicts `hlt`.
  repeat' split
  all_goals
    simp only [List.cons_append, List.nil_append]
    repeat' refine ofNat_cons_lt (by omega) (by omega) (by omega) fun _ => ?_
    omega

theorem encodeChars_lt_encodeChars {cs ds : List Char} (h : cs < ds) :
    encodeChars cs < encodeChars ds := by
  induction h with
  | @nil d ds =>
    have hne : String.utf8EncodeChar d ≠ [] := String.utf8EncodeChar_ne_nil
    obtain ⟨b, bs, hbytes⟩ := List.exists_cons_of_ne_nil hne
    rw [encodeChars_nil, encodeChars_cons, hbytes]
    exact .nil
  | rel hlt =>
    rw [encodeChars_cons, encodeChars_cons]
    exact encodeChar_append_lt hlt _ _
  | cons _ ih =>
    rw [encodeChars_cons, encodeChars_cons]
    exact List.append_left_lt ih

/-- A text that comes before another one has bytes that come before the other's. -/
theorem encode_lt_encode {s t : String} (h : s < t) : encode s < encode t :=
  encodeChars_lt_encodeChars (String.lt_iff.mp h)

end SyncEndpoint.Text.Utf8
