import SyncEndpoint.Proofs.Text.Utf8

set_option autoImplicit false

/-! # What a byte string is shown as

The reader loses no byte: the pieces that it reads, each with the bytes that it was read from, are
the byte string again. So a character below `0x80` is shown only where its byte stands, and a text
that has no replacement character in it is shown for no bytes but its own. -/

namespace SyncEndpoint.Text.Utf8

/-- The bytes that a piece was read from. -/
def Piece.bytes : Piece → Bytes
  | .scalar c => String.utf8EncodeChar c
  | .broken bytes => bytes

/-- The bytes that a reader holds back. -/
def Reader.held : Reader → Bytes
  | .start => []
  | .inside seen _ _ _ _ => seen

/-! ## The bytes of a character put together from its bits -/

theorem toNat_ofNat {n : Nat} (h : n < 0xD800 ∨ 0xDFFF < n ∧ n < 0x110000) :
    (Char.ofNat n).val.toNat = n := by
  have hvalid : n.isValidChar := h
  rw [Char.ofNat, dif_pos hvalid]
  rfl

theorem encodeChar_ofNat_two {a b : Nat} (ha : 2 ≤ a) (ha' : a < 32) (hb : b < 64) :
    String.utf8EncodeChar (Char.ofNat (a * 64 + b)) =
      [UInt8.ofNat (a + 0xC0), UInt8.ofNat (b + 0x80)] := by
  have hlead : (a * 64 + b) / 64 % 32 = a := by omega
  have hlast : (a * 64 + b) % 64 = b := by omega
  simp only [String.utf8EncodeChar, toNat_ofNat (show a * 64 + b < 0xD800 ∨ _ by omega)]
  rw [if_neg (by omega), if_pos (by omega), hlead, hlast]

theorem encodeChar_ofNat_three {a b c : Nat} (ha : a < 16) (hb : b < 64) (hc : c < 64)
    (hlong : a = 0 → 32 ≤ b) (hscalar : a = 13 → b < 32) :
    String.utf8EncodeChar (Char.ofNat ((a * 64 + b) * 64 + c)) =
      [UInt8.ofNat (a + 0xE0), UInt8.ofNat (b + 0x80), UInt8.ofNat (c + 0x80)] := by
  have hlead : ((a * 64 + b) * 64 + c) / 4096 % 16 = a := by omega
  have hnext : ((a * 64 + b) * 64 + c) / 64 % 64 = b := by omega
  have hlast : ((a * 64 + b) * 64 + c) % 64 = c := by omega
  simp only [String.utf8EncodeChar,
    toNat_ofNat (show (a * 64 + b) * 64 + c < 0xD800 ∨ _ by omega)]
  rw [if_neg (by omega), if_neg (by omega), if_pos (by omega), hlead, hnext, hlast]

theorem encodeChar_ofNat_four {a b c d : Nat} (ha : a < 5) (hb : b < 64) (hc : c < 64)
    (hd : d < 64) (hlong : a = 0 → 16 ≤ b) (hscalar : a = 4 → b < 16) :
    String.utf8EncodeChar (Char.ofNat (((a * 64 + b) * 64 + c) * 64 + d)) =
      [UInt8.ofNat (a + 0xF0), UInt8.ofNat (b + 0x80), UInt8.ofNat (c + 0x80),
        UInt8.ofNat (d + 0x80)] := by
  have hlead : (((a * 64 + b) * 64 + c) * 64 + d) / 262144 % 8 = a := by omega
  have hnext : (((a * 64 + b) * 64 + c) * 64 + d) / 4096 % 64 = b := by omega
  have hthird : (((a * 64 + b) * 64 + c) * 64 + d) / 64 % 64 = c := by omega
  have hlast : (((a * 64 + b) * 64 + c) * 64 + d) % 64 = d := by omega
  simp only [String.utf8EncodeChar,
    toNat_ofNat (show ((a * 64 + b) * 64 + c) * 64 + d < 0xD800 ∨ _ by omega)]
  rw [if_neg (by omega), if_neg (by omega), if_neg (by omega), hlead, hnext, hthird, hlast]

/-! ## The reader -/

/-- However a sequence goes on of which `seen` was read, as long as each byte is in the range that
the reader waits for, it ends as the bytes of the character that the reader makes of its bits. -/
def Completes : Nat → Bytes → Nat → UInt8 → UInt8 → Prop
  | 0, seen, bits, _, _ => String.utf8EncodeChar (Char.ofNat bits) = seen
  | missing + 1, seen, bits, low, high =>
    ∀ n : Nat, low.toNat ≤ n → n ≤ high.toNat →
      Completes missing (seen ++ [UInt8.ofNat n]) (bits * 64 + (n - 0x80)) 0x80 0xBF

/-- The reader is at the start, or in a sequence that can only become that of a character. -/
def Reader.Sound : Reader → Prop
  | .start => True
  | .inside seen bits missing low high =>
    ∃ more, missing = more + 1 ∧ Completes missing seen bits low high

section Lead

variable {n : Nat} {low high : UInt8}

theorem completes_two (hlow : 0xC2 ≤ n) (hhigh : n < 0xE0) :
    Completes 1 [UInt8.ofNat n] (n - 0xC0) 0x80 0xBF := by
  intro k hk hk'
  have hk : 0x80 ≤ k := hk
  have hk' : k ≤ 0xBF := hk'
  rw [Completes, encodeChar_ofNat_two (by omega) (by omega) (by omega), Nat.sub_add_cancel (by omega),
    Nat.sub_add_cancel hk]
  rfl

theorem completes_three (hlow : 0xE0 ≤ n) (hhigh : n < 0xF0)
    (hfirst : low.toNat = if n = 0xE0 then 0xA0 else 0x80)
    (hlast : high.toNat = if n = 0xED then 0x9F else 0xBF) :
    Completes 2 [UInt8.ofNat n] (n - 0xE0) low high := by
  intro k hk hk' l hl hl'
  have hl : 0x80 ≤ l := hl
  have hl' : l ≤ 0xBF := hl'
  have hk₀ : 0x80 ≤ k := by split at hfirst <;> omega
  have hk₁ : k ≤ 0xBF := by split at hlast <;> omega
  rw [Completes, encodeChar_ofNat_three (by omega) (by omega) (by omega)
      (by split at hfirst <;> omega) (by split at hlast <;> omega), Nat.sub_add_cancel hlow,
    Nat.sub_add_cancel hk₀, Nat.sub_add_cancel hl]
  rfl

theorem completes_four (hlow : 0xF0 ≤ n) (hhigh : n ≤ 0xF4)
    (hfirst : low.toNat = if n = 0xF0 then 0x90 else 0x80)
    (hlast : high.toNat = if n = 0xF4 then 0x8F else 0xBF) :
    Completes 3 [UInt8.ofNat n] (n - 0xF0) low high := by
  intro k hk hk' l hl hl' m hm hm'
  have hl : 0x80 ≤ l := hl
  have hl' : l ≤ 0xBF := hl'
  have hm : 0x80 ≤ m := hm
  have hm' : m ≤ 0xBF := hm'
  have hk₀ : 0x80 ≤ k := by split at hfirst <;> omega
  have hk₁ : k ≤ 0xBF := by split at hlast <;> omega
  rw [Completes, encodeChar_ofNat_four (by omega) (by omega) (by omega) (by omega)
      (by split at hfirst <;> omega) (by split at hlast <;> omega), Nat.sub_add_cancel hlow,
    Nat.sub_add_cancel hk₀, Nat.sub_add_cancel hl, Nat.sub_add_cancel hm]
  rfl

end Lead

/-- The bytes of all the pieces. -/
def bytesOf (ps : List Piece) : Bytes :=
  ps.flatMap Piece.bytes

/-- A byte at the start of a sequence is held back or made a piece of. -/
theorem Reader.first_sound (b : UInt8) :
    bytesOf (Reader.first b).1 ++ (Reader.first b).2.held = [b] ∧ (Reader.first b).2.Sound := by
  obtain ⟨n, hn, rfl⟩ : ∃ n < 256, b = UInt8.ofNat n := ⟨b.toNat, b.toNat_lt, by simp⟩
  rw [Reader.first_ofNat n hn]
  repeat' split
  · have hscalar : String.utf8EncodeChar (Char.ofNat n) = [UInt8.ofNat n] := by
      have htoNat : (Char.ofNat n).toNat = n := toNat_ofNat (Or.inl (by omega))
      rw [encodeChar_of_lt _ (by omega), htoNat]
    exact ⟨by simp [bytesOf, Piece.bytes, Reader.held, hscalar], trivial⟩
  · exact ⟨rfl, trivial⟩
  · exact ⟨rfl, 0, rfl, completes_two (by omega) (by omega)⟩
  · exact ⟨rfl, 1, rfl, by subst n; exact completes_three (n := 0xE0) (by decide) (by decide) rfl rfl⟩
  · exact ⟨rfl, 1, rfl, by subst n; exact completes_three (n := 0xED) (by decide) (by decide) rfl rfl⟩
  · exact ⟨rfl, 1, rfl, completes_three (by omega) (by omega) (by rw [if_neg (by omega)]; rfl)
      (by rw [if_neg (by omega)]; rfl)⟩
  · exact ⟨rfl, 2, rfl, by subst n; exact completes_four (n := 0xF0) (by decide) (by decide) rfl rfl⟩
  · exact ⟨rfl, 2, rfl, completes_four (by omega) (by omega) (by rw [if_neg (by omega)]; rfl)
      (by rw [if_neg (by omega)]; rfl)⟩
  · exact ⟨rfl, 2, rfl, by subst n; exact completes_four (n := 0xF4) (by decide) (by decide) rfl rfl⟩
  · exact ⟨rfl, trivial⟩

/-- No byte is lost where a byte is read. -/
theorem Reader.Sound.push {r : Reader} (h : r.Sound) (b : UInt8) :
    bytesOf (r.push b).1 ++ (r.push b).2.held = r.held ++ [b] ∧ (r.push b).2.Sound := by
  cases r with
  | start => exact Reader.first_sound b
  | inside seen bits missing low high =>
    obtain ⟨more, rfl, hcompletes⟩ := h
    rw [Reader.push]
    split
    · next hrange =>
      rw [Bool.and_eq_true, decide_eq_true_eq, decide_eq_true_eq, UInt8.le_iff_toNat_le,
        UInt8.le_iff_toNat_le] at hrange
      have hnext := hcompletes b.toNat hrange.1 hrange.2
      rw [UInt8.ofNat_toNat] at hnext
      cases more with
      | zero =>
        rw [Completes] at hnext
        exact ⟨by simpa [bytesOf, Piece.bytes, Reader.held] using hnext, trivial⟩
      | succ more => exact ⟨rfl, more, rfl, hnext⟩
    · obtain ⟨hbytes, hsound⟩ := Reader.first_sound b
      exact ⟨by simpa [bytesOf, Piece.bytes, Reader.held] using hbytes, hsound⟩

theorem bytesOf_piecesFrom (bs : Bytes) {r : Reader} (h : r.Sound) :
    bytesOf (piecesFrom r bs) = r.held ++ bs := by
  induction bs generalizing r with
  | nil => cases r <;> simp [piecesFrom, Reader.finish, bytesOf, Piece.bytes, Reader.held]
  | cons b bs ih =>
    obtain ⟨hbytes, hsound⟩ := h.push b
    rw [piecesFrom, bytesOf, List.flatMap_append, ← bytesOf, ← bytesOf, ih hsound, ← List.append_assoc,
      hbytes, List.append_assoc, List.singleton_append]

/-- The pieces of a byte string are all of it. -/
theorem bytesOf_pieces (bs : Bytes) : bytesOf (pieces bs) = bs :=
  bytesOf_piecesFrom bs (r := .start) trivial

/-! ## What is shown -/

/-- A character below `0x80` that is shown stands in the byte string. -/
theorem ofNat_mem_of_mem_decodeLossy {bs : Bytes} {c : Char} (hc : c.toNat < 0x80)
    (h : c ∈ (decodeLossy bs).toList) : UInt8.ofNat c.toNat ∈ bs := by
  rw [decodeLossy, String.toList_ofList, List.mem_map] at h
  obtain ⟨piece, hpiece, rfl⟩ := h
  cases piece with
  | broken bytes =>
    have hreplacement : ¬ replacement.toNat < 0x80 := by decide
    exact absurd hc hreplacement
  | scalar c =>
    rw [← bytesOf_pieces bs, bytesOf, List.mem_flatMap]
    exact ⟨_, hpiece, (mem_encodeChar_of_lt c c.toNat hc).mpr rfl⟩

/-- A text without the replacement character is shown for its own bytes only. -/
theorem eq_encode_of_decodeLossy {bs : Bytes} (h : replacement ∉ (decodeLossy bs).toList) :
    bs = encode (decodeLossy bs) := by
  rw [decodeLossy, String.toList_ofList] at h
  have hscalars : ∀ ps : List Piece, replacement ∉ ps.map Piece.lossy →
      bytesOf ps = encodeChars (ps.map Piece.lossy) := by
    intro ps hps
    induction ps with
    | nil => rfl
    | cons p ps ih =>
      rw [List.map_cons, List.mem_cons, not_or] at hps
      cases p with
      | broken bytes => exact absurd rfl hps.1
      | scalar c =>
        rw [List.map_cons, encodeChars_cons, ← ih hps.2]
        rfl
  rw [encode, decodeLossy, String.toList_ofList, ← hscalars _ h, bytesOf_pieces]

/-- Bytes that are all of them UTF-8 are those of the text that they are read as. -/
theorem encode_of_decode? {bs : Bytes} {s : String} (h : decode? bs = some s) : encode s = bs := by
  rw [decode?, Option.map_eq_some_iff] at h
  obtain ⟨cs, hcs, rfl⟩ := h
  have hscalars : ∀ {ps : List Piece} {cs : List Char}, ps.mapM Piece.scalar? = some cs →
      encodeChars cs = bytesOf ps := by
    intro ps
    induction ps with
    | nil => rintro cs ⟨⟩; rfl
    | cons p ps ih =>
      intro cs hcs
      rw [List.mapM_cons] at hcs
      cases p with
      | broken bytes => cases hcs
      | scalar c =>
        simp only [Piece.scalar?, Option.bind_eq_bind, Option.bind_some, Option.bind_eq_some_iff,
          Option.pure_def, Option.some.injEq] at hcs
        obtain ⟨ds, hds, rfl⟩ := hcs
        rw [encodeChars_cons, ih hds]
        rfl
  rw [encode, String.toList_ofList, hscalars hcs, bytesOf_pieces]

end SyncEndpoint.Text.Utf8
