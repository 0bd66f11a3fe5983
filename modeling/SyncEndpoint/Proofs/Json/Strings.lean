import SyncEndpoint.Json.Reader
import SyncEndpoint.Proofs.Text.Digits

set_option autoImplicit false

/-! # JSON strings and numbers read back

What stands between the quotes for a text is read up to the quote behind it (`stringBody?_escape`)
and stands for that text (`unescape?_escape`). The digits of a natural number are read up to where
the number ends (`number?_toDigits`). -/

namespace SyncEndpoint.Json

open Text

variable {cs ds rest : List Char} {c : Char} {n : Nat}

/-! ## Strings -/

theorem hex4?_hex4 (hn : n < 0x20) : hex4? (hexDigit (n / 4096 % 16)) (hexDigit (n / 256 % 16))
    (hexDigit (n / 16 % 16)) (hexDigit (n % 16)) = some n := by
  have hall : ∀ n < 0x20, hex4? (hexDigit (n / 4096 % 16)) (hexDigit (n / 256 % 16))
      (hexDigit (n / 16 % 16)) (hexDigit (n % 16)) = some n := by decide
  exact hall n hn

/-- A character that has to be escaped is one of those with a letter, or a control character. -/
theorem escapeChar_cases (c : Char) :
    (∃ e, shortEscape? e = some c ∧ e ≠ 'u' ∧ escapeChar c = ['\\', e]) ∨
    (c.toNat < 0x20 ∧ escapeChar c = '\\' :: 'u' :: hex4 c.toNat) ∨
    (c ≠ '"' ∧ c ≠ '\\' ∧ 0x20 ≤ c.toNat ∧ escapeChar c = [c]) := by
  rw [escapeChar]
  split_ifs with hquote hbackslash hb ht hn hf hr hcontrol
  · exact Or.inl ⟨'"', by simp [shortEscape?, hquote], by decide, rfl⟩
  · exact Or.inl ⟨'\\', by simp [shortEscape?, hbackslash], by decide, rfl⟩
  · exact Or.inl ⟨'b', by simp [shortEscape?, hb], by decide, rfl⟩
  · exact Or.inl ⟨'t', by simp [shortEscape?, ht], by decide, rfl⟩
  · exact Or.inl ⟨'n', by simp [shortEscape?, hn], by decide, rfl⟩
  · exact Or.inl ⟨'f', by simp [shortEscape?, hf], by decide, rfl⟩
  · exact Or.inl ⟨'r', by simp [shortEscape?, hr], by decide, rfl⟩
  · exact Or.inr (Or.inl ⟨hcontrol, rfl⟩)
  · exact Or.inr (Or.inr ⟨hquote, hbackslash, by omega, rfl⟩)

theorem unescape?_escapeChar (c : Char) (rest : List Char) :
    unescape? (escapeChar c ++ rest) = consChar c (unescape? rest) := by
  rcases escapeChar_cases c with ⟨e, hshort, hu, heq⟩ | ⟨hcontrol, heq⟩ | ⟨-, hbackslash, -, heq⟩
  · rw [heq]
    simp [unescape?, hshort, hu]
  · have hlow : c.toNat < 0xD800 := by omega
    rw [heq]
    simp [hex4, unescape?, hex4?_hex4 hcontrol, hlow]
  · rw [heq]
    simp [unescape?, hbackslash]

theorem unescape?_escape (cs : List Char) : unescape? (escape cs) = some cs := by
  induction cs with
  | nil => rfl
  | cons c cs ih =>
    rw [escape] at ih ⊢
    rw [List.flatMap_cons, unescape?_escapeChar, ih]
    rfl

namespace Reader

theorem stringBody?_escapeChar (c : Char) (rest : List Char) :
    stringBody? (escapeChar c ++ rest) =
      (stringBody? rest).map fun (body, rest) => (escapeChar c ++ body, rest) := by
  rcases escapeChar_cases c with ⟨e, hshort, hu, heq⟩ | ⟨hcontrol, heq⟩ |
    ⟨hquote, hbackslash, hplain, heq⟩
  · rw [heq]
    simp [stringBody?, hshort, hu]
  · rw [heq]
    simp [hex4, stringBody?, hex4?_hex4 hcontrol]
  · rw [heq]
    simp [stringBody?, hbackslash, Nat.not_lt.mpr hplain]

/-- The body of a string is read up to the quote behind it. -/
theorem stringBody?_escape (cs rest : List Char) :
    stringBody? (escape cs ++ '"' :: rest) = some (escape cs, rest) := by
  induction cs with
  | nil => simp [escape, stringBody?]
  | cons c cs ih =>
    rw [escape] at ih ⊢
    rw [List.flatMap_cons, List.append_assoc, stringBody?_escapeChar, ih]
    rfl

/-! ## Numbers -/

/-- No number goes on with a text. -/
def EndsNumber (rest : List Char) : Prop :=
  ∀ c ∈ rest.head?, c.isDigit = false ∧ c ≠ '.' ∧ c ≠ 'e' ∧ c ≠ 'E'

theorem takeWhile_digits (hds : ∀ d ∈ ds, d.isDigit = true) (hrest : EndsNumber rest) :
    (ds ++ rest).takeWhile Char.isDigit = ds := by
  cases rest with
  | nil => rw [List.takeWhile_append_of_pos hds, List.takeWhile_nil, List.append_nil]
  | cons c rest => exact takeWhile_append_stop hds (hrest c rfl).1

theorem wholePart?_toDigits (n : Nat) (hrest : EndsNumber rest) :
    wholePart? (Nat.toDigits 10 n ++ rest) = some (Nat.toDigits 10 n, rest) := by
  have hdigits : ∀ d ∈ Nat.toDigits 10 n, d.isDigit = true := fun _ => isDigit_of_mem_toDigits
  have hread : digits? (Nat.toDigits 10 n ++ rest) = some (Nat.toDigits 10 n, rest) := by
    obtain ⟨d, ds, heq, -⟩ := toDigits_eq_cons n
    rw [digits?, takeWhile_digits hdigits hrest, heq]
    simp
  by_cases hn : n = 0
  · subst hn
    cases rest with
    | nil => rfl
    | cons c rest => simp [wholePart?, (hrest c rfl).1]
  · rw [wholePart?, hread]
    intro more heq
    obtain ⟨d, ds, hcons, -⟩ := toDigits_eq_cons n
    rw [hcons, List.cons_append] at heq
    refine absurd ?_ (head?_toDigits hn)
    rw [hcons, (List.cons.inj heq).1, List.head?_cons]

theorem number?_toDigits (n : Nat) (hrest : EndsNumber rest) :
    number? (Nat.toDigits 10 n ++ rest) = some (Nat.toDigits 10 n, rest) := by
  have hfraction : fractionPart? rest = some ([], rest) := by
    cases rest with
    | nil => rfl
    | cons c rest => simp [fractionPart?, (hrest c rfl).2.1]
  have hexponent : exponentPart? rest = some ([], rest) := by
    cases rest with
    | nil => rfl
    | cons c rest => simp [exponentPart?, (hrest c rfl).2.2]
  rw [number?, unsigned?, wholePart?_toDigits n hrest]
  · simp [hfraction, hexponent]
  · intro more
    exact append_ne_cons (fun _ => isDigit_of_mem_toDigits) Nat.toDigits_ne_nil rfl _ _

end Reader

end SyncEndpoint.Json
