import Mathlib.Data.List.Basic
import SyncEndpoint.Proofs.Text.Digits
import SyncEndpoint.Proofs.Toml.Quoted
import SyncEndpoint.Toml.Printer
import SyncEndpoint.Toml.Reader

set_option autoImplicit false

/-! # Values read back

A number is read back from its digits, and an array from its items, whether they stand on one line
or on a line each (`value?_write`). -/

namespace SyncEndpoint.Toml

open Text (ne_of_holds takeWhile_append_stop numeral?_toDigits head?_toDigits not_mem_toDigits
  toDigits_eq_cons)

variable {cs rest : List Char} {c : Char}

/-- What is read where a key's value is written. -/
def Plain.value : Plain → Value
  | .text s => .text s
  | .number n => .integer n
  | .texts ss => .array (ss.map .text)

/-! ## Numbers -/

namespace Scalar

theorem digits?_eq (hempty : cs ≠ []) (hcs : ∀ x ∈ cs, x.isDigit = true) :
    digits? cs = some cs := by
  rw [digits?]
  induction cs with
  | nil => exact absurd rfl hempty
  | cons c cs ih =>
    obtain ⟨hc, hcs⟩ := List.forall_mem_cons.mp hcs
    cases cs with
    | nil => rw [ungroup?, if_pos hc]
    | cons d cs =>
      have hd : d ≠ '_' := by
        rintro rfl
        exact absurd (hcs _ List.mem_cons_self) (by decide)
      rw [ungroup?.eq_4 _ _ _ (by simp) (by simpa using hd), if_pos hc, ih (by simp) hcs]
      rfl

theorem whole?_toDigits (n : Nat) : whole? (Nat.toDigits 10 n) = some (Nat.toDigits 10 n) := by
  rw [whole?, digits?_eq Nat.toDigits_ne_nil fun _ =>
    Nat.isDigit_of_mem_toDigits (by decide) (by decide)]
  split
  · next d ds hds =>
    -- Digits that begin with a zero and go on are not those of zero, nor of any other number.
    rw [Option.some.injEq] at hds
    by_cases hn : n = 0
    · subst hn
      cases hds
    · exact absurd (by rw [hds]; rfl) (head?_toDigits hn)
  · rfl

theorem integer?_toDigits (n : Nat) : integer? (Nat.toDigits 10 n) = some (n : Int) := by
  have hmark : ∀ {d c : Char} {ds : List Char}, Nat.toDigits 10 n = d :: c :: ds →
      c.isDigit = true := fun h => by
    by_contra hc
    exact not_mem_toDigits (by simpa using hc) n (by simp [h])
  have hsign : splitSign (Nat.toDigits 10 n) = (false, Nat.toDigits 10 n) :=
    splitSign.eq_3 _ (fun _ h => not_mem_toDigits (c := '+') rfl n (by simp [h]))
      fun _ h => not_mem_toDigits (c := '-') rfl n (by simp [h])
  rw [integer?.eq_4 _ (fun _ h => absurd (hmark h) (by decide))
    (fun _ h => absurd (hmark h) (by decide)) fun _ h => absurd (hmark h) (by decide), hsign]
  simp [whole?_toDigits, decimal, numeral?_toDigits]

theorem ofLiteral?_toDigits (n : Nat) : ofLiteral? (Nat.toDigits 10 n) = some (.integer n) := by
  have hletter := not_mem_toDigits (c := 'e') rfl n
  rw [ofLiteral?, if_neg fun h => hletter (by rw [h]; decide),
    if_neg fun h => hletter (by rw [h]; decide), integer?_toDigits]

theorem isDate_toDigits (n : Nat) : isDate (Nat.toDigits 10 n) = false := by
  rw [isDate, List.splitOn_eq_singleton (not_mem_toDigits rfl n)]

end Scalar

namespace Reader

theorem not_isDigit_of_endsScalar (hc : endsScalar c = true) : c.isDigit = false := by
  simp only [endsScalar, isBlank, Bool.or_eq_true, beq_iff_eq, or_assoc] at hc
  rcases hc with rfl | rfl | rfl | rfl | rfl | rfl | rfl | rfl | rfl | rfl | rfl | rfl | rfl <;> rfl

theorem scalar?_toDigits (n : Nat) (rest : List Char) (hc : endsScalar c = true) :
    scalar? (Nat.toDigits 10 n ++ c :: rest) = some (.integer n, c :: rest) := by
  have hdigits : ∀ d ∈ Nat.toDigits 10 n, (!endsScalar d) = true := fun d hd => by
    by_contra hends
    exact not_mem_toDigits (not_isDigit_of_endsScalar (by simpa using hends)) n hd
  rw [scalar?, takeWhile_append_stop hdigits (by simp [hc]), List.drop_left,
    Scalar.isDate_toDigits, Scalar.ofLiteral?_toDigits]
  rfl

/-! ## Skipping -/

/-- A character that is not skipped: neither white space nor the start of a comment. -/
def isInk (c : Char) : Bool := !isBlank c && c != '\n' && c != '\r' && c != '#'

theorem skipBlanks_ink (hc : isInk c = true) : skipBlanks (c :: rest) = c :: rest := by
  simp only [isInk, Bool.and_eq_true, Bool.not_eq_true'] at hc
  exact List.dropWhile_cons_of_neg (by simp [hc.1.1.1])

theorem skipLines?_ink (hc : isInk c = true) :
    skipLines? false (c :: rest) = some (c :: rest) := by
  simp only [isInk, Bool.and_eq_true, Bool.not_eq_true', bne_iff_ne] at hc
  obtain ⟨⟨⟨hblank, hline⟩, hreturn⟩, hcomment⟩ := hc
  rw [skipLines?.eq_5 _ _ hline fun _ h _ => hreturn h]
  simp [hblank, hcomment]

/-! ## Values -/

theorem value?_write_text (fuel depth : Nat) (s : String) (rest : List Char) (hdouble : c ≠ '"')
    (hsingle : c ≠ '\'') :
    value? (fuel + 1) depth (Quoted.write s.toList ++ c :: rest) = some (.text s, c :: rest) := by
  have hstring := Quoted.string?_write s.toList (c :: rest) (by simpa using hdouble)
    (by simpa using hsingle)
  obtain ⟨q, t, hwrite, rfl | rfl⟩ := Quoted.write_eq_cons s.toList <;>
  · rw [hwrite, List.cons_append] at hstring ⊢
    rw [value?, hstring]
    simp

section Items

variable {fuel depth : Nat} {v : Value} {more : List Char}

theorem items?_end (hskip : skipLines? false cs = some (']' :: rest)) :
    items? (fuel + 1) depth cs = some ([], rest) := by
  rw [items?, hskip]
  rfl

/-- Reads an item with a comma behind it. -/
theorem items?_comma (hskip : skipLines? false cs = some (c :: rest)) (hc : c ≠ ']')
    (hvalue : value? fuel depth (c :: rest) = some (v, ',' :: more)) :
    items? (fuel + 1) depth cs =
      (items? fuel depth more).map fun (vs, rest) => (v :: vs, rest) := by
  rw [items?, hskip, Option.bind_eq_bind, Option.bind_some]
  split
  · next heq => exact absurd (List.cons.inj heq).1 hc
  · simp only [hvalue, Option.bind_eq_bind, Option.bind_some, skipLines?_ink (c := ',') rfl]
    cases items? fuel depth more <;> rfl

/-- Reads the last item, if no comma is behind it. -/
theorem items?_last (hskip : skipLines? false cs = some (c :: rest)) (hc : c ≠ ']')
    (hvalue : value? fuel depth (c :: rest) = some (v, ']' :: more)) :
    items? (fuel + 1) depth cs = some ([v], more) := by
  rw [items?, hskip, Option.bind_eq_bind, Option.bind_some]
  split
  · next heq => exact absurd (List.cons.inj heq).1 hc
  · rw [hvalue]
    rfl

theorem value?_array {vs : List Value} (hitems : items? fuel depth cs = some (vs, rest)) :
    value? (fuel + 1) (depth + 1) ('[' :: cs) = some (.array vs, rest) := by
  rw [value?, hitems]
  rfl

end Items

/-- A quote begins neither white space nor a comment, and closes no array. -/
theorem isInk_of_quote {q : Char} (hq : q = '"' ∨ q = '\'') : isInk q = true ∧ q ≠ ']' := by
  rcases hq with rfl | rfl <;> decide

/-- Reads items that stand on a line each. -/
theorem items?_lines {fuel : Nat} (depth : Nat) {ss : List String}
    (hfuel : (ss.flatMap Plain.itemLine).length < fuel) :
    items? fuel depth ('\n' :: (ss.flatMap Plain.itemLine ++ ']' :: rest)) =
      some (ss.map Value.text, rest) := by
  induction ss generalizing fuel with
  | nil =>
    obtain ⟨fuel, rfl⟩ : ∃ f, fuel = f + 1 := ⟨fuel - 1, by omega⟩
    exact items?_end rfl
  | cons s ss ih =>
    simp only [List.flatMap_cons, List.length_append, Plain.itemLine, List.length_cons] at hfuel
    obtain ⟨fuel, rfl⟩ : ∃ f, fuel = f + 2 := ⟨fuel - 2, by omega⟩
    have hvalue := value?_write_text (c := ',') fuel depth s
      ('\n' :: (ss.flatMap Plain.itemLine ++ ']' :: rest)) (by decide) (by decide)
    obtain ⟨q, t, hwrite, hq⟩ := Quoted.write_eq_cons s.toList
    obtain ⟨hink, hbracket⟩ := isInk_of_quote hq
    rw [hwrite, List.cons_append] at hvalue
    rw [items?_comma ?_ hbracket hvalue, ih (by omega)]
    · rfl
    · rw [← skipLines?_ink hink]
      simp [Plain.itemLine, hwrite, skipLines?, isBlank]

theorem value?_digit (fuel depth : Nat) (hc : c.isDigit = true) :
    value? (fuel + 1) depth (c :: cs) = scalar? (c :: cs) := by
  have hne : ∀ {d : Char} {t : List Char}, d.isDigit = false → c :: cs ≠ d :: t := fun hd heq =>
    ne_of_holds hc hd (List.cons.inj heq).1
  exact value?.eq_8 _ _ _ (fun _ => hne rfl) (fun _ => hne rfl) (fun _ => hne rfl) fun _ => hne rfl

theorem value?_write_number (fuel depth n : Nat) (rest : List Char) (hc : endsScalar c = true) :
    value? (fuel + 1) depth (Nat.toDigits 10 n ++ c :: rest) = some (.integer n, c :: rest) := by
  have hscalar := scalar?_toDigits n rest hc
  obtain ⟨d, ds, hdigits, hd⟩ := toDigits_eq_cons n
  rw [hdigits, List.cons_append] at hscalar ⊢
  rw [value?_digit fuel depth hd, hscalar]

/-- A single item stands between the brackets, on their line. -/
theorem value?_write_single (fuel depth : Nat) (s : String) (rest : List Char) :
    value? (fuel + 3) (depth + 1) ((Plain.texts [s]).write ++ rest) =
      some (.array [.text s], rest) := by
  have hvalue := value?_write_text (c := ']') fuel depth s rest (by decide) (by decide)
  obtain ⟨q, t, hwrite, hq⟩ := Quoted.write_eq_cons s.toList
  obtain ⟨hink, hbracket⟩ := isInk_of_quote hq
  have heq : (Plain.texts [s]).write ++ rest = '[' :: q :: (t ++ ']' :: rest) := by
    simp [Plain.write, hwrite]
  rw [hwrite, List.cons_append] at hvalue
  rw [heq]
  exact value?_array (items?_last (skipLines?_ink hink) hbracket hvalue)

/-- A value is read back at the end of its line. -/
theorem value?_write {p : Plain} {fuel : Nat} (depth : Nat) (hfuel : p.write.length < fuel) :
    value? fuel (depth + 1) (p.write ++ '\n' :: rest) = some (p.value, '\n' :: rest) := by
  match p with
  | .text s =>
    obtain ⟨fuel, rfl⟩ : ∃ f, fuel = f + 1 := ⟨fuel - 1, by omega⟩
    exact value?_write_text fuel (depth + 1) s rest (by decide) (by decide)
  | .number n =>
    obtain ⟨fuel, rfl⟩ : ∃ f, fuel = f + 1 := ⟨fuel - 1, by omega⟩
    exact value?_write_number fuel (depth + 1) n rest rfl
  | .texts [] =>
    obtain ⟨fuel, rfl⟩ : ∃ f, fuel = f + 2 := ⟨fuel - 2, by simp [Plain.write] at hfuel; omega⟩
    exact value?_array (items?_end rfl)
  | .texts [s] =>
    obtain ⟨q, t, hwrite, -⟩ := Quoted.write_eq_cons s.toList
    obtain ⟨fuel, rfl⟩ : ∃ f, fuel = f + 3 :=
      ⟨fuel - 3, by simp [Plain.write, hwrite] at hfuel; omega⟩
    exact value?_write_single fuel depth s ('\n' :: rest)
  | .texts (s :: s' :: ss) =>
    have heq : (Plain.texts (s :: s' :: ss)).write ++ '\n' :: rest =
        '[' :: '\n' :: ((s :: s' :: ss).flatMap Plain.itemLine ++ ']' :: '\n' :: rest) := by
      simp [Plain.write]
    obtain ⟨fuel, rfl⟩ : ∃ f, fuel = f + 1 := ⟨fuel - 1, by omega⟩
    rw [heq]
    refine value?_array (items?_lines depth ?_)
    simp only [Plain.write, List.length_cons, List.length_append] at hfuel
    omega

theorem isInk_of_isDigit (hc : c.isDigit = true) : isInk c = true := by
  have hne : ∀ d : Char, d.isDigit = false → c ≠ d := fun _ => ne_of_holds hc
  simp [isInk, isBlank, hne]

/-- A value begins where the blanks in front of it end. -/
theorem write_eq_cons (p : Plain) : ∃ c t, p.write = c :: t ∧ isInk c = true := by
  match p with
  | .text s =>
    obtain ⟨q, t, hwrite, hq⟩ := Quoted.write_eq_cons s.toList
    exact ⟨q, t, hwrite, (isInk_of_quote hq).1⟩
  | .number n =>
    obtain ⟨d, ds, hdigits, hd⟩ := toDigits_eq_cons n
    exact ⟨d, ds, hdigits, isInk_of_isDigit hd⟩
  | .texts [] => exact ⟨'[', _, rfl, rfl⟩
  | .texts [s] => exact ⟨'[', _, rfl, rfl⟩
  | .texts (s :: s' :: ss) => exact ⟨'[', _, rfl, rfl⟩

end Reader

end SyncEndpoint.Toml
