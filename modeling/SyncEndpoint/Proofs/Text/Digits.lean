import Mathlib.Algebra.Group.Nat.Defs
import Mathlib.Data.List.Basic
import SyncEndpoint.Text.Basic

set_option autoImplicit false

/-! # Numbers in digits

Decimal digits stand for the number that they were written for, with zeros in front or without. In
a fixed width the order of texts is that of numbers (`padded_lt_padded`). -/

namespace SyncEndpoint.Text

variable {cs rest : List Char} {c : Char} {n m width : Nat}

/-! ## Characters of a kind -/

theorem ne_of_holds {p : Char → Bool} {d : Char} (hc : p c = true) (hd : p d = false) : c ≠ d :=
  ne_of_apply_ne p (by rw [hc, hd]; exact Bool.false_ne_true.symm)

theorem takeWhile_append_stop {p : Char → Bool} (hcs : ∀ x ∈ cs, p x = true) (hc : p c = false) :
    (cs ++ c :: rest).takeWhile p = cs := by
  rw [List.takeWhile_append_of_pos hcs, List.takeWhile_cons_of_neg (by simp [hc]), List.append_nil]

/-- What begins with characters of a kind does not begin with one of another kind. -/
theorem append_ne_cons {p : Char → Bool} (hcs : ∀ x ∈ cs, p x = true) (hempty : cs ≠ [])
    (hc : p c = false) (rest rest' : List Char) : cs ++ rest ≠ c :: rest' := by
  obtain ⟨d, ds, rfl⟩ := List.exists_cons_of_ne_nil hempty
  intro h
  exact ne_of_holds (hcs d List.mem_cons_self) hc (List.cons.inj h).1

/-! ## Digits -/

theorem numeral?_toDigits (n : Nat) : numeral? 10 digitValue? (Nat.toDigits 10 n) = some n := by
  induction n using Nat.strongRecOn with
  | ind n ih =>
    have hdigit : ∀ d < 10, digitValue? d.digitChar = some d := by decide
    rcases Nat.lt_or_ge n 10 with hlow | hhigh
    · simp [Nat.toDigits_of_lt_base hlow, numeral?, hdigit n hlow]
    · have hinit := ih (n / 10) (by omega)
      rw [numeral?] at hinit
      rw [Nat.toDigits_of_base_le (by decide) hhigh, numeral?, List.foldlM_append, hinit]
      simp [hdigit (n % 10) (Nat.mod_lt _ (by decide)), Nat.div_add_mod']

/-- Only zero is written with a zero in front. -/
theorem head?_toDigits (hn : n ≠ 0) : (Nat.toDigits 10 n).head? ≠ some '0' := by
  induction n using Nat.strongRecOn with
  | ind n ih =>
    rcases Nat.lt_or_ge n 10 with hlow | hhigh
    · simpa [Nat.toDigits_of_lt_base hlow] using hn
    · have hinit := ih (n / 10) (by omega) (by omega)
      rw [Nat.toDigits_of_base_le (by decide) hhigh]
      rwa [List.head?_append_of_ne_nil _ Nat.toDigits_ne_nil]

theorem isDigit_of_mem_toDigits (h : c ∈ Nat.toDigits 10 n) : c.isDigit = true :=
  Nat.isDigit_of_mem_toDigits (by decide) (by decide) h

theorem not_mem_toDigits (hc : c.isDigit = false) (n : Nat) : c ∉ Nat.toDigits 10 n := fun h =>
  absurd (isDigit_of_mem_toDigits h) (by simp [hc])

theorem toDigits_eq_cons (n : Nat) : ∃ d ds, Nat.toDigits 10 n = d :: ds ∧ d.isDigit = true := by
  obtain ⟨d, ds, heq⟩ := List.exists_cons_of_ne_nil (Nat.toDigits_ne_nil (b := 10) (n := n))
  exact ⟨d, ds, heq, isDigit_of_mem_toDigits (heq ▸ List.mem_cons_self)⟩

theorem isBlank_of_isDigit (hc : c.isDigit = true) : isBlank c = false := by
  have hrange : 48 ≤ c.toNat ∧ c.toNat ≤ 57 := by
    simp only [Char.isDigit, Bool.and_eq_true, decide_eq_true_eq] at hc
    exact hc
  simp only [isBlank, Bool.or_eq_false_iff, Bool.and_eq_false_iff, decide_eq_false_iff_not,
    beq_eq_false_iff_ne]
  omega

/-! ## Digits in a width -/

theorem toList_padded (width n : Nat) : (padded width n).toList =
    List.replicate (width - (Nat.toDigits 10 n).length) '0' ++ Nat.toDigits 10 n := by
  rw [padded, String.toList_ofList]

theorem isDigit_of_mem_padded (h : c ∈ (padded width n).toList) : c.isDigit = true := by
  rw [toList_padded, List.mem_append] at h
  rcases h with hzero | hdigit
  · rw [List.eq_of_mem_replicate hzero]
    rfl
  · exact isDigit_of_mem_toDigits hdigit

theorem padded_ne_nil : (padded width n).toList ≠ [] := by
  simp [toList_padded, Nat.toDigits_ne_nil]

theorem numeral?_padded (width n : Nat) :
    numeral? 10 digitValue? (padded width n).toList = some n := by
  rw [toList_padded]
  generalize width - (Nat.toDigits 10 n).length = zeros
  induction zeros with
  | zero => exact numeral?_toDigits n
  | succ zeros ih =>
    rw [List.replicate_succ, List.cons_append, numeral?, List.foldlM_cons]
    exact ih

theorem length_padded (h : n < 10 ^ width) (hwidth : 0 < width) :
    (padded width n).toList.length = width := by
  have hle := (Nat.length_toDigits_le_iff (b := 10) (by decide) hwidth).mpr h
  rw [toList_padded, List.length_append, List.length_replicate]
  omega

/-- The last digit stands behind those of a tenth. -/
theorem padded_succ (width n : Nat) : (padded (width + 2) n).toList =
    (padded (width + 1) (n / 10)).toList ++ [(n % 10).digitChar] := by
  simp only [toList_padded]
  rcases Nat.lt_or_ge n 10 with hlow | hhigh
  · simp [Nat.toDigits_of_lt_base hlow, Nat.div_eq_of_lt hlow, Nat.mod_eq_of_lt hlow,
      List.replicate_succ']
  · simp [Nat.toDigits_of_base_le (by decide) hhigh]

/-! ## Order -/

/-- Of texts with fronts of one length the fronts decide, if they differ. -/
theorem append_lt_append {cs ds : List Char} (hlength : cs.length = ds.length) (h : cs < ds)
    (rest rest' : List Char) : cs ++ rest < ds ++ rest' := by
  induction cs generalizing ds with
  | nil =>
    cases ds with
    | nil => exact absurd h (List.lt_irrefl _)
    | cons d ds => cases hlength
  | cons c cs ih =>
    cases ds with
    | nil => cases hlength
    | cons d ds =>
      rw [List.cons_append, List.cons_append, List.cons_lt_cons_iff]
      rw [List.cons_lt_cons_iff] at h
      refine h.imp_right fun ⟨heq, hlt⟩ => ⟨heq, ih ?_ hlt⟩
      simpa using hlength

theorem digitChar_lt (h : n < m) (hm : m < 10) : n.digitChar < m.digitChar := by
  have hn := Nat.toNat_digitChar_of_lt_ten (Nat.lt_trans h hm)
  have hm := Nat.toNat_digitChar_of_lt_ten hm
  show n.digitChar.toNat < m.digitChar.toNat
  omega

/-- In a fixed width smaller numbers come first. -/
theorem padded_lt_padded (h : n < m) (hm : m < 10 ^ (width + 1)) :
    (padded (width + 1) n).toList < (padded (width + 1) m).toList := by
  induction width generalizing n m with
  | zero =>
    have hm : m < 10 := by simpa using hm
    have hsingle : ∀ k < 10, (padded 1 k).toList = [k.digitChar] := by
      intro k hk
      simp [toList_padded, Nat.toDigits_of_lt_base hk]
    rw [Nat.zero_add, hsingle n (by omega), hsingle m hm, List.cons_lt_cons_iff]
    exact Or.inl (digitChar_lt h hm)
  | succ width ih =>
    rw [Nat.pow_succ] at hm
    rw [padded_succ, padded_succ]
    rcases Nat.lt_or_ge (n / 10) (m / 10) with htenth | htenth
    · refine append_lt_append ?_ (ih htenth (by omega)) _ _
      rw [length_padded (by omega) (by omega), length_padded (by omega) (by omega)]
    · have heq : n / 10 = m / 10 := by omega
      rw [heq]
      refine List.append_left_lt (List.cons_lt_cons_iff.mpr (Or.inl (digitChar_lt ?_ ?_))) <;> omega

end SyncEndpoint.Text
