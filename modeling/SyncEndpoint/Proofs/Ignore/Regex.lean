import Mathlib.Data.List.Basic
import SyncEndpoint.Ignore.Regex

set_option autoImplicit false

/-! # What expressions match

An expression stands for a set of byte strings, given by its form alone. Matching by partial
derivatives decides it (`isMatch_iff`): what remains of an expression after a byte stands for the
rests of the strings that start with that byte. -/

namespace SyncEndpoint.Ignore.Regex

deriving instance ReflBEq, LawfulBEq for Regex

/-- The byte strings that an expression stands for. -/
inductive Matches : Regex → Bytes → Prop
  | empty : Matches .empty []
  | byte {negated : Bool} {ranges : List (UInt8 × UInt8)} {b : UInt8}
      (h : admits negated ranges b = true) : Matches (.byte negated ranges) [b]
  | seq {r s : Regex} {xs ys : Bytes} (hr : Matches r xs) (hs : Matches s ys) :
      Matches (.seq r s) (xs ++ ys)
  | left {r s : Regex} {xs : Bytes} (h : Matches r xs) : Matches (.alt r s) xs
  | right {r s : Regex} {xs : Bytes} (h : Matches s xs) : Matches (.alt r s) xs
  | stop {r : Regex} : Matches (.star r) []
  | more {r : Regex} {xs ys : Bytes} (h : Matches r xs) (hmore : Matches (.star r) ys) :
      Matches (.star r) (xs ++ ys)

variable {r s : Regex} {b : UInt8} {bs : Bytes}

/-! ## One equation for each form -/

theorem matches_empty_iff : Matches .empty bs ↔ bs = [] := by
  constructor
  · rintro ⟨⟩
    rfl
  · rintro rfl
    exact .empty

theorem matches_byte_iff {negated : Bool} {ranges : List (UInt8 × UInt8)} :
    Matches (.byte negated ranges) bs ↔ ∃ b, admits negated ranges b = true ∧ bs = [b] := by
  constructor
  · rintro ⟨⟩
    exact ⟨_, ‹_›, rfl⟩
  · rintro ⟨b, h, rfl⟩
    exact .byte h

theorem matches_seq_iff :
    Matches (.seq r s) bs ↔ ∃ xs ys, bs = xs ++ ys ∧ Matches r xs ∧ Matches s ys := by
  constructor
  · rintro ⟨⟩
    exact ⟨_, _, rfl, ‹_›, ‹_›⟩
  · rintro ⟨xs, ys, rfl, hr, hs⟩
    exact .seq hr hs

theorem matches_alt_iff : Matches (.alt r s) bs ↔ Matches r bs ∨ Matches s bs := by
  constructor
  · intro h
    cases h with
    | left h => exact Or.inl h
    | right h => exact Or.inr h
  · rintro (h | h)
    · exact .left h
    · exact .right h

/-- What starts with a byte has it in the first part, unless that part is empty. -/
theorem matches_seq_cons_iff : Matches (.seq r s) (b :: bs) ↔
    (∃ xs ys, bs = xs ++ ys ∧ Matches r (b :: xs) ∧ Matches s ys) ∨
      Matches r [] ∧ Matches s (b :: bs) := by
  rw [matches_seq_iff]
  constructor
  · rintro ⟨xs, ys, hcons, hr, hs⟩
    cases xs with
    | nil =>
      rw [List.nil_append] at hcons
      exact Or.inr ⟨hr, hcons ▸ hs⟩
    | cons x xs =>
      rw [List.cons_append, List.cons.injEq] at hcons
      obtain ⟨rfl, rfl⟩ := hcons
      exact Or.inl ⟨xs, ys, rfl, hr, hs⟩
  · rintro (⟨xs, ys, rfl, hr, hs⟩ | ⟨hr, hs⟩)
    · exact ⟨b :: xs, ys, rfl, hr, hs⟩
    · exact ⟨[], b :: bs, rfl, hr, hs⟩

/-- A repetition that is not empty starts with a part that is not empty. -/
theorem matches_star_cons_iff : Matches (.star r) (b :: bs) ↔
    ∃ xs ys, bs = xs ++ ys ∧ Matches r (b :: xs) ∧ Matches (.star r) ys := by
  constructor
  · intro h
    generalize hstar : Regex.star r = t at h
    generalize hcons : b :: bs = cs at h
    -- The induction passes over the empty parts in front.
    induction h with
    | @more r' xs ys hfirst hmore _ ih =>
      cases hstar
      cases xs with
      | nil => exact ih rfl hcons
      | cons x xs =>
        rw [List.cons_append, List.cons.injEq] at hcons
        obtain ⟨rfl, rfl⟩ := hcons
        exact ⟨xs, ys, rfl, hfirst, hmore⟩
    | stop => cases hcons
    | empty | byte | seq | left | right => cases hstar
  · rintro ⟨xs, ys, rfl, hfirst, hmore⟩
    exact .more hfirst hmore

theorem matches_andThen_iff : Matches (r.andThen s) bs ↔ Matches (.seq r s) bs := by
  cases r with
  | empty =>
    rw [andThen, matches_seq_iff]
    simp [matches_empty_iff]
  | _ => rfl

/-! ## Derivatives -/

theorem nullable_iff : r.nullable = true ↔ Matches r [] := by
  induction r with
  | empty => exact ⟨fun _ => .empty, fun _ => rfl⟩
  | byte negated ranges => simp [nullable, matches_byte_iff]
  | seq r s ihr ihs =>
    rw [nullable, Bool.and_eq_true, ihr, ihs, matches_seq_iff]
    constructor
    · rintro ⟨hr, hs⟩
      exact ⟨[], [], rfl, hr, hs⟩
    · rintro ⟨xs, ys, hnil, hr, hs⟩
      obtain ⟨rfl, rfl⟩ := List.append_eq_nil_iff.mp hnil.symm
      exact ⟨hr, hs⟩
  | alt r s ihr ihs => rw [nullable, Bool.or_eq_true, ihr, ihs, matches_alt_iff]
  | star r => exact ⟨fun _ => .stop, fun _ => rfl⟩

/-- Parts that follow what one of several expressions leaves. -/
theorem exists_mem_map_andThen_iff {rs : List Regex} :
    (∃ p ∈ rs.map (·.andThen s), Matches p bs) ↔
      ∃ xs ys, bs = xs ++ ys ∧ (∃ p ∈ rs, Matches p xs) ∧ Matches s ys := by
  simp only [List.mem_map, exists_exists_and_eq_and, matches_andThen_iff, matches_seq_iff]
  tauto

/-- What remains after a byte stands for the rests of what starts with it. -/
theorem exists_mem_partials_iff :
    (∃ p ∈ r.partials b, Matches p bs) ↔ Matches r (b :: bs) := by
  induction r generalizing bs with
  | empty => simp [partials, matches_empty_iff]
  | byte negated ranges =>
    rw [partials, matches_byte_iff]
    split
    · next h => simp [matches_empty_iff, h]
    · next h => simp [h]
  | alt r s ihr ihs =>
    rw [partials, matches_alt_iff, ← ihr, ← ihs]
    simp only [List.mem_append, or_and_right, exists_or]
  | star r ih =>
    rw [partials, exists_mem_map_andThen_iff, matches_star_cons_iff]
    simp only [ih]
  | seq r s ihr ihs =>
    have hfront : (∃ p ∈ (r.partials b).map (·.andThen s), Matches p bs) ↔
        ∃ xs ys, bs = xs ++ ys ∧ Matches r (b :: xs) ∧ Matches s ys := by
      rw [exists_mem_map_andThen_iff]
      simp only [ihr]
    rw [matches_seq_cons_iff, partials, ← hfront, ← nullable_iff, ← ihs]
    by_cases hnull : r.nullable = true
    · rw [if_pos hnull]
      simp only [List.mem_append, or_and_right, exists_or, hnull, true_and]
    · rw [if_neg hnull]
      simp [hnull]

/-! ## Matching -/

theorem anyMatches_iff {rs : List Regex} : anyMatches rs bs = true ↔ ∃ r ∈ rs, Matches r bs := by
  induction bs generalizing rs with
  | nil => simp [anyMatches, nullable_iff]
  | cons b bs ih =>
    rw [anyMatches, ih]
    simp only [List.mem_eraseDups, List.mem_flatMap, ← exists_mem_partials_iff]
    constructor
    · rintro ⟨p, ⟨r, hr, hp⟩, hmatch⟩
      exact ⟨r, hr, p, hp, hmatch⟩
    · rintro ⟨r, hr, p, hp, hmatch⟩
      exact ⟨p, ⟨r, hr, hp⟩, hmatch⟩

/-- Matching decides what an expression stands for. -/
theorem isMatch_iff : r.isMatch bs = true ↔ Matches r bs := by
  rw [isMatch, anyMatches_iff]
  simp

/-! ## The expressions of globs -/

theorem Matches.literal (b : UInt8) : Matches (Regex.literal b) [b] :=
  .byte (by simp [admits])

theorem Matches.anyByte (b : UInt8) : Matches Regex.anyByte [b] :=
  .byte (by simp [admits])

theorem Matches.anyBytes (bs : Bytes) : Matches (.star .anyByte) bs := by
  induction bs with
  | nil => exact .stop
  | cons b bs ih => exact .more (.anyByte b) ih

theorem Matches.bytes (bs : Bytes) : Matches (Regex.bytes bs) bs := by
  induction bs with
  | nil => exact .empty
  | cons b bs ih => exact .seq (.literal b) ih

end SyncEndpoint.Ignore.Regex
