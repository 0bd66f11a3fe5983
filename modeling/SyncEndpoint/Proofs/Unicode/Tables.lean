import Mathlib.Data.List.Chain
import Mathlib.Data.List.Nodup
import SyncEndpoint.Unicode.NormalForm

set_option autoImplicit false

/-! # What the tables of decompositions say

The laws of the normal forms rest on a few facts about the tables: no character has two entries, the
second part of a pair never decomposes, three steps decompose any character for good, and a
character that is composed from two others decomposes as these do (`decompose_of_compose?`). Each
table is gone through once for each fact. Where this has to look characters up in a table, the table
stands as one number with a binary digit for each character. -/

namespace SyncEndpoint.Unicode

/-! ## Sets of characters as numbers -/

/-- The number whose binary digits say which characters are in a list. -/
def mask (cs : List Nat) : Nat :=
  cs.foldr (fun c m => m ||| 1 <<< c) 0

theorem testBit_mask {cs : List Nat} {c : Nat} : (mask cs).testBit c = true ↔ c ∈ cs := by
  induction cs with
  | nil => simp [mask]
  | cons d cs ih =>
    rw [mask, List.foldr_cons, ← mask, Nat.testBit_or, Bool.or_eq_true, ih, Nat.one_shiftLeft,
      Nat.testBit_two_pow, decide_eq_true_eq, List.mem_cons, or_comm, eq_comm]

/-! ## Entries -/

section Lookup

variable {α : Type} {table : List (Nat × α)}

/-- In a table without repetitions an entry is what its key finds. -/
theorem find?_key_of_mem (h : (table.map Prod.fst).Nodup) {e : Nat × α} (he : e ∈ table) :
    table.find? (fun d => d.1 == e.1) = some e := by
  obtain ⟨d, hd⟩ : ∃ d, table.find? (fun d => d.1 == e.1) = some d :=
    Option.isSome_iff_exists.mp (List.find?_isSome.mpr ⟨e, he, beq_self_eq_true _⟩)
  have hfst : d.1 = e.1 := by simpa using List.find?_some hd
  rw [hd, List.inj_on_of_nodup_map h (List.mem_of_find?_eq_some hd) he hfst]

theorem find?_key_eq_none {c : Nat} (hc : c ∉ table.map Prod.fst) :
    table.find? (fun d => d.1 == c) = none := by
  rw [List.find?_eq_none]
  intro d hd heq
  rw [beq_iff_eq] at heq
  exact hc (heq ▸ List.mem_map_of_mem hd)

end Lookup

/-- The characters that decompose to one other. -/
def singletonKeys : List Nat := singletons.map Prod.fst

/-- The characters that decompose to a pair. -/
def pairKeys : List Nat := pairs.map Prod.fst

/-- The characters of both tables, as digits. -/
def keyMask : Nat := mask singletonKeys ||| mask pairKeys

theorem testBit_keyMask {c : Nat} :
    keyMask.testBit c = true ↔ c ∈ singletonKeys ∨ c ∈ pairKeys := by
  rw [keyMask, Nat.testBit_or, Bool.or_eq_true, testBit_mask, testBit_mask]

/-! ## What is checked -/

/-- The pairs whose first part comes to final characters in less than `n` steps: it has no entry, or
that of such a pair. -/
def settlingPairs : Nat → List (Nat × Nat × Nat)
  | 0 => []
  | n + 1 =>
    pairs.filter fun e =>
      !keyMask.testBit e.2.1 && !Hangul.isSyllable e.2.1 ||
        (mask ((settlingPairs n).map Prod.fst)).testBit e.2.1

/-- The characters that separate paths, and the dot. -/
def pathMarks : List Nat := [0x2E, 0x2F, 0x5C]

/-- All that the tables are looked at for. -/
structure Checked : Prop where
  singletons_ordered : singletonKeys.IsChain (· < ·)
  pairs_ordered : pairKeys.IsChain (· < ·)
  /-- No character is in both tables. -/
  apart : pairKeys.all (fun c => !(mask singletonKeys).testBit c) = true
  /-- No key is ASCII or Hangul, neither a syllable nor a letter. -/
  keys : (singletonKeys ++ pairKeys).all (fun c => decide (0xC0 ≤ c ∧
    Hangul.isSyllable c = false ∧ (c < 0x1100 ∨ 0x1200 ≤ c) ∧ c.isValidChar)) = true
  /-- The second part of a pair is final. -/
  seconds : pairs.all (fun e => !keyMask.testBit e.2.2 && !Hangul.isSyllable e.2.2) = true
  /-- The first part of a pair is final, or a pair whose parts become so. -/
  firsts : pairs.all (fun e => !keyMask.testBit e.2.1 && !Hangul.isSyllable e.2.1 ||
    (mask ((settlingPairs 2).map Prod.fst)).testBit e.2.1) = true
  others : singletons.all (fun e => !keyMask.testBit e.2 && !Hangul.isSyllable e.2 ||
    (mask ((settlingPairs 2).map Prod.fst)).testBit e.2) = true
  pair_parts : pairs.all (fun e => decide ((e.2.1.isValidChar ∧ e.2.1 ∉ pathMarks) ∧
    e.2.2.isValidChar ∧ e.2.2 ∉ pathMarks)) = true
  other_parts : singletons.all (fun e => decide (e.2.isValidChar ∧ e.2 ∉ pathMarks)) = true

-- Each table is gone through by the kernel, which computes with the masks as with numbers.
theorem checked : Checked := by
  constructor <;> decide +kernel

/-! ## Characters that stand alone -/

/-- A starter that no other character decomposes to, and that is composed with none. -/
structure Isolated (c : Nat) : Prop where
  starter : combiningClass c = 0
  decompose : decompose c = [c]
  of_mem_decompose : ∀ d, c ∈ Unicode.decompose d → d = c
  compose_left : ∀ d, compose? c d = none
  compose_right : ∀ d, compose? d c = none

/-! ## Keys -/

theorem nodup_singletonKeys : singletonKeys.Nodup :=
  (List.isChain_iff_pairwise.mp checked.singletons_ordered).imp Nat.ne_of_lt

theorem nodup_pairKeys : pairKeys.Nodup :=
  (List.isChain_iff_pairwise.mp checked.pairs_ordered).imp Nat.ne_of_lt

/-- The tables have no character in common. -/
theorem not_mem_singletonKeys {c : Nat} (hc : c ∈ pairKeys) : c ∉ singletonKeys := by
  intro hmem
  have := List.all_eq_true.mp checked.apart c hc
  rw [testBit_mask.mpr hmem] at this
  cases this

/-- An entry stands for a character that is no ASCII and no Hangul, neither a syllable nor a
letter. -/
theorem of_mem_keys {c : Nat} (hc : c ∈ singletonKeys ∨ c ∈ pairKeys) :
    0xC0 ≤ c ∧ Hangul.isSyllable c = false ∧ (c < 0x1100 ∨ 0x1200 ≤ c) ∧ c.isValidChar :=
  of_decide_eq_true (List.all_eq_true.mp checked.keys c (List.mem_append.mpr hc))

/-! ## Hangul -/

namespace Hangul

theorem isSyllable_iff (c : Nat) : isSyllable c = true ↔ 0xAC00 ≤ c ∧ c < 0xAC00 + 11172 := by
  rw [isSyllable, Bool.and_eq_true, decide_eq_true_eq, decide_eq_true_eq]
  rfl

theorem decompose_eq_ite (c : Nat) :
    decompose c =
      if (c - 0xAC00) % 28 = 0 then
        [0x1100 + (c - 0xAC00) / 588, 0x1161 + (c - 0xAC00) % 588 / 28]
      else
        [0x1100 + (c - 0xAC00) / 588, 0x1161 + (c - 0xAC00) % 588 / 28,
          0x11A7 + (c - 0xAC00) % 28] := rfl

/-- Two characters make a syllable if they are a lead and a vowel, or a syllable without trail and a
trail. -/
theorem of_compose? {a b c : Nat} (h : compose? a b = some c) :
    0x1100 ≤ a ∧ a < 0x1113 ∧ 0x1161 ≤ b ∧ b < 0x1176 ∧
        c = 0xAC00 + ((a - 0x1100) * 21 + (b - 0x1161)) * 28 ∨
      isSyllable a = true ∧ (a - 0xAC00) % 28 = 0 ∧ 0x11A7 < b ∧ b < 0x11C3 ∧
        c = a + (b - 0x11A7) := by
  rw [compose?] at h
  split at h
  · next hvowel =>
    simp only [Bool.and_eq_true, decide_eq_true_eq, and_assoc] at hvowel
    exact Or.inl ⟨hvowel.1, hvowel.2.1, hvowel.2.2.1, hvowel.2.2.2, (Option.some.inj h).symm⟩
  · split at h
    · next htrail =>
      simp only [Bool.and_eq_true, decide_eq_true_eq, beq_iff_eq, and_assoc] at htrail
      exact Or.inr ⟨htrail.1, htrail.2.1, htrail.2.2.1, htrail.2.2.2, (Option.some.inj h).symm⟩
    · cases h

/-- What is composed is a syllable. -/
theorem isSyllable_of_compose? {a b c : Nat} (h : compose? a b = some c) :
    isSyllable c = true := by
  rw [isSyllable_iff]
  rcases of_compose? h with ⟨_, _, _, _, hc⟩ | ⟨ha, _, _, _, hc⟩
  · omega
  · rw [isSyllable_iff] at ha
    omega

end Hangul

/-! ## One step -/

theorem decomposeOnce?_of_mem_singletons {e : Nat × Nat} (he : e ∈ singletons) :
    decomposeOnce? e.1 = some [e.2] := by
  have hkey : e.1 ∈ singletonKeys := List.mem_map_of_mem he
  obtain ⟨hlow, hsyllable, -, -⟩ := of_mem_keys (Or.inl hkey)
  rw [decomposeOnce?, if_neg (Nat.not_lt.mpr hlow), hsyllable, if_neg Bool.false_ne_true,
    find?_key_of_mem nodup_singletonKeys he]

theorem decomposeOnce?_of_mem_pairs {e : Nat × Nat × Nat} (he : e ∈ pairs) :
    decomposeOnce? e.1 = some [e.2.1, e.2.2] := by
  have hkey : e.1 ∈ pairKeys := List.mem_map_of_mem he
  obtain ⟨hlow, hsyllable, -, -⟩ := of_mem_keys (Or.inr hkey)
  rw [decomposeOnce?, if_neg (Nat.not_lt.mpr hlow), hsyllable, if_neg Bool.false_ne_true,
    find?_key_eq_none (not_mem_singletonKeys hkey), find?_key_of_mem nodup_pairKeys he]
  rfl

theorem decomposeOnce?_of_isSyllable {c : Nat} (hc : Hangul.isSyllable c = true) :
    decomposeOnce? c = some (Hangul.decompose c) := by
  have hlow : ¬ c < 0xC0 := by
    have := (Hangul.isSyllable_iff c).mp hc
    omega
  rw [decomposeOnce?, if_neg hlow, if_pos hc]

/-- A character that no rule is about stands for itself. -/
theorem decomposeOnce?_eq_none {c : Nat} (hkeys : ¬ (c ∈ singletonKeys ∨ c ∈ pairKeys))
    (hsyllable : Hangul.isSyllable c = false) : decomposeOnce? c = none := by
  rw [not_or] at hkeys
  rw [decomposeOnce?]
  split
  · rfl
  · rw [hsyllable, if_neg Bool.false_ne_true, find?_key_eq_none hkeys.1, find?_key_eq_none hkeys.2]
    rfl

/-- What one step makes of a character: nothing, the letters of a syllable, or an entry. -/
theorem decomposeOnce?_cases (c : Nat) :
    decomposeOnce? c = none ∨
      Hangul.isSyllable c = true ∧ decomposeOnce? c = some (Hangul.decompose c) ∨
      (∃ e ∈ singletons, e.1 = c ∧ decomposeOnce? c = some [e.2]) ∨
      ∃ e ∈ pairs, e.1 = c ∧ decomposeOnce? c = some [e.2.1, e.2.2] := by
  by_cases hsyllable : Hangul.isSyllable c = true
  · exact Or.inr (Or.inl ⟨hsyllable, decomposeOnce?_of_isSyllable hsyllable⟩)
  · rw [Bool.not_eq_true] at hsyllable
    by_cases hkeys : c ∈ singletonKeys ∨ c ∈ pairKeys
    · rcases hkeys with h | h
      · obtain ⟨e, he, rfl⟩ := List.mem_map.mp h
        exact Or.inr (Or.inr (Or.inl ⟨e, he, rfl, decomposeOnce?_of_mem_singletons he⟩))
      · obtain ⟨e, he, rfl⟩ := List.mem_map.mp h
        exact Or.inr (Or.inr (Or.inr ⟨e, he, rfl, decomposeOnce?_of_mem_pairs he⟩))
    · exact Or.inl (decomposeOnce?_eq_none hkeys hsyllable)

/-! ## Parts that are final -/

/-- A character that has no entry and is no syllable is final. -/
theorem decomposeOnce?_eq_none_of_check {c : Nat}
    (h : (!keyMask.testBit c && !Hangul.isSyllable c) = true) : decomposeOnce? c = none := by
  rw [Bool.and_eq_true, Bool.not_eq_true', Bool.not_eq_true'] at h
  refine decomposeOnce?_eq_none (fun hkeys => ?_) h.2
  rw [testBit_keyMask.mpr hkeys] at h
  cases h.1

/-- The second part of a pair is final. -/
theorem decomposeOnce?_snd {e : Nat × Nat × Nat} (he : e ∈ pairs) : decomposeOnce? e.2.2 = none :=
  decomposeOnce?_eq_none_of_check (List.all_eq_true.mp checked.seconds e he)

/-- A letter of Hangul is final. -/
theorem decomposeOnce?_of_letter {c : Nat} (hlow : 0x1100 ≤ c) (hhigh : c < 0x1200) :
    decomposeOnce? c = none := by
  refine decomposeOnce?_eq_none (fun hkeys => ?_) ?_
  · have := (of_mem_keys hkeys).2.2.1
    omega
  · rw [← Bool.not_eq_true, Hangul.isSyllable_iff]
    omega

theorem Hangul.letter_of_mem_decompose {c d : Nat} (hc : isSyllable c = true)
    (hd : d ∈ Hangul.decompose c) : 0x1100 ≤ d ∧ d < 0x1200 := by
  rw [isSyllable_iff] at hc
  rw [decompose_eq_ite] at hd
  split at hd <;> simp only [List.mem_cons, List.not_mem_nil, or_false] at hd <;> omega

/-! ## Steps until all is final -/

/-- Within `n` steps a character comes to final ones. -/
def Settles (n c : Nat) : Prop :=
  ∀ d ∈ decomposeWithin n c, decomposeOnce? d = none

theorem settles_zero {c : Nat} (h : decomposeOnce? c = none) : Settles 0 c := by
  intro d hd
  rw [decomposeWithin, List.mem_singleton] at hd
  rw [hd, h]

theorem decomposeWithin_of_none {c : Nat} (h : decomposeOnce? c = none) (n : Nat) :
    decomposeWithin n c = [c] := by
  cases n with
  | zero => rfl
  | succ n => rw [decomposeWithin, h]

theorem decomposeWithin_of_some {c : Nat} {parts : List Nat} (h : decomposeOnce? c = some parts)
    (n : Nat) : decomposeWithin (n + 1) c = parts.flatMap (decomposeWithin n) := by
  rw [decomposeWithin, h]

theorem settles_succ {c n : Nat} {parts : List Nat} (h : decomposeOnce? c = some parts)
    (hparts : ∀ p ∈ parts, Settles n p) : Settles (n + 1) c := by
  intro d hd
  rw [decomposeWithin_of_some h, List.mem_flatMap] at hd
  obtain ⟨p, hp, hd⟩ := hd
  exact hparts p hp d hd

/-- Where all is final, more steps change nothing. -/
theorem Settles.decomposeWithin_eq {n m c : Nat} (h : Settles n c) (hle : n ≤ m) :
    decomposeWithin m c = decomposeWithin n c := by
  induction n generalizing m c with
  | zero => exact decomposeWithin_of_none (h c (List.mem_singleton.mpr rfl)) m
  | succ n ih =>
    obtain ⟨m, rfl⟩ : ∃ k, m = k + 1 := ⟨m - 1, by omega⟩
    cases honce : decomposeOnce? c with
    | none => rw [decomposeWithin_of_none honce, decomposeWithin_of_none honce]
    | some parts =>
      rw [decomposeWithin_of_some honce, decomposeWithin_of_some honce]
      refine List.flatMap_congr fun p hp => ih (fun d hd => h d ?_) (by omega)
      rw [decomposeWithin_of_some honce, List.mem_flatMap]
      exact ⟨p, hp, hd⟩

theorem Settles.mono {n m c : Nat} (h : Settles n c) (hle : n ≤ m) : Settles m c := by
  intro d hd
  rw [h.decomposeWithin_eq hle] at hd
  exact h d hd

theorem settles_of_mem_settlingPairs {n : Nat} {e : Nat × Nat × Nat} (he : e ∈ settlingPairs n) :
    Settles n e.1 := by
  induction n generalizing e with
  | zero => exact absurd he List.not_mem_nil
  | succ n ih =>
    obtain ⟨hmem, hfirst⟩ := List.mem_filter.mp he
    refine settles_succ (decomposeOnce?_of_mem_pairs hmem) fun p hp => ?_
    rw [List.mem_cons, List.mem_singleton] at hp
    rcases hp with rfl | rfl
    · rcases Bool.or_eq_true _ _ |>.mp hfirst with hfinal | hsettling
      · exact (settles_zero (decomposeOnce?_eq_none_of_check hfinal)).mono n.zero_le
      · obtain ⟨d, hd, heq⟩ := List.mem_map.mp (testBit_mask.mp hsettling)
        rw [← heq]
        exact ih hd
    · exact (settles_zero (decomposeOnce?_snd hmem)).mono n.zero_le

theorem settles_of_mem_pairs {e : Nat × Nat × Nat} (he : e ∈ pairs) : Settles 3 e.1 :=
  settles_of_mem_settlingPairs (List.mem_filter.mpr ⟨he, List.all_eq_true.mp checked.firsts e he⟩)

theorem settles_of_mem_singletons {e : Nat × Nat} (he : e ∈ singletons) : Settles 3 e.1 := by
  refine settles_succ (decomposeOnce?_of_mem_singletons he) fun p hp => ?_
  rw [List.mem_singleton] at hp
  rw [hp]
  rcases Bool.or_eq_true _ _ |>.mp (List.all_eq_true.mp checked.others e he) with hfinal | hsettling
  · exact (settles_zero (decomposeOnce?_eq_none_of_check hfinal)).mono (by decide)
  · obtain ⟨d, hd, heq⟩ := List.mem_map.mp (testBit_mask.mp hsettling)
    rw [← heq]
    exact settles_of_mem_settlingPairs hd

/-- Three steps are enough for any character. -/
theorem settles (c : Nat) : Settles 3 c := by
  rcases decomposeOnce?_cases c with h | ⟨hsyllable, h⟩ | ⟨e, he, rfl, -⟩ | ⟨e, he, rfl, -⟩
  · exact (settles_zero h).mono (by decide)
  · refine (settles_succ (n := 0) h fun p hp => ?_).mono (by decide)
    obtain ⟨hlow, hhigh⟩ := Hangul.letter_of_mem_decompose hsyllable hp
    exact settles_zero (decomposeOnce?_of_letter hlow hhigh)
  · exact settles_of_mem_singletons he
  · exact settles_of_mem_pairs he

/-! ## Full decompositions -/

theorem decompose_eq (c : Nat) : decompose c = decomposeWithin 3 c :=
  (settles c).decomposeWithin_eq (by decide)

theorem decompose_of_none {c : Nat} (h : decomposeOnce? c = none) : decompose c = [c] :=
  decomposeWithin_of_none h _

/-- A character decomposes as its parts do. -/
theorem decompose_of_some {c : Nat} {parts : List Nat} (h : decomposeOnce? c = some parts) :
    decompose c = parts.flatMap decompose := by
  rw [decompose, decompositionDepth, decomposeWithin_of_some h]
  exact List.flatMap_congr fun p _ => (decompose_eq p).symm

/-- What a character decomposes to is final. -/
theorem decompose_of_mem {c d : Nat} (h : d ∈ decompose c) : decompose d = [d] := by
  rw [decompose_eq] at h
  exact decompose_of_none (settles c d h)

theorem decompose_ne_nil (c : Nat) : decompose c ≠ [] := by
  have hparts : ∀ {c parts}, decomposeOnce? c = some parts → parts ≠ [] := by
    intro c parts h
    rcases decomposeOnce?_cases c with hd | ⟨-, hd⟩ | ⟨e, -, -, hd⟩ | ⟨e, -, -, hd⟩ <;>
      rw [hd] at h
    · cases h
    · rw [Option.some.injEq] at h
      rw [← h, Hangul.decompose_eq_ite]
      split <;> exact List.cons_ne_nil _ _
    · cases h
      exact List.cons_ne_nil _ _
    · cases h
      exact List.cons_ne_nil _ _
  have hwithin : ∀ n c, decomposeWithin n c ≠ [] := by
    intro n
    induction n with
    | zero => exact fun c => List.cons_ne_nil c []
    | succ n ih =>
      intro c
      cases honce : decomposeOnce? c with
      | none => rw [decomposeWithin_of_none honce]; exact List.cons_ne_nil c []
      | some parts =>
        obtain ⟨p, hp⟩ := List.exists_mem_of_ne_nil _ (hparts honce)
        rw [decomposeWithin_of_some honce, ne_eq, List.flatMap_eq_nil_iff]
        exact fun hnil => ih p (hnil p hp)
  exact hwithin _ c

theorem flatMap_decompose_eq_self {cs : List Nat} (h : ∀ c ∈ cs, decompose c = [c]) :
    cs.flatMap decompose = cs := by
  rw [List.flatMap_congr h, List.flatMap_singleton']

/-! ## Compositions -/

theorem decompose_of_isSyllable {c : Nat} (hc : Hangul.isSyllable c = true) :
    decompose c = Hangul.decompose c := by
  rw [decompose_of_some (decomposeOnce?_of_isSyllable hc)]
  refine flatMap_decompose_eq_self fun d hd => ?_
  obtain ⟨hlow, hhigh⟩ := Hangul.letter_of_mem_decompose hc hd
  exact decompose_of_none (decomposeOnce?_of_letter hlow hhigh)

theorem decompose_of_hangul {a b c : Nat} (h : Hangul.compose? a b = some c) :
    decompose c = decompose a ++ decompose b := by
  have hletter : ∀ d, 0x1100 ≤ d → d < 0x1200 → decompose d = [d] := fun d hlow hhigh =>
    decompose_of_none (decomposeOnce?_of_letter hlow hhigh)
  rw [decompose_of_isSyllable (Hangul.isSyllable_of_compose? h), Hangul.decompose_eq_ite]
  rcases Hangul.of_compose? h with ⟨ha, ha', hb, hb', hc⟩ | ⟨ha, htrail, hb, hb', hc⟩
  · rw [hletter a ha (by omega), hletter b (by omega) (by omega), if_pos (by omega)]
    simp only [List.singleton_append, List.cons.injEq, and_true]
    omega
  · rw [decompose_of_isSyllable ha, Hangul.decompose_eq_ite, if_pos htrail,
      hletter b (by omega) (by omega)]
    rw [Hangul.isSyllable_iff] at ha
    rw [if_neg (by omega)]
    simp only [List.cons_append, List.nil_append, List.cons.injEq, and_true]
    omega

/-- A character that two others compose to decomposes as these do. -/
theorem decompose_of_compose? {a b c : Nat} (h : compose? a b = some c) :
    decompose c = decompose a ++ decompose b := by
  rw [compose?] at h
  split at h
  · next hangul =>
    cases h
    exact decompose_of_hangul hangul
  · obtain ⟨e, hfind, rfl⟩ := Option.map_eq_some_iff.mp h
    have hparts := List.find?_some hfind
    simp only [Bool.and_eq_true, beq_iff_eq] at hparts
    obtain ⟨⟨rfl, rfl⟩, -⟩ := hparts
    rw [decompose_of_some (decomposeOnce?_of_mem_pairs (List.mem_of_find?_eq_some hfind))]
    simp

/-! ## Parts -/

/-- The characters that others decompose to in one step. -/
def IsPart (c : Nat) : Prop :=
  ∃ d parts, decomposeOnce? d = some parts ∧ c ∈ parts

/-- What a character decomposes to are parts, or it is the character itself. -/
theorem eq_or_isPart_of_mem_decompose {c d : Nat} (h : d ∈ decompose c) : d = c ∨ IsPart d := by
  have hwithin : ∀ n c, d ∈ decomposeWithin n c → d = c ∨ IsPart d := by
    intro n
    induction n with
    | zero => exact fun c h => Or.inl (List.mem_singleton.mp h)
    | succ n ih =>
      intro c h
      cases honce : decomposeOnce? c with
      | none =>
        rw [decomposeWithin_of_none honce, List.mem_singleton] at h
        exact Or.inl h
      | some parts =>
        rw [decomposeWithin_of_some honce, List.mem_flatMap] at h
        obtain ⟨p, hp, hd⟩ := h
        rcases ih p hd with rfl | hpart
        · exact Or.inr ⟨c, parts, honce, hp⟩
        · exact Or.inr hpart
  exact hwithin _ c h

/-- Parts are characters, and none of them plays a role in paths. -/
theorem IsPart.isValidChar_and_not_mem {c : Nat} (h : IsPart c) :
    c.isValidChar ∧ c ∉ pathMarks := by
  obtain ⟨d, parts, honce, hc⟩ := h
  rcases decomposeOnce?_cases d with hno | ⟨hsyllable, hd⟩ | ⟨e, he, -, hd⟩ | ⟨e, he, -, hd⟩
  · rw [hno] at honce
    cases honce
  · rw [hd, Option.some.injEq] at honce
    rw [← honce] at hc
    obtain ⟨hlow, hhigh⟩ := Hangul.letter_of_mem_decompose hsyllable hc
    refine ⟨Or.inl (by omega), ?_⟩
    simp only [pathMarks, List.mem_cons, List.not_mem_nil, or_false]
    omega
  · rw [hd] at honce
    cases honce
    rw [List.mem_singleton.mp hc]
    exact of_decide_eq_true (List.all_eq_true.mp checked.other_parts e he)
  · rw [hd] at honce
    cases honce
    have hboth := of_decide_eq_true (List.all_eq_true.mp checked.pair_parts e he)
    rw [List.mem_cons, List.mem_singleton] at hc
    rcases hc with rfl | rfl
    · exact hboth.1
    · exact hboth.2

theorem isValidChar_of_mem_decompose {c d : Nat} (hc : c.isValidChar) (h : d ∈ decompose c) :
    d.isValidChar := by
  rcases eq_or_isPart_of_mem_decompose h with rfl | hpart
  · exact hc
  · exact hpart.isValidChar_and_not_mem.1

theorem isValidChar_of_compose? {a b c : Nat} (h : compose? a b = some c) : c.isValidChar := by
  rw [compose?] at h
  split at h
  · next hangul =>
    cases h
    have := (Hangul.isSyllable_iff c).mp (Hangul.isSyllable_of_compose? hangul)
    exact Or.inl (by omega)
  · obtain ⟨e, hfind, rfl⟩ := Option.map_eq_some_iff.mp h
    exact (of_mem_keys (Or.inr (List.mem_map_of_mem (List.mem_of_find?_eq_some hfind)))).2.2.2

/-! ## The marks of paths -/

theorem isolated_of_mem_pathMarks {c : Nat} (hc : c ∈ pathMarks) : Isolated c := by
  have hno : ¬ IsPart c := fun h => h.isValidChar_and_not_mem.2 hc
  have hlow : c < 0x80 := by
    simp only [pathMarks, List.mem_cons, List.not_mem_nil, or_false] at hc
    omega
  have hangul : Hangul.isSyllable c = false := by
    rw [← Bool.not_eq_true, Hangul.isSyllable_iff]
    omega
  have hcompose : ∀ a b d, compose? a b = some d → a ≠ c ∧ b ≠ c := by
    intro a b d h
    rw [compose?] at h
    split at h
    · next hsyllable =>
      rcases Hangul.of_compose? hsyllable with ⟨_, _, _, _, _⟩ | ⟨ha, _, _, _, _⟩
      · omega
      · rw [Hangul.isSyllable_iff] at ha
        omega
    · obtain ⟨e, hfind, -⟩ := Option.map_eq_some_iff.mp h
      have honce := decomposeOnce?_of_mem_pairs (List.mem_of_find?_eq_some hfind)
      have hparts := List.find?_some hfind
      simp only [Bool.and_eq_true, beq_iff_eq] at hparts
      obtain ⟨⟨rfl, rfl⟩, -⟩ := hparts
      refine ⟨?_, ?_⟩ <;> rintro rfl <;> exact hno ⟨_, _, honce, by simp⟩
  refine ⟨?_, ?_, ?_, ?_, ?_⟩
  · have hstarters : ∀ c ∈ pathMarks, combiningClass c = 0 := by decide
    exact hstarters c hc
  · refine decompose_of_none (decomposeOnce?_eq_none (fun hkeys => ?_) hangul)
    have := (of_mem_keys hkeys).1
    omega
  · intro d h
    rcases eq_or_isPart_of_mem_decompose h with rfl | hpart
    · rfl
    · exact absurd hpart hno
  · exact fun d => Option.eq_none_iff_forall_ne_some.mpr fun e h => (hcompose c d e h).1 rfl
  · exact fun d => Option.eq_none_iff_forall_ne_some.mpr fun e h => (hcompose d c e h).2 rfl

end SyncEndpoint.Unicode
