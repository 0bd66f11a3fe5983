import Mathlib.Data.List.Chain
import Mathlib.Data.List.Perm.Basic
import SyncEndpoint.Unicode.NormalForm

set_option autoImplicit false

/-! # Canonical order

Putting characters in canonical order rearranges them, gives a text that is in order, and leaves
alone one that is. What it gives does not depend on the order in which characters of different
classes came (`canonicalOrder_move`), and it never moves anything past a character of class zero
(`canonicalOrder_append_starter`). -/

namespace SyncEndpoint.Unicode

variable {a b c : Nat} {cs ds : List Nat}

/-- The second of two characters in a row stands as it should: it starts a sequence, or its class is
not less than that of the first. -/
def InOrder (a b : Nat) : Prop :=
  combiningClass b = 0 ∨ combiningClass a ≤ combiningClass b

/-- Each run of combining characters is sorted by class. -/
def Ordered (cs : List Nat) : Prop :=
  cs.IsChain InOrder

/-! ## Adding a character -/

theorem pushOrdered_of_starter (hc : combiningClass c = 0) : pushOrdered cs c = c :: cs := by
  rw [pushOrdered, hc]
  rfl

theorem pushOrdered_nil : pushOrdered [] c = [c] := by
  rw [pushOrdered]
  split <;> rfl

/-- A combining character goes behind all of its class or less. -/
theorem pushOrdered_cons (hc : combiningClass c ≠ 0) :
    pushOrdered (a :: cs) c =
      if combiningClass c < combiningClass a then a :: pushOrdered cs c else c :: a :: cs := by
  simp only [pushOrdered, if_neg hc]
  rfl

theorem pushOrdered_perm (c : Nat) (cs : List Nat) : (pushOrdered cs c).Perm (c :: cs) := by
  by_cases hc : combiningClass c = 0
  · rw [pushOrdered_of_starter hc]
  · induction cs with
    | nil => rw [pushOrdered_nil]
    | cons a cs ih =>
      rw [pushOrdered_cons hc]
      split
      · exact (ih.cons a).trans (List.Perm.swap c a cs)
      · exact List.Perm.refl _

/-- A text in order, held in reverse, stays in order. -/
theorem isChain_pushOrdered (h : cs.IsChain (flip InOrder)) :
    (pushOrdered cs c).IsChain (flip InOrder) := by
  by_cases hc : combiningClass c = 0
  · rw [pushOrdered_of_starter hc]
    exact h.cons fun _ _ => Or.inl hc
  · induction cs with
    | nil =>
      rw [pushOrdered_nil]
      exact List.isChain_singleton c
    | cons a cs ih =>
      rw [pushOrdered_cons hc]
      split
      · next hlt =>
        -- What now comes behind `a` is the new character or what came there before.
        refine (ih h.tail).cons fun d hd => ?_
        have hfirst : d = c ∨ d ∈ cs.head? := by
          cases cs with
          | nil =>
            rw [pushOrdered_nil] at hd
            exact Or.inl (Option.mem_some_iff.mp hd).symm
          | cons e es =>
            rw [pushOrdered_cons hc] at hd
            split at hd
            · exact Or.inr hd
            · exact Or.inl (Option.mem_some_iff.mp hd).symm
        rcases hfirst with rfl | hold
        · exact Or.inr (Nat.le_of_lt hlt)
        · exact (List.isChain_cons.mp h).1 d hold
      · next hle =>
        refine h.cons fun d hd => ?_
        rw [List.head?_cons, Option.mem_some_iff] at hd
        subst hd
        exact Or.inr (Nat.not_lt.mp hle)

/-- Two combining characters of different classes may come in either order. -/
theorem pushOrdered_comm (ha : combiningClass a ≠ 0) (hb : combiningClass b ≠ 0)
    (hne : combiningClass a ≠ combiningClass b) :
    pushOrdered (pushOrdered cs a) b = pushOrdered (pushOrdered cs b) a := by
  induction cs with
  | nil =>
    rw [pushOrdered_nil, pushOrdered_nil, pushOrdered_cons hb, pushOrdered_cons ha,
      pushOrdered_nil, pushOrdered_nil]
    split <;> split <;> first | rfl | omega
  | cons d ds ih =>
    rw [pushOrdered_cons ha, pushOrdered_cons hb]
    by_cases had : combiningClass a < combiningClass d <;>
      by_cases hbd : combiningClass b < combiningClass d
    · rw [if_pos had, if_pos hbd, pushOrdered_cons hb, pushOrdered_cons ha, if_pos had, if_pos hbd,
        ih]
    · rw [if_pos had, if_neg hbd, pushOrdered_cons hb, pushOrdered_cons ha, if_neg hbd,
        if_pos (by omega), pushOrdered_cons ha, if_pos had]
    · rw [if_neg had, if_pos hbd, pushOrdered_cons hb, pushOrdered_cons ha, if_neg had,
        if_pos (by omega), pushOrdered_cons hb, if_pos hbd]
    · rw [if_neg had, if_neg hbd, pushOrdered_cons hb, pushOrdered_cons ha]
      split <;> split
      · omega
      · rw [pushOrdered_cons hb, if_neg hbd]
      · rw [pushOrdered_cons ha, if_neg had]
      · omega

/-! ## Whole texts -/

theorem foldl_pushOrdered_perm (cs ds : List Nat) :
    (cs.foldl pushOrdered ds).Perm (cs ++ ds) := by
  induction cs generalizing ds with
  | nil => exact List.Perm.refl ds
  | cons c cs ih =>
    exact (ih (pushOrdered ds c)).trans
      (((pushOrdered_perm c ds).append_left cs).trans List.perm_middle)

/-- Ordering a text rearranges it. -/
theorem canonicalOrder_perm (cs : List Nat) : (canonicalOrder cs).Perm cs := by
  have h := foldl_pushOrdered_perm cs []
  rw [List.append_nil] at h
  exact (List.reverse_perm _).trans h

theorem mem_canonicalOrder : c ∈ canonicalOrder cs ↔ c ∈ cs :=
  (canonicalOrder_perm cs).mem_iff

theorem ordered_canonicalOrder (cs : List Nat) : Ordered (canonicalOrder cs) := by
  have h : ∀ ds : List Nat, ds.IsChain (flip InOrder) →
      (cs.foldl pushOrdered ds).IsChain (flip InOrder) := by
    induction cs with
    | nil => exact fun ds h => h
    | cons c cs ih => exact fun ds h => ih _ (isChain_pushOrdered h)
  exact List.isChain_reverse.mpr (h [] List.isChain_nil)

/-- What is in order already stays as it is. -/
theorem canonicalOrder_of_ordered (h : Ordered cs) : canonicalOrder cs = cs := by
  have hfold : ∀ cs ds : List Nat, Ordered (ds.reverse ++ cs) →
      cs.foldl pushOrdered ds = cs.reverse ++ ds := by
    intro cs
    induction cs with
    | nil => exact fun ds _ => rfl
    | cons c cs ih =>
      intro ds hchain
      -- The next character belongs at the end of what there is.
      have hpush : pushOrdered ds c = c :: ds := by
        by_cases hc : combiningClass c = 0
        · exact pushOrdered_of_starter hc
        · cases ds with
          | nil => exact pushOrdered_nil
          | cons d ds =>
            rw [List.reverse_cons, List.append_assoc, List.singleton_append] at hchain
            have hdc : InOrder d c := (List.isChain_append.mp hchain).2.1.rel
            rw [pushOrdered_cons hc, if_neg (Nat.not_lt.mpr (hdc.resolve_left hc))]
      rw [List.foldl_cons, hpush, ih (c :: ds), List.reverse_cons, List.append_assoc,
        List.singleton_append]
      rwa [List.reverse_cons, List.append_assoc, List.singleton_append]
  rw [canonicalOrder, hfold cs [] h, List.append_nil, List.reverse_reverse]

theorem foldl_pushOrdered_move {ms : List Nat} (hc : combiningClass c ≠ 0)
    (hms : ∀ m ∈ ms, combiningClass m ≠ 0 ∧ combiningClass m ≠ combiningClass c) (ds : List Nat) :
    ms.foldl pushOrdered (pushOrdered ds c) = pushOrdered (ms.foldl pushOrdered ds) c := by
  induction ms generalizing ds with
  | nil => rfl
  | cons m ms ih =>
    obtain ⟨hm, hne⟩ := hms m List.mem_cons_self
    rw [List.foldl_cons, List.foldl_cons, pushOrdered_comm hc hm hne.symm,
      ih fun m hm => hms m (List.mem_cons_of_mem _ hm)]

/-- A combining character may pass others of different classes. -/
theorem canonicalOrder_move (before : List Nat) {ms : List Nat} (after : List Nat)
    (hc : combiningClass c ≠ 0)
    (hms : ∀ m ∈ ms, combiningClass m ≠ 0 ∧ combiningClass m ≠ combiningClass c) :
    canonicalOrder (before ++ c :: ms ++ after) = canonicalOrder (before ++ ms ++ c :: after) := by
  simp only [canonicalOrder, List.foldl_append, List.foldl_cons, foldl_pushOrdered_move hc hms]

/-! ## At a starter -/

theorem foldl_pushOrdered_starter (hc : combiningClass c = 0) (cs ds es : List Nat) :
    cs.foldl pushOrdered (ds ++ c :: es) = cs.foldl pushOrdered ds ++ c :: es := by
  have hpush : ∀ (d : Nat) (ds : List Nat), pushOrdered (ds ++ c :: es) d =
      pushOrdered ds d ++ c :: es := by
    intro d ds
    by_cases hd : combiningClass d = 0
    · rw [pushOrdered_of_starter hd, pushOrdered_of_starter hd, List.cons_append]
    · induction ds with
      | nil => rw [List.nil_append, pushOrdered_cons hd, hc, if_neg (Nat.not_lt_zero _),
          pushOrdered_nil, List.singleton_append]
      | cons e ds ih =>
        rw [List.cons_append, pushOrdered_cons hd, pushOrdered_cons hd, ih]
        split <;> rfl
  induction cs generalizing ds with
  | nil => rfl
  | cons d cs ih => rw [List.foldl_cons, List.foldl_cons, hpush, ih]

/-- Nothing moves past a starter. -/
theorem canonicalOrder_append_starter (hc : combiningClass c = 0) :
    canonicalOrder (cs ++ c :: ds) = canonicalOrder cs ++ c :: canonicalOrder ds := by
  have h := foldl_pushOrdered_starter hc ds [] (cs.foldl pushOrdered [])
  rw [List.nil_append] at h
  rw [canonicalOrder, List.foldl_append, List.foldl_cons, pushOrdered_of_starter hc, h,
    List.reverse_append, List.reverse_cons, List.append_assoc, List.singleton_append]
  rfl

end SyncEndpoint.Unicode
