import Mathlib.Data.List.TakeWhile
import SyncEndpoint.Text.Basic

set_option autoImplicit false

/-! # Trimmed texts

Trimming takes away what is blank at either end, so that it leaves alone exactly the texts that neither
begin nor end with a blank. -/

namespace SyncEndpoint.Text

section Lists

variable {α : Type} {p : α → Bool} {xs : List α}

theorem dropWhile_eq_self_iff : xs.dropWhile p = xs ↔ ∀ x ∈ xs.head?, p x = false := by
  cases xs with
  | nil => simp
  | cons x xs => simp [List.dropWhile_eq_self_iff]

theorem trimEnd_eq_self_iff : trimEnd p xs = xs ↔ ∀ x ∈ xs.getLast?, p x = false := by
  rw [trimEnd, List.reverse_eq_iff, dropWhile_eq_self_iff, List.head?_reverse]

theorem length_trimEnd_le (p : α → Bool) (xs : List α) : (trimEnd p xs).length ≤ xs.length := by
  rw [trimEnd, List.length_reverse, ← xs.length_reverse]
  exact (List.dropWhile_suffix p).length_le

theorem trimBoth_eq_self_iff : trimBoth p xs = xs ↔
    (∀ x ∈ xs.head?, p x = false) ∧ ∀ x ∈ xs.getLast?, p x = false := by
  rw [← dropWhile_eq_self_iff, ← trimEnd_eq_self_iff]
  constructor
  · intro h
    -- Neither end can have lost anything, since nothing is missing.
    have hfirst : xs.dropWhile p = xs := by
      refine (List.dropWhile_suffix p).eq_of_length_le ?_
      have hshort := length_trimEnd_le p (xs.dropWhile p)
      rwa [← trimBoth, h] at hshort
    rw [trimBoth, hfirst] at h
    exact ⟨hfirst, h⟩
  · rintro ⟨hfirst, hlast⟩
    rw [trimBoth, hfirst, hlast]

end Lists

/-- A text has no blank at either end. -/
def Trimmed (s : String) : Prop :=
  (∀ c ∈ s.toList.head?, isBlank c = false) ∧ ∀ c ∈ s.toList.getLast?, isBlank c = false

theorem trimBlanks_eq_self_iff {s : String} : trimBlanks s = s ↔ Trimmed s := by
  rw [trimBlanks, ← String.toList_inj, String.toList_ofList, trimBoth_eq_self_iff, Trimmed]

instance (s : String) : Decidable (Trimmed s) :=
  decidable_of_iff _ trimBlanks_eq_self_iff

end SyncEndpoint.Text
