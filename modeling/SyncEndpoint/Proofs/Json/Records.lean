import Mathlib.Data.List.Nodup
import SyncEndpoint.Json.Record
import SyncEndpoint.Proofs.Json.Strings

set_option autoImplicit false

/-! # Records read back

Members with different names are read as the values of their names (`fieldValues?_ofMembers`), and
what each type is written as is read as it was. -/

namespace SyncEndpoint.Json

/-! ## Fields -/

theorem mapM_eq_some_map {α β : Type} {f : α → Option β} {g : α → β} {xs : List α}
    (h : ∀ x ∈ xs, f x = some (g x)) : xs.mapM f = some (xs.map g) := by
  induction xs with
  | nil => rfl
  | cons x xs ih =>
    obtain ⟨hx, hxs⟩ := List.forall_mem_cons.mp h
    rw [List.mapM_cons, hx, ih hxs]
    rfl

/-- A name that comes once finds its own member. -/
theorem filter_eq_singleton {members : List (String × Json)} (hnames : (members.map Prod.fst).Nodup)
    {m : String × Json} (hm : m ∈ members) : members.filter (·.1 == m.1) = [m] := by
  induction members with
  | nil => cases hm
  | cons m' members ih =>
    rw [List.map_cons, List.nodup_cons] at hnames
    rcases List.mem_cons.mp hm with rfl | hmem
    · have hrest : members.filter (·.1 == m.1) = [] := by
        refine List.filter_eq_nil_iff.mpr fun m' hm' heq => hnames.1 ?_
        rw [← beq_iff_eq.mp heq]
        exact List.mem_map_of_mem hm'
      simp [hrest]
    · have hne : m'.1 ≠ m.1 := fun heq => hnames.1 (heq ▸ List.mem_map_of_mem hmem)
      rw [List.filter_cons_of_neg (by simpa using hne), ih hnames.2 hmem]

theorem fieldValues?_ofMembers {members : List (String × Json)}
    (hnames : (members.map Prod.fst).Nodup) :
    fieldValues? (members.map Prod.fst) (ofMembers members) =
      some (members.map fun m => some m.2) := by
  have hkeys : (members.map fun m => (escape m.1.toList, m.2)).mapM
      (fun m => (unescape? m.1).map fun k => (String.ofList k, m.2)) = some members := by
    rw [List.mapM_map, mapM_eq_some_map (g := id), List.map_id]
    intro m _
    simp [unescape?_escape]
  rw [ofMembers, fieldValues?, hkeys]
  simp only [Option.bind_eq_bind, Option.bind_some]
  rw [List.mapM_map]
  refine mapM_eq_some_map fun m hm => ?_
  simp only [Function.comp, filter_eq_singleton hnames hm]

/-! ## Values -/

@[simp]
theorem string?_ofString (s : String) : (ofString s).string? = some s := by
  simp [ofString, string?, unescape?_escape]

theorem natBelow?_ofNat {bound n : Nat} (h : n < bound) : natBelow? bound (ofNat n) = some n := by
  simp [ofNat, natBelow?, Text.numeral?_toDigits, h]

@[simp]
theorem name?_ofString {α : Type} (ofName : String → Option α) (s : String) :
    name? ofName (ofString s) = ofName s := by
  have hstring := string?_ofString s
  rw [ofString] at hstring ⊢
  rw [name?, hstring, Option.bind_some]
  intro k heq
  cases heq

/-- What may be missing is read as missing exactly where it is. -/
theorem optional?_ofOption {α β : Type} {read : Json → Option β} {write : α → Json} {g : α → β}
    (hnull : ∀ a, write a ≠ .null) {o : Option α} (hread : ∀ a ∈ o, read (write a) = some (g a)) :
    optional? read (some (ofOption write o)) = some (o.map g) := by
  cases o with
  | none => rfl
  | some a =>
    rw [optional?, ofOption, option?, hread a rfl]
    · rfl
    · exact hnull a

end SyncEndpoint.Json
