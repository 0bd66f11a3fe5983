import Mathlib.Data.List.Sort
import Mathlib.Data.String.Basic
import SyncEndpoint.Proofs.Storage.Tree
import SyncEndpoint.Proofs.Storage.Unreliable

set_option autoImplicit false

/-! # Listings

What a directory of a well-formed tree lists: each of its entries once, under its own name and in
the order of the names, and nothing else. On a storage whose calls may fail the entries of every
listing that succeeds are the same, except that of some it may not be known what they are. -/

namespace SyncEndpoint.Storage

open NativePath (IsName)
open Text.Utf8

namespace Memory

/-! ## The entries of a directory -/

/-- An entry as an entry of a directory, if it is directly in it. -/
def childOf? (key : Key) (entry : Key × Entry) : Option (Bytes × Entry) :=
  match entry.1.getLast? with
  | some name => if parentKey? entry.1 == some key then some (name, entry.2) else none
  | none => none

theorem childOf?_eq_some_iff (key : Key) (entry : Key × Entry) (name : Bytes) (e : Entry) :
    childOf? key entry = some (name, e) ↔ entry = (key ++ [name], e) := by
  obtain ⟨k, e'⟩ := entry
  rw [childOf?]
  constructor
  · intro h
    split at h
    · next last hlast =>
      split at h
      · next hparent =>
        rw [beq_iff_eq, parentKey?_eq_some_iff] at hparent
        obtain ⟨name', rfl⟩ := hparent
        simp only [List.getLast?_concat, Option.some.injEq] at hlast
        cases h
        rw [hlast]
      · cases h
    · cases h
  · rintro heq
    cases heq
    have hparent : parentKey? (key ++ [name]) = some key :=
      (parentKey?_eq_some_iff _ _).mpr ⟨name, rfl⟩
    simp [hparent]

theorem children_eq (m : Memory) (key : Key) :
    m.children key = (m.entries.filterMap (childOf? key)).mergeSort
      fun a b => bytesLe a.1 b.1 := rfl

theorem mem_children_iff {m : Memory} (h : m.WellFormed) (key : Key) (name : Bytes) (e : Entry) :
    (name, e) ∈ m.children key ↔ m.get? (key ++ [name]) = some e := by
  rw [children_eq, List.mem_mergeSort, List.mem_filterMap, ← m.mem_entries_iff _ _ h.unique]
  constructor
  · rintro ⟨entry, hmem, heq⟩
    rw [childOf?_eq_some_iff] at heq
    subst heq
    exact hmem
  · intro hmem
    exact ⟨_, hmem, (childOf?_eq_some_iff key _ name e).mpr rfl⟩

theorem nodup_children {m : Memory} (h : m.WellFormed) (key : Key) :
    ((m.children key).map Prod.fst).Nodup := by
  have hperm : ((m.children key).map Prod.fst).Perm
      ((m.entries.filterMap (childOf? key)).map Prod.fst) := by
    rw [children_eq]
    exact (List.mergeSort_perm _ _).map _
  rw [hperm.nodup_iff]
  -- Two entries of the same name in the directory would have the same key.
  have hkeys : ∀ entries : List (Key × Entry), (entries.map Prod.fst).Nodup →
      ((entries.filterMap (childOf? key)).map Prod.fst).Nodup := by
    intro entries hunique
    induction entries with
    | nil => exact List.nodup_nil
    | cons entry entries ih =>
      rw [List.map_cons, List.nodup_cons] at hunique
      have ih := ih hunique.2
      cases hchild : childOf? key entry with
      | none => rwa [List.filterMap_cons_none hchild]
      | some child =>
        obtain ⟨name, e⟩ := child
        rw [List.filterMap_cons_some hchild, List.map_cons, List.nodup_cons]
        rw [childOf?_eq_some_iff] at hchild
        refine ⟨fun hmem => hunique.1 ?_, ih⟩
        obtain ⟨⟨name', e'⟩, hchildren, rfl⟩ := List.mem_map.mp hmem
        obtain ⟨entry', hmem', heq⟩ := List.mem_filterMap.mp hchildren
        rw [childOf?_eq_some_iff] at heq
        refine List.mem_map.mpr ⟨entry', hmem', ?_⟩
        rw [heq, hchild]
  exact hkeys m.entries h.unique

/-! ## What a listing shows -/

/-- A listing of a directory: the entries once each, and of each whether it is a directory, unless
it is not known what it is, which may happen if `blind`. -/
structure Lists (blind : Prop) (m : Memory) (key : Key) (listed : List Listed) : Prop where
  unique : (listed.map Listed.name).Nodup
  sound : ∀ l ∈ listed, ∃ e, m.get? (key ++ [encode l.name]) = some e ∧
    (l.isDir = e.isDir ∨ blind ∧ l.isDir = false)
  complete : ∀ name, m.get? (key ++ [name]) ≠ none → ∃ l ∈ listed, encode l.name = name

/-- An entry of a directory as it is listed. -/
def listedOf (child : Bytes × Entry) : Listed :=
  ⟨NativePath.display child.1, .ok child.2.metadata⟩

theorem readDir_of_isDirAt {m : Memory} {key : Key} (hdir : m.IsDirAt key) :
    m.readDir key = .ok (((m.children key).map listedOf).mergeSort
      fun a b => decide (a.name ≤ b.name)) := by
  rw [readDir, (m.requireDir_eq_ok_iff key).mpr hdir]
  rfl

theorem isDirAt_of_readDir_eq_ok {m : Memory} {key : Key} {listed : List Listed}
    (h : m.readDir key = .ok listed) : m.IsDirAt key := by
  rw [← requireDir_eq_ok_iff]
  unfold readDir at h
  cases hrequire : m.requireDir key with
  | ok u => rfl
  | error x =>
    rw [hrequire] at h
    cases h

/-- The names of the entries of a directory are texts. -/
theorem Textual.encode_name_listedOf {m : Memory} (ht : m.Textual) {key : Key}
    {child : Bytes × Entry} (hget : m.get? (key ++ [child.1]) ≠ none) :
    encode (listedOf child).name = child.1 := by
  obtain ⟨text, htext⟩ := ht _ hget child.1 (List.mem_append_right _ (List.mem_singleton.mpr rfl))
  rw [listedOf, NativePath.display, htext, decodeLossy_encode]

theorem WellFormed.lists {m : Memory} (h : m.WellFormed) (ht : m.Textual) {key : Key}
    (hdir : m.IsDirAt key) : ∃ listed, m.readDir key = .ok listed ∧ m.Lists False key listed := by
  have hname : ∀ child ∈ m.children key, encode (listedOf child).name = child.1 := by
    rintro ⟨name, e⟩ hchild
    rw [mem_children_iff h] at hchild
    exact ht.encode_name_listedOf (by rw [hchild]; simp)
  refine ⟨_, readDir_of_isDirAt hdir, ?_, ?_, ?_⟩
  · -- Different names are shown differently, as the bytes can be read back from the text.
    have hperm := (List.mergeSort_perm ((m.children key).map listedOf)
      fun a b => decide (a.name ≤ b.name)).map Listed.name
    rw [hperm.nodup_iff, List.map_map]
    refine List.Nodup.of_map encode ?_
    have hmap : (m.children key).map (encode ∘ Listed.name ∘ listedOf) =
        (m.children key).map Prod.fst := List.map_congr_left hname
    rw [List.map_map, hmap]
    exact nodup_children h key
  · intro l hl
    rw [List.mem_mergeSort, List.mem_map] at hl
    obtain ⟨⟨name, e⟩, hchild, rfl⟩ := hl
    refine ⟨e, ?_, Or.inl (by cases e <;> rfl)⟩
    rw [hname _ hchild]
    exact (mem_children_iff h key name e).mp hchild
  · intro name hget
    obtain ⟨e, he⟩ := Option.ne_none_iff_exists'.mp hget
    have hchild := (mem_children_iff h key name e).mpr he
    refine ⟨listedOf (name, e), ?_, hname _ hchild⟩
    rw [List.mem_mergeSort, List.mem_map]
    exact ⟨_, hchild, rfl⟩

/-! ## The order of a listing -/

/-- The entries of a directory as they are listed, in the order of the names. -/
theorem WellFormed.readDir_eq {m : Memory} (h : m.WellFormed) (ht : m.Textual) {key : Key}
    (hdir : m.IsDirAt key) : ∃ listed, m.readDir key = .ok listed ∧
      listed.Pairwise (fun a b => a.name < b.name) ∧
      ∀ l, l ∈ listed ↔ ∃ name e, m.get? (key ++ [name]) = some e ∧ l = listedOf (name, e) := by
  obtain ⟨listed, hread, hlists⟩ := h.lists ht hdir
  refine ⟨listed, hread, ?_, fun l => ?_⟩
  · -- The listing is sorted, and no name occurs twice.
    rw [readDir_of_isDirAt hdir, Except.ok.injEq] at hread
    have hsorted : listed.Pairwise fun a b => a.name ≤ b.name := by
      rw [← hread]
      refine (List.pairwise_mergeSort (fun a b c hab hbc => ?_) (fun a b => ?_) _).imp
        of_decide_eq_true
      · exact decide_eq_true (le_trans (of_decide_eq_true hab) (of_decide_eq_true hbc))
      · simpa using le_total a.name b.name
    have hne : listed.Pairwise fun a b => a.name ≠ b.name := List.pairwise_map.mp hlists.unique
    exact (hsorted.and hne).imp fun hab => lt_of_le_of_ne hab.1 hab.2
  · rw [readDir_of_isDirAt hdir, Except.ok.injEq] at hread
    rw [← hread, List.mem_mergeSort, List.mem_map]
    constructor
    · rintro ⟨⟨name, e⟩, hchild, rfl⟩
      exact ⟨name, e, (mem_children_iff h key name e).mp hchild, rfl⟩
    · rintro ⟨name, e, hget, rfl⟩
      exact ⟨(name, e), (mem_children_iff h key name e).mpr hget, rfl⟩

/-- What is listed in a directory depends on it and on what is directly in it only. -/
theorem readDir_congr {m m' : Memory} (h : m.WellFormed) (ht : m.Textual) (h' : m'.WellFormed)
    (ht' : m'.Textual) {key : Key} (hself : m'.get? key = m.get? key)
    (hget : ∀ name, m'.get? (key ++ [name]) = m.get? (key ++ [name])) :
    m'.readDir key = m.readDir key := by
  have hrequire : m'.requireDir key = m.requireDir key := by
    unfold requireDir
    rw [hself]
  by_cases hdir : m.IsDirAt key
  · have hdir' : m'.IsDirAt key := by
      rw [← requireDir_eq_ok_iff, hrequire]
      exact (requireDir_eq_ok_iff m key).mpr hdir
    obtain ⟨listed, hread, hsorted, hmem⟩ := h.readDir_eq ht hdir
    obtain ⟨listed', hread', hsorted', hmem'⟩ := h'.readDir_eq ht' hdir'
    have hiff : ∀ l, l ∈ listed' ↔ l ∈ listed := by
      intro l
      rw [hmem, hmem']
      refine exists_congr fun name => exists_congr fun e => ?_
      rw [hget]
    have hnodup : ∀ {ls : List Listed}, ls.Pairwise (fun a b => a.name < b.name) → ls.Nodup := by
      intro ls hs
      refine List.Pairwise.imp ?_ hs
      rintro a b hab rfl
      exact lt_irrefl _ hab
    have hperm : listed'.Perm listed :=
      (List.perm_ext_iff_of_nodup (hnodup hsorted') (hnodup hsorted)).mpr hiff
    rw [hread, hread', hperm.eq_of_pairwise _ hsorted' hsorted]
    exact fun a b _ _ hab hba => absurd hab (lt_asymm hba)
  · -- Where there is no directory both fail alike.
    unfold readDir
    rw [hrequire]
    cases hr : m.requireDir key with
    | ok u => exact absurd ((requireDir_eq_ok_iff m key).mp hr) hdir
    | error x => rfl

end Memory

/-! ## Two lists side by side -/

section SideBySide

variable {α β : Type} {R : α → β → Prop} {as : List α} {bs : List β}

theorem exists_left_of_mem (h : List.Forall₂ R as bs) {b : β} (hb : b ∈ bs) : ∃ a ∈ as, R a b := by
  induction h with
  | nil => cases hb
  | cons hhead _ ih =>
    rcases List.mem_cons.mp hb with rfl | hb
    · exact ⟨_, List.mem_cons_self, hhead⟩
    · obtain ⟨a, ha, hab⟩ := ih hb
      exact ⟨a, List.mem_cons_of_mem _ ha, hab⟩

theorem exists_right_of_mem (h : List.Forall₂ R as bs) {a : α} (ha : a ∈ as) : ∃ b ∈ bs, R a b :=
  exists_left_of_mem (R := flip R) h.flip ha

/-- What holds between the members of one list, taken over to the other. -/
theorem pairwise_right {S : α → α → Prop} {T : β → β → Prop} (h : List.Forall₂ R as bs)
    (has : as.Pairwise S) (hover : ∀ {a a' b b'}, S a a' → R a b → R a' b' → T b b') :
    bs.Pairwise T := by
  induction h with
  | nil => exact .nil
  | cons hhead htail ih =>
    rw [List.pairwise_cons] at has
    rw [List.pairwise_cons]
    refine ⟨fun b' hb' => ?_, ih has.2⟩
    obtain ⟨a', ha', hab⟩ := exists_left_of_mem htail hb'
    exact hover (has.1 a' ha') hhead hab

end SideBySide

/-! ## Errors in a listing -/

section Dimmed

variable {refused : String → IoError → Prop} {listed shown : List Listed}

theorem Dimmed.map_name (h : Dimmed refused listed shown) :
    shown.map Listed.name = listed.map Listed.name := by
  rw [Dimmed] at h
  induction h with
  | nil => rfl
  | cons hhead _ ih =>
    rw [List.map_cons, List.map_cons, ih]
    rcases hhead with rfl | ⟨e, _, rfl⟩ <;> rfl

theorem Dimmed.of_mem (h : Dimmed refused listed shown) {l' : Listed} (hmem : l' ∈ shown) :
    ∃ l ∈ listed, l' = l ∨ ∃ e, refused l.name e ∧ l' = { l with metadata := .error e } := by
  rw [Dimmed] at h
  exact exists_left_of_mem h hmem

/-- Errors in a listing leave the names as they are. -/
theorem Memory.Lists.dimmed {m : Memory} {key : Key} (h : m.Lists False key listed)
    {blind : Prop} (hblind : ∀ name e, refused name e → blind)
    (hdim : Dimmed refused listed shown) : m.Lists blind key shown where
  unique := by
    rw [hdim.map_name]
    exact h.unique
  sound := by
    intro l' hl'
    obtain ⟨l, hl, hshown⟩ := hdim.of_mem hl'
    obtain ⟨e, hget, hdir⟩ := h.sound l hl
    rcases hshown with rfl | ⟨err, href, rfl⟩
    · exact ⟨e, hget, Or.inl (hdir.resolve_right fun hfalse => hfalse.1)⟩
    · exact ⟨e, hget, Or.inr ⟨hblind _ _ href, rfl⟩⟩
  complete := by
    intro name hget
    obtain ⟨l, hl, hname⟩ := h.complete name hget
    have hmem : l.name ∈ shown.map Listed.name := by
      rw [hdim.map_name]
      exact List.mem_map_of_mem hl
    obtain ⟨l', hl', heq⟩ := List.mem_map.mp hmem
    exact ⟨l', hl', by rw [heq, hname]⟩

end Dimmed

end SyncEndpoint.Storage
