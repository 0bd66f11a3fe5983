import SyncEndpoint.Proofs.Storage.Listing
import SyncEndpoint.Proofs.Storage.Spared

set_option autoImplicit false

/-! # Names in a storage

A storage in memory need not stay a tree under all the calls that it may be asked for, but its keys
stay made of names, whatever is asked and whatever is refused. What it lists is shown by names again,
also where their bytes are no UTF-8. A program needs no more of a storage than this to spell the
paths of what it finds there. -/

namespace SyncEndpoint.Storage

open NativePath (IsName isName_encode_display)
open Text.Utf8

variable {σ R W α ε : Type}

/-! ## Answers -/

/-- Answers that keep a property of the storage, and that list nothing but names. -/
structure ShowsNames (answers : Answers σ R W) (inv : σ → Prop) : Prop where
  kept : ∀ (c : Call R W) s reply s', inv s → answers c s reply s' → inv s'
  names : ∀ path s listed s', inv s → answers (.readDir path) s (.ok listed) s' →
    ∀ l ∈ listed, IsName (encode l.name)

namespace ShowsNames

variable {answers : Answers σ R W} {inv : σ → Prop}

/-- What every call keeps, a program keeps. -/
theorem keeps (h : ShowsNames answers inv) (p : Program R W α) :
    p.Keeps answers inv fun _ => True := by
  induction p with
  | done a => exact fun w hw => ⟨hw, trivial⟩
  | call c next ih =>
    intro w hw reply s hanswer
    exact ih reply _ (h.kept c w.storage reply s hw hanswer)
  | mint next ih => exact fun w hw => ih _ _ hw

theorem keeps_readDir (h : ShowsNames answers inv) (path : NativePath) :
    Keeps answers inv (readDir path) fun listed => ∀ l ∈ listed, IsName (encode l.name) := by
  refine Program.Keeps.call (c := .readDir path) fun s reply s' hs hanswer => ?_
  refine ⟨h.kept _ s reply s' hs hanswer, ?_⟩
  cases reply with
  | ok listed => exact h.names path s listed s' hs hanswer
  | error x => trivial

end ShowsNames

/-! ## The storage in memory -/

namespace Memory

variable {m m' : Memory} {key : Key} {c : Call Bytes Key}

/-- Keys are made of names. -/
def Named (m : Memory) : Prop :=
  ∀ key, m.get? key ≠ none → ∀ name ∈ key, IsName name

theorem WellFormed.named (h : m.WellFormed) : m.Named :=
  h.names

theorem Named.of_get? (h : m.Named)
    (hget : ∀ k, m'.get? k ≠ none → m.get? k ≠ none ∨ ∀ name ∈ k, IsName name) : m'.Named := by
  intro k hk
  exact (hget k hk).elim (h k) id

theorem Named.insert (h : m.Named) (hkey : ∀ name ∈ key, IsName name) (entry : Entry) :
    (m.insert key entry).Named := by
  refine h.of_get? fun k hk => ?_
  rw [get?_insert] at hk
  split at hk
  · next heq => exact Or.inr (heq ▸ hkey)
  · exact Or.inl hk

theorem Named.removeAll (h : m.Named) (hremove : m.removeAll key = .ok m') : m'.Named := by
  refine h.of_get? fun k hk => ?_
  by_cases hroot : k = []
  · simp [hroot]
  · rw [get?_of_removeAll_eq_ok hremove hroot] at hk
    split at hk
    · exact absurd rfl hk
    · exact Or.inl hk

theorem Named.rename (h : m.Named) {source : Key} (hkey : ∀ name ∈ key, IsName name)
    (hrename : m.rename source key = .ok m') : m'.Named := by
  by_cases hsame : source = key
  · rw [Memory.rename, if_pos hsame] at hrename
    cases hrename
    exact h
  · obtain ⟨entry, hrenamed⟩ := renamed_of_eq_ok hsame hrename
    refine h.of_get? fun k hk => ?_
    rw [hrenamed.get?_eq] at hk
    split at hk
    · next heq => exact Or.inr (heq ▸ hkey)
    · split at hk
      · exact absurd rfl hk
      · exact Or.inl hk

theorem Named.backend (h : m.Named) (c : Call Bytes Key) : (backend c m).2.Named := by
  cases c with
  | create path =>
    refine inv_change Named h fun m' hm' => ?_
    rw [eq_stamp_of_create hm']
    exact h.insert isName_of_mem_keyOf _
  | openWrite path =>
    refine inv_change Named h fun m' hm' => ?_
    obtain ⟨old, t, -, rfl⟩ := exists_file_of_openWrite hm'
    exact h.insert isName_of_mem_keyOf _
  | createDirAll path =>
    refine h.of_get? fun k hk => ?_
    obtain ⟨e, he⟩ := Option.ne_none_iff_exists'.mp hk
    rcases (m.createDirAll_grown (keyOf path)).made k e he with hold | ⟨-, hpre, -⟩
    · exact Or.inl (by simp [hold])
    · exact Or.inr fun name hname => isName_of_mem_keyOf name (hpre.subset hname)
  | removeAll path => exact inv_change Named h fun m' hm' => h.removeAll hm'
  | rename source target => exact inv_change Named h fun m' hm' => h.rename isName_of_mem_keyOf hm'
  | write writer data =>
    have hwritten : (m.change () (m.append writer data)).2.Named := by
      refine inv_change Named h fun m' hm' => ?_
      obtain ⟨old, t, hget, rfl⟩ := exists_file_of_append hm'
      exact h.insert (h writer (by simp [hget])) _
    exact hwritten
  | _ => exact h

theorem Named.of_mem_readDir (h : m.Named) {listed : List Listed} (hread : m.readDir key = .ok listed) :
    ∀ l ∈ listed, IsName (encode l.name) := by
  intro l hl
  rw [readDir_of_isDirAt (isDirAt_of_readDir_eq_ok hread), Except.ok.injEq] at hread
  rw [← hread, List.mem_mergeSort, List.mem_map] at hl
  obtain ⟨⟨name, e⟩, hchild, rfl⟩ := hl
  rw [children_eq, List.mem_mergeSort, List.mem_filterMap] at hchild
  obtain ⟨entry, hentry, heq⟩ := hchild
  rw [childOf?_eq_some_iff] at heq
  subst heq
  have hget : m.get? (key ++ [name]) ≠ none := fun hnone =>
    (m.get?_eq_none_iff _).mp hnone e hentry
  exact isName_encode_display (h _ hget name (by simp))

/-- A storage in memory shows names only, whatever calls are refused. -/
theorem showsNames (refusal : Refusal Bytes Key) :
    ShowsNames (unreliable Memory.backend refusal) Named where
  kept := by
    intro c m reply m' h hanswer
    exact (Call.Keeps.of_forall (fun c m h => h.backend c) c).of_unreliable h hanswer
  names := by
    rintro path m shown m' h ⟨listed, hanswer, hdim⟩
    cases listed with
    | error x => exact hdim.elim
    | ok listed =>
      have hread : m.readDir (keyOf path) = .ok listed := by
        rcases hanswer with hdone | ⟨x, -, hx, -⟩
        · exact (Prod.mk.inj hdone).1
        · cases hx
      intro l hl
      obtain ⟨l', hl', rfl | ⟨x, -, rfl⟩⟩ := Dimmed.of_mem hdim hl
      · exact h.of_mem_readDir hread l hl'
      · exact h.of_mem_readDir hread l' hl'

end Memory

end SyncEndpoint.Storage
