import SyncEndpoint.Proofs.Storage.Failures
import SyncEndpoint.Proofs.Storage.Keeping

set_option autoImplicit false

/-! # Where a tree changes

A `Region` says which keys may change, and how: anything may happen to some, some may become those
of new directories, and at some a file may be written. `ChangedIn` says that a tree has changed in
a region only, and is a tree still. That is kept by every call that the region covers, and so by an
attempt all of whose calls it covers (`StaysIn`), whatever fails on the way. -/

namespace SyncEndpoint.Storage

open NativePath (IsName)

/-- Names that are texts. -/
def IsTextual (key : Key) : Prop :=
  ∀ name ∈ key, ∃ text : String, name = Text.Utf8.encode text

theorem isName_of_mem_keyOf {path : NativePath} : ∀ name ∈ keyOf path, IsName name :=
  fun _ => NativePath.isName_of_mem_names

/-! ## What a call does to a tree -/

namespace Memory

variable {m m' : Memory} {key : Key}

/-- A file is written: in the place of a file, or where nothing was. -/
structure Filed (m : Memory) (key : Key) (m' : Memory) : Prop where
  parent : ∃ dir name, key = dir ++ [name] ∧ m.IsDirAt dir
  free : ¬ m.IsDirAt key
  wrote : ∃ data, m.Wrote key data m'

theorem exists_isDirAt_of_requireParent (h : m.requireParent key = .ok ()) :
    ∃ dir name, key = dir ++ [name] ∧ m.IsDirAt dir := by
  rw [requireParent] at h
  cases hparent : parentKey? key with
  | none =>
    rw [hparent] at h
    cases h
  | some dir =>
    rw [hparent] at h
    obtain ⟨name, hkey⟩ := (parentKey?_eq_some_iff key dir).mp hparent
    exact ⟨dir, name, hkey, (requireDir_eq_ok_iff m dir).mp h⟩

theorem filed_of_create (h : m.create key = .ok m') : m.Filed key m' := by
  rw [create] at h
  cases hparent : m.requireParent key with
  | error x =>
    rw [hparent] at h
    cases h
  | ok u =>
    rw [hparent] at h
    refine ⟨exists_isDirAt_of_requireParent hparent, ?_, [], ?_⟩
    · rintro ⟨t, hdir⟩
      simp only [hdir, bind, Except.bind] at h
      cases h
    · cases hget : m.get? key with
      | none =>
        simp only [hget] at h
        cases h
        exact wrote_stamp m key []
      | some entry =>
        cases entry with
        | dir t =>
          simp only [hget] at h
          cases h
        | file data t =>
          simp only [hget] at h
          cases h
          exact wrote_stamp m key []

/-- In a tree a file lies in a directory. -/
theorem WellFormed.filed (h : m.WellFormed) {old : Bytes} {t : Timestamp}
    (hget : m.get? key = some (.file old t)) (data : Bytes) :
    m.Filed key (m.stamp key (.file data)) where
  parent := by
    rcases List.eq_nil_or_concat' key with rfl | ⟨dir, name, rfl⟩
    · obtain ⟨t', hroot⟩ := h.root
      cases hget.symm.trans hroot
    · exact ⟨dir, name, rfl, h.parent dir name (by simp [hget])⟩
  free := by
    rintro ⟨t', hdir⟩
    cases hget.symm.trans hdir
  wrote := ⟨data, wrote_stamp m key data⟩

theorem WellFormed.filed_of_openWrite (h : m.WellFormed) (hopen : m.openWrite key = .ok m') :
    m.Filed key m' := by
  unfold openWrite at hopen
  split at hopen
  · next old t hget =>
    cases hopen
    exact h.filed hget []
  · cases hopen
  · cases hopen

theorem exists_file_of_append {data : Bytes} (happend : m.append key data = .ok m') :
    ∃ old t, m.get? key = some (.file old t) ∧ m' = m.stamp key (.file (old ++ data)) := by
  unfold append at happend
  split at happend
  · next old t hget =>
    cases happend
    exact ⟨old, t, hget, rfl⟩
  · cases happend

theorem WellFormed.filed_of_append (h : m.WellFormed) {data : Bytes}
    (happend : m.append key data = .ok m') : m.Filed key m' := by
  obtain ⟨old, t, hget, rfl⟩ := exists_file_of_append happend
  exact h.filed hget (old ++ data)

theorem Filed.wellFormed (hfiled : m.Filed key m') (h : m.WellFormed)
    (hnames : ∀ name ∈ key, IsName name) : m'.WellFormed := by
  obtain ⟨⟨dir, name, rfl, hdir⟩, hfree, data, hwrote⟩ := hfiled
  exact hwrote.wellFormed h hdir (hnames name (by simp)) hfree

theorem Filed.textual (hfiled : m.Filed key m') (ht : m.Textual) (hkey : IsTextual key) :
    m'.Textual := by
  obtain ⟨⟨dir, name, rfl, hdir⟩, -, data, hwrote⟩ := hfiled
  exact hwrote.textual ht hdir (hkey name (by simp))

/-- With the root everything goes, and an empty root takes its place. -/
theorem removeAll_root (h : m.removeAll [] = .ok m') : m'.entries = (empty m.now).entries := by
  rw [removeAll] at h
  split at h
  · cases h
  · rw [List.filter_eq_nil_iff.mpr (by simp)] at h
    cases h
    rfl

/-- Removing something, the root included, leaves a tree. -/
theorem WellFormed.of_removeAll (h : m.WellFormed) (hremove : m.removeAll key = .ok m') :
    m'.WellFormed := by
  by_cases hkey : key = []
  · subst hkey
    exact (wellFormed_empty m.now).of_entries_eq (removeAll_root hremove)
  · exact (h.removeAll hkey hremove).1

/-- A rename that succeeds leaves a tree, unless it has put something below itself. -/
theorem WellFormed.of_rename (h : m.WellFormed) {source target : Key}
    (hnames : ∀ name ∈ target, IsName name) (hrename : m.rename source target = .ok m')
    (hbelow : source <+: target → source = target) : m'.WellFormed := by
  by_cases hsame : source = target
  · rw [rename, if_pos hsame] at hrename
    cases hrename
    exact h
  · obtain ⟨entry, hrenamed⟩ := renamed_of_eq_ok hsame hrename
    obtain ⟨above, name, rfl, habove⟩ := exists_isDirAt_of_requireParent hrenamed.parent
    have hsource : source ≠ [] := by
      rintro rfl
      exact hsame (hbelow List.nil_prefix)
    exact h.renamed hrenamed hsource (fun hpre => hsame (hbelow hpre)) (hnames name (by simp))

/-- What a rename puts below itself is left in a directory that is gone. -/
theorem WellFormed.orphan_of_rename (h : m.WellFormed) {source target : Key}
    (hrename : m.rename source target = .ok m') (hbelow : source <+: target)
    (hne : source ≠ target) :
    m'.get? source = none ∧ ∃ name, m'.get? (source ++ [name]) ≠ none := by
  obtain ⟨entry, hrenamed⟩ := renamed_of_eq_ok hne hrename
  obtain ⟨above, name, rfl, habove⟩ := exists_isDirAt_of_requireParent hrenamed.parent
  have hbetween : source <+: above :=
    (List.prefix_concat_iff.mp hbelow).resolve_left hne
  -- There was nothing in the source, so that it is the directory that the target lies in.
  obtain rfl : source = above := by
    by_contra hstrict
    obtain ⟨rest, rfl⟩ := hbetween
    cases rest with
    | nil => exact hstrict (List.append_nil _).symm
    | cons first rest =>
      obtain ⟨t, hdir⟩ := h.above habove.ne_none
      cases hrenamed.source_eq.symm.trans hdir
      exact habove.ne_none (hrenamed.empty rfl _ (List.prefix_append _ _) (by simp))
  refine ⟨by rw [hrenamed.get?_eq, if_neg hne, if_pos rfl], name, ?_⟩
  rw [hrenamed.get?_eq, if_pos rfl]
  simp

end Memory

/-! ## Regions -/

/-- Where a tree may change, and how. -/
structure Region where
  /-- Anything may happen at these keys. -/
  free : Key → Prop := fun _ => False
  /-- Directories may be made at these keys, where nothing is. -/
  made : Key → Prop := fun _ => False
  /-- Files may be written at these keys, where no directory is. -/
  written : Key → Prop := fun _ => False

namespace Region

/-- A region in which nothing may change. -/
def nowhere : Region := {}

/-- The one key at which a file may be written. -/
def file (key : Key) : Region :=
  { written := (· = key) }

/-- What the region allows to become of what is at a key. -/
def Allows (r : Region) (k : Key) (before after : Option Entry) : Prop :=
  r.free k ∨ (r.made k ∧ before = none ∧ ∃ t, after = some (.dir t)) ∨
    r.written k ∧ (∀ t, before ≠ some (.dir t)) ∧ ∃ data t, after = some (.file data t)

theorem Allows.trans {r : Region} {k : Key} {a b c : Option Entry} (hab : r.Allows k a b)
    (hbc : r.Allows k b c) : r.Allows k a c := by
  rcases hab with hfree | ⟨-, -, t, rfl⟩ | ⟨hwritten, hdir, data, t, rfl⟩
  · exact Or.inl hfree
  · -- A directory that was made may not be made again, and not be replaced by a file.
    rcases hbc with hfree | ⟨-, hnone, -⟩ | ⟨-, hdir, -⟩
    · exact Or.inl hfree
    · cases hnone
    · exact absurd rfl (hdir t)
  · rcases hbc with hfree | ⟨-, hnone, -⟩ | ⟨-, -, hfile⟩
    · exact Or.inl hfree
    · cases hnone
    · exact Or.inr (Or.inr ⟨hwritten, hdir, hfile⟩)

/-- A region that allows more. -/
def Within (r r' : Region) : Prop :=
  ∀ k, (r.free k → r'.free k) ∧ (r.made k → r'.made k) ∧ (r.written k → r'.written k)

theorem Allows.mono {r r' : Region} (hr : r.Within r') {k : Key} {before after : Option Entry}
    (h : r.Allows k before after) : r'.Allows k before after :=
  h.imp (hr k).1 (Or.imp (And.imp_left (hr k).2.1) (And.imp_left (hr k).2.2))

/-- The call changes a tree in the region only. -/
def Covers (r : Region) : Call Bytes Key → Prop
  | .create path | .openWrite path => IsTextual (keyOf path) ∧ r.written (keyOf path)
  | .createDirAll path =>
    IsTextual (keyOf path) ∧ ∀ k, k <+: keyOf path → r.free k ∨ r.made k
  | .removeAll path => ∀ k, keyOf path <+: k → r.free k
  | .rename source target =>
    IsTextual (keyOf target) ∧ (keyOf source <+: keyOf target → keyOf source = keyOf target) ∧
      r.free (keyOf source) ∧ r.free (keyOf target)
  | .write writer _ => r.written writer
  | _ => True

end Region

/-! ## Changes in a region -/

namespace Memory

/-- A tree that was changed in a region only, and is a tree still. -/
structure ChangedIn (r : Region) (m m' : Memory) : Prop where
  wellFormed : m'.WellFormed
  textual : m'.Textual
  get?_eq_or : ∀ k, m'.get? k = m.get? k ∨ r.Allows k (m.get? k) (m'.get? k)

namespace ChangedIn

variable {r r' : Region} {m m₁ m' : Memory}

theorem refl (h : m.WellFormed) (ht : m.Textual) : m.ChangedIn r m :=
  ⟨h, ht, fun _ => Or.inl rfl⟩

theorem trans (h : m.ChangedIn r m₁) (h' : m₁.ChangedIn r m') : m.ChangedIn r m' where
  wellFormed := h'.wellFormed
  textual := h'.textual
  get?_eq_or := by
    intro k
    rcases h.get?_eq_or k with heq | hallows
    · rw [← heq]
      exact h'.get?_eq_or k
    · rcases h'.get?_eq_or k with heq | hallows'
      · rw [heq]
        exact Or.inr hallows
      · exact Or.inr (hallows.trans hallows')

theorem mono (h : m.ChangedIn r m') (hr : r.Within r') : m.ChangedIn r' m' :=
  ⟨h.wellFormed, h.textual, fun k => (h.get?_eq_or k).imp_right (.mono hr)⟩

end ChangedIn

variable {r : Region} {m m' : Memory} {key : Key}

theorem Filed.changedIn (hfiled : m.Filed key m') (h : m.WellFormed) (ht : m.Textual)
    (hnames : ∀ name ∈ key, IsName name) (hkey : IsTextual key) (hwritten : r.written key) :
    m.ChangedIn r m' where
  wellFormed := hfiled.wellFormed h hnames
  textual := hfiled.textual ht hkey
  get?_eq_or := by
    intro k
    obtain ⟨-, hfree, data, hwrote⟩ := hfiled
    by_cases hk : k = key
    · subst hk
      obtain ⟨t, hfile⟩ := hwrote.file
      exact Or.inr (Or.inr (Or.inr ⟨hwritten, fun t hdir => hfree ⟨t, hdir⟩, data, t, hfile⟩))
    · exact Or.inl (hwrote.others k hk)

theorem changedIn_append (h : m.WellFormed) (ht : m.Textual) {data : Bytes}
    (happend : m.append key data = .ok m') (hwritten : r.written key) : m.ChangedIn r m' := by
  obtain ⟨old, t, hget, -⟩ := exists_file_of_append happend
  have hne : m.get? key ≠ none := by simp [hget]
  exact (h.filed_of_append happend).changedIn h ht (h.names key hne) (ht key hne) hwritten

theorem changedIn_createDirAll (h : m.WellFormed) (ht : m.Textual)
    (hnames : ∀ name ∈ key, IsName name) (hkey : IsTextual key)
    (hmade : ∀ k, k <+: key → r.free k ∨ r.made k) : m.ChangedIn r (m.createDirAll key).2 where
  wellFormed := h.createDirAll hnames
  textual := ht.grown (m.createDirAll_grown key) hkey
  get?_eq_or := by
    intro k
    have hgrown := m.createDirAll_grown key
    by_cases hk : k <+: key
    · rcases hmade k hk with hfree | hmade
      · exact Or.inr (Or.inl hfree)
      · cases hget : m.get? k with
        | some e => exact Or.inl (hgrown.kept k e hget)
        | none =>
          cases hget' : (m.createDirAll key).2.get? k with
          | none => exact Or.inl rfl
          | some e =>
            rcases hgrown.made k e hget' with hold | ⟨-, -, t, rfl⟩
            · rw [hget] at hold
              cases hold
            · exact Or.inr (Or.inr (Or.inl ⟨hmade, rfl, t, rfl⟩))
    · exact Or.inl (hgrown.get?_eq hk)

theorem changedIn_removeAll (h : m.WellFormed) (ht : m.Textual) (hremove : m.removeAll key = .ok m')
    (hfree : ∀ k, key <+: k → r.free k) : m.ChangedIn r m' where
  wellFormed := h.of_removeAll hremove
  textual := by
    intro k hget name hname
    by_cases hk : k = []
    · rw [hk] at hname
      cases hname
    · rw [get?_of_removeAll_eq_ok hremove hk] at hget
      split at hget
      · exact absurd rfl hget
      · exact ht k hget name hname
  get?_eq_or := by
    intro k
    by_cases hk : key <+: k
    · exact Or.inr (Or.inl (hfree k hk))
    · refine Or.inl ?_
      have hkey : key ≠ [] := by
        rintro rfl
        exact hk List.nil_prefix
      rw [(h.removeAll hkey hremove).2, if_neg hk]

theorem changedIn_rename (h : m.WellFormed) (ht : m.Textual) {source target : Key}
    (hnames : ∀ name ∈ target, IsName name) (htarget : IsTextual target)
    (hrename : m.rename source target = .ok m') (hbelow : source <+: target → source = target)
    (hfree : r.free source ∧ r.free target) : m.ChangedIn r m' := by
  have h' := h.of_rename hnames hrename hbelow
  by_cases hsame : source = target
  · rw [rename, if_pos hsame] at hrename
    cases hrename
    exact .refl h ht
  · obtain ⟨entry, hrenamed⟩ := renamed_of_eq_ok hsame hrename
    refine ⟨h', fun k hget name hname => ?_, fun k => ?_⟩
    · rw [hrenamed.get?_eq] at hget
      split at hget
      · next heq => exact htarget name (heq ▸ hname)
      · split at hget
        · exact absurd rfl hget
        · exact ht k hget name hname
    · rw [hrenamed.get?_eq]
      split
      · next heq => exact Or.inr (Or.inl (heq ▸ hfree.2))
      · split
        · next heq => exact Or.inr (Or.inl (heq ▸ hfree.1))
        · exact Or.inl rfl

/-- A call that the region covers changes a tree in the region only. -/
theorem changedIn_backend {c : Call Bytes Key} (h : m.WellFormed) (ht : m.Textual)
    (hc : r.Covers c) : m.ChangedIn r (backend c m).2 := by
  have hsame : m.ChangedIn r m := .refl h ht
  cases c with
  | create path =>
    exact inv_change (m.ChangedIn r) hsame fun m' hm' =>
      (filed_of_create hm').changedIn h ht isName_of_mem_keyOf hc.1 hc.2
  | openWrite path =>
    exact inv_change (m.ChangedIn r) hsame fun m' hm' =>
      (h.filed_of_openWrite hm').changedIn h ht isName_of_mem_keyOf hc.1 hc.2
  | createDirAll path => exact changedIn_createDirAll h ht isName_of_mem_keyOf hc.1 hc.2
  | removeAll path =>
    exact inv_change (m.ChangedIn r) hsame fun m' hm' => changedIn_removeAll h ht hm' hc
  | rename source target =>
    obtain ⟨htext, hbelow, hfree⟩ := hc
    exact inv_change (m.ChangedIn r) hsame fun m' hm' =>
      changedIn_rename h ht isName_of_mem_keyOf htext hm' hbelow hfree
  | write writer data =>
    have hchanged : m.ChangedIn r (m.change () (m.append writer data)).2 :=
      inv_change (m.ChangedIn r) hsame fun m' hm' => changedIn_append h ht hm' hc
    exact hchanged
  | _ => exact hsame

end Memory

/-- What has become of a tree in the region stays in the region. -/
theorem Region.Covers.keeps {r : Region} {m₀ : Memory} {c : Call Bytes Key} (hc : r.Covers c) :
    c.Keeps Memory.backend (m₀.ChangedIn r) := by
  have hcall {c : Call Bytes Key} (hc : r.Covers c) (m : Memory) (h : m₀.ChangedIn r m) :
      m₀.ChangedIn r (Memory.backend c m).2 :=
    h.trans (Memory.changedIn_backend h.wellFormed h.textual hc)
  cases c with
  | write writer data => exact fun n => hcall (c := .write writer (data.take n)) hc
  | _ => exact hcall hc

/-! ## Attempts that stay in a region -/

/-- Whatever calls are refused, an attempt changes what has become of a tree in a region only, and
what it comes to, if it does not fail, has a property. -/
abbrev StaysIn {ε α : Type} (r : Region) (m₀ : Memory) (x : Attempt Bytes Key ε α)
    (result : α → Prop) : Prop :=
  Keeps (unreliable Memory.backend .all) (m₀.ChangedIn r) x result

theorem StaysIn.of_runs {ε α : Type} {r : Region} {w w' : World Memory}
    {x : Attempt Bytes Key ε α} {result : α → Prop} (h : StaysIn r w.storage x result)
    (hw : w.storage.WellFormed) (ht : w.storage.Textual) {res : Except ε α}
    (hruns : x.run.Runs (unreliable Memory.backend .all) w res w') :
    w.storage.ChangedIn r w'.storage :=
  (KeepsOr.of_runs h (.refl hw ht) hruns).1

end SyncEndpoint.Storage
