import SyncEndpoint.Proofs.Endpoint.Move
import SyncEndpoint.Proofs.Endpoint.Walk.Run

set_option autoImplicit false

/-! # Walks without failures

A walk of the whole endpoint enumerates it: it visits what the tree has when the walk is over, and
nothing else, in order and once, and each visit says what the node would say of itself now. -/

namespace SyncEndpoint.Endpoint

open CanonicalPath (IsSegment)
open NativePath (IsName display)
open Storage
open Text.Utf8

variable {e : Endpoint} {f : Failures} {m m' : Memory}

/-! ## The paths of keys -/

/-- The path of a key, from the root. -/
def pathOf (k : Key) : String :=
  CanonicalPath.ofSegments (k.map display)

section PathOf

variable {k : Key} (h : ∀ name ∈ k, IsTextName name)

include h

theorem pathBelow_root : pathBelow CanonicalPath.root k = pathOf k := by
  have hnone : ∀ s ∈ ([] : List String), IsSegment s := by simp
  exact pathBelow_ofSegments hnone fun name hname => (h name hname).1

theorem isSegment_of_mem_map : ∀ s ∈ k.map display, IsSegment s ∧ IsPlain s := by
  intro s hs
  obtain ⟨name, hname, rfl⟩ := List.mem_map.mp hs
  exact isPlain_display (h name hname).1

theorem segments_pathOf : CanonicalPath.segments (pathOf k) = k.map display :=
  CanonicalPath.segments_ofSegments fun s hs => (isSegment_of_mem_map h s hs).1

theorem clean_pathOf : CanonicalPath.clean (pathOf k) = pathOf k :=
  CanonicalPath.clean_ofSegments fun s hs =>
    ⟨(isSegment_of_mem_map h s hs).1, (isSegment_of_mem_map h s hs).2.1⟩

theorem keyAt_pathOf : keyAt (pathOf k) = k := by
  rw [← pathBelow_root h, keyAt_pathBelow h, keyAt_root, List.nil_append]

theorem isRoot_pathOf : CanonicalPath.isRoot (pathOf k) = true ↔ k = [] := by
  rw [CanonicalPath.isRoot_iff, segments_pathOf h, List.map_eq_nil_iff]

end PathOf

/-- What a path leads to by a name has the path of both. -/
theorem entryPath_pathOf {k : Key} {name : Bytes} (hk : ∀ n ∈ k, IsName n) (hname : IsName name) :
    entryPath (pathOf k) name = pathOf (k ++ [name]) := by
  have hsegments : ∀ s ∈ k.map display, IsSegment s := by
    intro s hs
    obtain ⟨n, hn, rfl⟩ := List.mem_map.mp hs
    exact (isPlain_display (hk n hn)).1
  rw [pathOf, pathOf, List.map_append]
  exact pathBelow_ofSegments hsegments (List.forall_mem_singleton.mpr hname)

theorem isTextName_of_mem (h : m.WellFormed) (ht : m.Textual) {k : Key} {entry : Entry}
    (hget : m.get? k = some entry) : ∀ name ∈ k, IsTextName name := by
  have hne : m.get? k ≠ none := by simp [hget]
  exact fun name hname => ⟨h.names k hne name hname, ht k hne name hname⟩

/-! ## What a walk from the root reaches -/

/-- Nothing on the way from the root to a key is ignored as what it is, and neither is what is
there. -/
def Shown (e : Endpoint) (m : Memory) (k : Key) : Prop :=
  ∀ k' entry, k' ≠ [] → k' <+: k → m.get? k' = some entry →
    e.ignored.isIgnored (pathOf k') entry.isDir = false

theorem shown_nil : Shown e m [] :=
  fun _ _ hne hpre _ => absurd (List.prefix_nil.mp hpre) hne

theorem shown_append_singleton {k : Key} {name : Bytes} {entry : Entry}
    (hget : m.get? (k ++ [name]) = some entry) :
    Shown e m (k ++ [name]) ↔
      Shown e m k ∧ e.ignored.isIgnored (pathOf (k ++ [name])) entry.isDir = false := by
  unfold Shown
  constructor
  · intro hshown
    refine ⟨fun k' entry' hne hpre => hshown k' entry' hne ?_, ?_⟩
    · exact hpre.trans (List.prefix_append _ _)
    · exact hshown _ entry (by simp) (List.prefix_refl _) hget
  · rintro ⟨habove, hself⟩ k' entry' hne hpre hget'
    rcases List.prefix_concat_iff.mp hpre with rfl | hpre
    · rw [hget] at hget'
      cases hget'
      exact hself
    · exact habove k' entry' hne hpre hget'

/-- What is found at a key. -/
def foundAt (k : Key) (entry : Entry) : Found :=
  ⟨pathOf k, .ok entry.metadata⟩

/-- Where no call fails, what is found in a directory is what it has and does not ignore. -/
theorem mem_foundIn_foundAt_iff (h : m.WellFormed) (ht : m.Textual) {k : Key} {entry : Entry}
    (hget : m.get? k = some entry) {child : Found} :
    child ∈ foundIn e .calm m (foundAt k entry) ↔
      ∃ name entry', m.get? (k ++ [name]) = some entry' ∧
        e.ignored.isIgnored (pathOf (k ++ [name])) entry'.isDir = false ∧
        child = foundAt (k ++ [name]) entry' := by
  have hnames := isTextName_of_mem h ht hget
  have hkey : keyAt (foundAt k entry).path = k := keyAt_pathOf hnames
  rw [mem_foundIn_iff h ht]
  refine exists_congr fun name => exists_congr fun entry' => ?_
  by_cases hget' : m.get? (k ++ [name]) = some entry'
  · have hnames' := isTextName_of_mem h ht hget'
    have hpath : entryPath (foundAt k entry).path name = pathOf (k ++ [name]) :=
      entryPath_pathOf (fun n hn => (hnames n hn).1) (hnames' name (by simp)).1
    constructor
    · intro hchild
      obtain ⟨-, hignored, hchild⟩ | ⟨x, hx, -, -⟩ := hchild.eq_of_look
      · rw [hpath] at hignored hchild
        exact ⟨hget', hignored, hchild⟩
      · cases hx
    · rintro ⟨-, hignored, rfl⟩
      obtain ⟨t, hdir⟩ := h.parent k name (by rw [hget']; simp)
      cases hget.symm.trans hdir
      refine ⟨⟨_, rfl, rfl⟩, rfl, hkey.symm ▸ ⟨t, hdir⟩, hkey.symm ▸ hget', ?_⟩
      rw [foundIn?_look_eq_some_iff, hpath]
      exact Or.inl ⟨rfl, hignored, rfl⟩
  · refine iff_of_false (fun hchild => hget' ?_) fun hchild => hget' hchild.1
    rw [← hkey]
    exact hchild.get?_eq

/-- Where no call fails, a walk from the root reaches what is not ignored on the way. -/
theorem reaches_root_iff (h : m.WellFormed) (ht : m.Textual) {entry : Entry}
    (hroot : m.get? [] = some entry) {found : Found} :
    Reaches e .calm m (foundAt [] entry) found ↔
      ∃ k entry', m.get? k = some entry' ∧ Shown e m k ∧ found = foundAt k entry' := by
  constructor
  · intro hreach
    induction hreach with
    | refl => exact ⟨[], entry, hroot, shown_nil, rfl⟩
    | tail _ hchild ih =>
      obtain ⟨k, above, hget, hshown, rfl⟩ := ih
      obtain ⟨name, entry', hget', hignored, rfl⟩ := (mem_foundIn_foundAt_iff h ht hget).mp hchild
      exact ⟨k ++ [name], entry', hget', (shown_append_singleton hget').mpr ⟨hshown, hignored⟩, rfl⟩
  · rintro ⟨k, entry', hget, hshown, rfl⟩
    induction k using List.reverseRecOn generalizing entry' with
    | nil =>
      cases hroot.symm.trans hget
      exact .refl
    | append_singleton k name ih =>
      obtain ⟨t, hdir⟩ := h.parent k name (by rw [hget]; simp)
      obtain ⟨habove, hignored⟩ := (shown_append_singleton hget).mp hshown
      exact .tail (ih (.dir t) hdir habove)
        ((mem_foundIn_foundAt_iff h ht hdir).mpr ⟨name, entry', hget, hignored, rfl⟩)

/-! ## What is said of it -/

/-- What is to be said of what is at a key. -/
def visitAt (m : Memory) (k : Key) (entry : Entry) : Visit :=
  ⟨pathOf k, (identityIn .calm m (pathOf k) (!entry.isDir)).map (withStat entry.metadata)⟩

/-- Where no call fails, one thing is said of all but the root. -/
theorem visitsOf_foundAt (h : m.WellFormed) (ht : m.Textual) {k : Key} {entry : Entry}
    (hget : m.get? k = some entry) :
    visitsOf .calm m (foundAt k entry) = if k = [] then [] else [visitAt m k entry] := by
  have hnames := isTextName_of_mem h ht hget
  have hlisting : listingVisits .calm m (pathOf k) entry.metadata = [] := by
    unfold listingVisits
    cases entry with
    | file data t => rfl
    | dir t =>
      obtain ⟨listed, hlisted, -⟩ := h.readDir_eq ht ⟨t, hget⟩
      rw [keyAt_pathOf hnames, Failures.list_calm, hlisted]
      rfl
  show ownVisits .calm m (pathOf k) entry.metadata ++ listingVisits .calm m (pathOf k)
    entry.metadata = _
  unfold ownVisits visitAt
  rw [hlisting, List.append_nil, Entry.isDir_metadata]
  simp only [isRoot_pathOf hnames]

section Visits

variable {founds : List Found}
  (hfounds : ∀ found, found ∈ founds ↔
    ∃ k entry, m.get? k = some entry ∧ Shown e m k ∧ found = foundAt k entry)

include hfounds

theorem mem_visits_iff (h : m.WellFormed) (ht : m.Textual) {v : Visit} :
    v ∈ founds.flatMap (visitsOf .calm m) ↔ ∃ k entry, k ≠ [] ∧ m.get? k = some entry ∧
      Shown e m k ∧ v = visitAt m k entry := by
  rw [List.mem_flatMap]
  constructor
  · rintro ⟨found, hfound, hv⟩
    obtain ⟨k, entry, hget, hshown, rfl⟩ := (hfounds found).mp hfound
    rw [visitsOf_foundAt h ht hget] at hv
    by_cases hk : k = []
    · rw [if_pos hk] at hv
      cases hv
    · rw [if_neg hk, List.mem_singleton] at hv
      exact ⟨k, entry, hk, hget, hshown, hv⟩
  · rintro ⟨k, entry, hk, hget, hshown, rfl⟩
    refine ⟨foundAt k entry, (hfounds _).mpr ⟨k, entry, hget, hshown, rfl⟩, ?_⟩
    rw [visitsOf_foundAt h ht hget, if_neg hk]
    exact List.mem_singleton.mpr rfl

theorem visitsOf_eq_nil_or (h : m.WellFormed) (ht : m.Textual) {found : Found}
    (hfound : found ∈ founds) :
    visitsOf .calm m found = [] ∨ ∃ v, visitsOf .calm m found = [v] := by
  obtain ⟨k, entry, hget, -, rfl⟩ := (hfounds found).mp hfound
  rw [visitsOf_foundAt h ht hget]
  split
  · exact Or.inl rfl
  · exact Or.inr ⟨_, rfl⟩

end Visits

/-! ## Markers -/

theorem lacks_calm_iff {k : Key} : Failures.calm.Lacks m k ↔ Unidentified m k :=
  lacks_iff_unidentified rfl rfl

/-! ## Loading what was visited -/

section Loading

variable {w : World Memory} {k : Key} {entry : Entry}

/-- Where a collection has an identifier, loading a node leaves the tree as it is, and gives what is
to be said of the node. -/
theorem run_loadNode_pathOf (h : w.storage.WellFormed) (ht : w.storage.Textual)
    (hget : w.storage.get? k = some entry)
    (hidentified : entry.isDir = true → ¬ Unidentified w.storage (markerKey (pathOf k))) :
    ∃ minted, (loadNode (pathOf k) none).run.run Memory.backend w =
      ((visitAt w.storage k entry).node, ⟨w.storage, minted⟩) := by
  have hnames := isTextName_of_mem h ht hget
  have hat : w.storage.get? (keyAt (pathOf k)) = some entry := (keyAt_pathOf hnames).symm ▸ hget
  have hidentify : ∃ minted, (identify (pathOf k) (!entry.isDir) :
      Attempt Bytes Key SyncError _).run.run Memory.backend w =
        (identityIn .calm w.storage (pathOf k) (!entry.isDir), ⟨w.storage, minted⟩) := by
    cases entry with
    | file data t =>
      rw [← Failures.backend_calm]
      exact ⟨w.minted, run_identify_leaf⟩
    | dir t => exact run_identify_of_identified ⟨t, hat⟩ (hidentified rfl)
  obtain ⟨minted, hidentify⟩ := hidentify
  have hkey : w.storage.get? (key (pathOf k)) = some entry := by
    rw [key, clean_pathOf hnames]
    exact hat
  refine ⟨minted, ?_⟩
  rw [run_loadNode_of_get? (fun _ _ => rfl) hkey, clean_pathOf hnames, hidentify]
  rfl

end Loading

/-! ## The enumeration -/

/-- Visits that enumerate the tree of `w`, into which a walk has made the tree `m`. -/
structure Enumerates (e : Endpoint) (m : Memory) (visits : List Visit) (w : World Memory) :
    Prop where
  visited : ∀ path, path ∈ visits.map Visit.path ↔ ∃ k entry, k ≠ [] ∧
    w.storage.get? k = some entry ∧ Shown e w.storage k ∧ path = pathOf k
  once : (visits.map Visit.path).Nodup
  ordered : (visits.map Visit.path).Pairwise Precedes
  loaded : ∀ v ∈ visits, ∃ minted,
    (loadNode v.path none).run.run Memory.backend w = (v.node, ⟨w.storage, minted⟩)
  identified : ∀ v ∈ visits, w.storage.IsDirAt (keyAt v.path) →
    Unidentified m (markerKey v.path) → ∃ id modified,
      w.storage.get? (markerKey v.path) = some (.file (encode id) modified) ∧
        Identity.identifierOf? (encode id) = some id
  unchanged : ∀ k, (∀ v ∈ visits, w.storage.IsDirAt (keyAt v.path) → k = markerKey v.path →
    ¬ Unidentified m k) → w.storage.get? k = m.get? k

theorem startOf_calm_root {entry : Entry} (hroot : m.get? [] = some entry) :
    startOf .calm m CanonicalPath.root = foundAt [] entry := by
  have hclean : CanonicalPath.clean CanonicalPath.root = pathOf [] := by decide
  have hkey : key CanonicalPath.root = [] := by
    rw [key, hclean]
    exact keyAt_pathOf (by simp)
  rw [startOf, hkey, hclean, Memory.stat, hroot]
  rfl

section Whole

variable {founds : List Found} (h : m.WellFormed)
  (hw : Walked e .calm m CanonicalPath.root founds m')

include h hw

/-- A walk from the root finds what is there and not ignored. -/
theorem Walked.mem_iff (found : Found) : found ∈ founds ↔
    ∃ k entry, m'.get? k = some entry ∧ Shown e m' k ∧ found = foundAt k entry := by
  obtain ⟨t, hroot⟩ := h.root
  have hroot' : m'.get? [] = some (.dir t) := hw.marked.get?_eq_dir_iff.mpr hroot
  rw [hw.reached, startOf_calm_root hroot,
    reaches_root_iff hw.marked.wellFormed hw.marked.textual hroot']

variable {k : Key} {entry : Entry} (hk : k ≠ []) (hget : m'.get? k = some entry)
  (hshown : Shown e m' k) (hdir : entry.isDir = true)

include hk hget hshown hdir

/-- A collection that is visited lacks an identifier only if it gets one. -/
theorem Walked.marks_pathOf (hmissing : Unidentified m (markerKey (pathOf k))) :
    foundAt k entry ∈ founds ∧ Marks .calm m (foundAt k entry) (markerKey (pathOf k)) := by
  have hnames := isTextName_of_mem hw.marked.wellFormed hw.marked.textual hget
  have hroot : CanonicalPath.isRoot (pathOf k) = false := by
    rw [← Bool.not_eq_true]
    exact fun heq => hk ((isRoot_pathOf hnames).mp heq)
  exact ⟨(hw.mem_iff h _).mpr ⟨k, entry, hget, hshown, rfl⟩,
    ⟨_, rfl, (Entry.isDir_metadata entry).trans hdir⟩, hroot, rfl, lacks_calm_iff.mpr hmissing⟩

theorem Walked.exists_marker (hmissing : Unidentified m (markerKey (pathOf k))) :
    ∃ n t, m'.get? (markerKey (pathOf k)) = some (.file (encode (Uuid.ofNat n)) t) := by
  obtain ⟨hfound, hmarks⟩ := hw.marks_pathOf h hk hget hshown hdir hmissing
  exact hw.marked.marked _ hfound _ hmarks

/-- A collection that is visited has an identifier afterwards. -/
theorem Walked.not_unidentified : ¬ Unidentified m' (markerKey (pathOf k)) := by
  by_cases hmissing : Unidentified m (markerKey (pathOf k))
  · obtain ⟨n, t, hn⟩ := hw.exists_marker h hk hget hshown hdir hmissing
    exact not_unidentified_of_file hn
  · rcases hw.marked.get?_eq_or (markerKey (pathOf k)) with heq | ⟨a, -, hmarks, -⟩
    · rwa [Unidentified, heq]
    · exact absurd (lacks_calm_iff.mp hmarks.2.2.2) hmissing

end Whole

/-- A walk of the whole endpoint is an exact and ordered enumeration of the tree that it leaves. -/
theorem walk_enumerates (e : Endpoint) {w : World Memory} (h : w.storage.WellFormed)
    (ht : w.storage.Textual) :
    ∃ visits w', (walk e []).run Memory.backend w = (visits, w') ∧
      Enumerates e w.storage visits w' := by
  obtain ⟨founds, m', minted, hrun, hw⟩ :=
    run_walkTree (e := e) (f := .calm) h ht CanonicalPath.root
  have h' := hw.marked.wellFormed
  have ht' := hw.marked.textual
  have hfounds := hw.mem_iff h
  have hvisits := fun v => mem_visits_iff hfounds h' ht' (v := v)
  have hordered := pairwise_visits hw.ordered fun _ hfound =>
    visitsOf_eq_nil_or hfounds h' ht' hfound
  refine ⟨founds.flatMap (visitsOf .calm m'), ⟨m', minted⟩, ?_, ?_⟩
  · rw [← Failures.backend_calm]
    exact (run_walk none).trans hrun
  constructor
  case visited =>
    intro path
    rw [List.mem_map]
    constructor
    · rintro ⟨v, hv, rfl⟩
      obtain ⟨k, entry, hk, hget, hshown, rfl⟩ := (hvisits v).mp hv
      exact ⟨k, entry, hk, hget, hshown, rfl⟩
    · rintro ⟨k, entry, hk, hget, hshown, rfl⟩
      exact ⟨_, (hvisits _).mpr ⟨k, entry, hk, hget, hshown, rfl⟩, rfl⟩
  case once => exact nodup_of_pairwise_precedes hordered
  case ordered => exact hordered
  case loaded =>
    intro v hv
    obtain ⟨k, entry, hk, hget, hshown, rfl⟩ := (hvisits v).mp hv
    exact run_loadNode_pathOf (w := ⟨m', minted⟩) h' ht' hget
      fun hdir => hw.not_unidentified h hk hget hshown hdir
  case identified =>
    intro v hv hdir hmissing
    obtain ⟨k, entry, hk, hget, hshown, rfl⟩ := (hvisits v).mp hv
    have hkey : keyAt (visitAt m' k entry).path = k :=
      keyAt_pathOf (isTextName_of_mem h' ht' hget)
    rw [hkey] at hdir
    obtain ⟨t, hdir⟩ := hdir
    cases hget.symm.trans hdir
    obtain ⟨n, stamp, hn⟩ := hw.exists_marker h hk hget hshown rfl hmissing
    exact ⟨_, stamp, hn, Uuid.identifierOf?_encode_ofNat n⟩
  case unchanged =>
    refine fun k hk => hw.marked.unmarked k fun found hfound hmarks => ?_
    obtain ⟨⟨md, hmd, hdir⟩, hnotRoot, rfl, hlacks⟩ := hmarks
    obtain ⟨k, entry, hget, hshown, rfl⟩ := (hfounds found).mp hfound
    have hnames := isTextName_of_mem h' ht' hget
    refine hk _ ((hvisits _).mpr ⟨k, entry, ?_, hget, hshown, rfl⟩) ?_ rfl
      (lacks_calm_iff.mp hlacks)
    · rintro rfl
      rw [← Bool.not_eq_true] at hnotRoot
      exact hnotRoot ((isRoot_pathOf hnames).mpr rfl)
    · cases hmd
      rw [Entry.isDir_metadata] at hdir
      cases entry with
      | file data t => cases hdir
      | dir t => exact ⟨t, (keyAt_pathOf hnames).symm ▸ hget⟩

theorem walk_enumerates_oneFile : ∃ visits w',
    (walk inMemory []).run Memory.backend ⟨oneFile, 0⟩ = (visits, w') ∧
      Enumerates inMemory oneFile visits w' :=
  walk_enumerates inMemory oneFile_wellFormed oneFile_textual

end SyncEndpoint.Endpoint
