import SyncEndpoint.Proofs.Endpoint.Footprint
import SyncEndpoint.Proofs.Endpoint.Walk.Enumeration

set_option autoImplicit false

/-! # What the paths of a walk lead to

A walk finds the entries of a directory by their names as they are stored, and says of each what it
is. But the names are shown as texts, and the identity of an entry, and what lies below it, is looked
for by the path that is shown. Here a walk is followed in any tree, with the key of each entry that it
comes to beside the path that it shows for it. -/

namespace SyncEndpoint.Endpoint

open NativePath (IsName display)
open Storage
open Text.Utf8

variable {e : Endpoint} {m m' m'' : Memory} {w : World Memory} {path : String}

/-! ## Trees that get markers -/

/-- A tree after some of its collections, which lacked a marker, have got one; the root is not one of
them. -/
structure GetsMarkers (m m' : Memory) : Prop where
  wellFormed : m'.WellFormed
  get?_eq_or : ∀ k, m'.get? k = m.get? k ∨ ∃ dir, dir ≠ [] ∧ k = dir ++ [encode markerName] ∧
    m.IsDirAt dir ∧ Unidentified m k ∧ ∃ n t, m'.get? k = some (.file (encode (Uuid.ofNat n)) t)

/-- A directory has its marker, or gets none. -/
def Settled (m : Memory) (dir : Key) : Prop :=
  dir = [] ∨ ¬ m.IsDirAt dir ∨ ¬ Unidentified m (dir ++ [encode markerName])

namespace GetsMarkers

variable {k : Key}

theorem refl (h : m.WellFormed) : GetsMarkers m m :=
  ⟨h, fun _ => Or.inl rfl⟩

/-- Directories stay, and there are no others. -/
theorem get?_eq_dir_iff (h : GetsMarkers m m') {t : Timestamp} :
    m'.get? k = some (.dir t) ↔ m.get? k = some (.dir t) := by
  rcases h.get?_eq_or k with heq | ⟨-, -, -, -, hlacks, n, t', heq⟩
  · rw [heq]
  · rw [heq]
    refine ⟨fun hdir => (by cases hdir), fun hdir => ?_⟩
    rcases hlacks with hnone | ⟨data, t'', hfile, -⟩
    · cases hdir.symm.trans hnone
    · cases hdir.symm.trans hfile

theorem isDirAt_iff (h : GetsMarkers m m') : m'.IsDirAt k ↔ m.IsDirAt k :=
  exists_congr fun _ => h.get?_eq_dir_iff

/-- What is there stays a directory or a file. -/
theorem exists_get? (h : GetsMarkers m m') {entry : Entry} (hget : m.get? k = some entry) :
    ∃ entry', m'.get? k = some entry' ∧ entry'.isDir = entry.isDir := by
  rcases h.get?_eq_or k with heq | ⟨-, -, -, -, hlacks, n, t, heq⟩
  · exact ⟨entry, heq.trans hget, rfl⟩
  · refine ⟨_, heq, ?_⟩
    rcases hlacks with hnone | ⟨data, t', hfile, -⟩
    · cases hget.symm.trans hnone
    · obtain rfl := Option.some.inj (hget.symm.trans hfile)
      rw [Entry.isDir_file, Entry.isDir_file]

theorem trans (h : GetsMarkers m m') (h' : GetsMarkers m' m'') : GetsMarkers m m'' where
  wellFormed := h'.wellFormed
  get?_eq_or := by
    intro k
    rcases h'.get?_eq_or k with heq' | ⟨dir, hne, hk, hdir, hlacks, hfile⟩
    · rw [heq']
      exact h.get?_eq_or k
    · rcases h.get?_eq_or k with heq | ⟨-, -, -, -, -, n, t, heq⟩
      · refine Or.inr ⟨dir, hne, hk, h.isDirAt_iff.mp hdir, ?_, hfile⟩
        rwa [Unidentified, ← heq]
      · -- A marker that was written is not written again.
        exact absurd hlacks (not_unidentified_of_file heq)

/-- What is in a settled directory stays as it is. -/
theorem get?_eq (h : GetsMarkers m m') {dir : Key} (hsettled : Settled m dir) (name : Bytes) :
    m'.get? (dir ++ [name]) = m.get? (dir ++ [name]) := by
  rcases h.get?_eq_or (dir ++ [name]) with heq | ⟨dir', hne, hk, hdir, hlacks, -⟩
  · exact heq
  · obtain ⟨rfl, -⟩ := List.append_inj' hk rfl
    rw [hk] at hlacks
    rcases hsettled with hroot | hnone | hmarker
    · exact absurd hroot hne
    · exact absurd hdir hnone
    · exact absurd hlacks hmarker

theorem of_wrote (h : m.WellFormed) {dir : Key} (hne : dir ≠ []) (hdir : m.IsDirAt dir)
    (hlacks : Unidentified m (dir ++ [encode markerName])) {n : Nat}
    (hwrote : m.Wrote (dir ++ [encode markerName]) (encode (Uuid.ofNat n)) m') :
    GetsMarkers m m' := by
  have hfree : ¬ m.IsDirAt (dir ++ [encode markerName]) := by
    rintro ⟨t, hthere⟩
    rcases hlacks with hnone | ⟨data, t', hfile, -⟩
    · cases hthere.symm.trans hnone
    · cases hthere.symm.trans hfile
  refine ⟨hwrote.wellFormed h hdir Identity.isName_markerName hfree, fun k => ?_⟩
  by_cases hk : k = dir ++ [encode markerName]
  · obtain ⟨t, hfile⟩ := hwrote.file
    exact Or.inr ⟨dir, hne, hk, hdir, hk ▸ hlacks, n, t, hk ▸ hfile⟩
  · exact Or.inl (hwrote.others k hk)

end GetsMarkers

/-! ## What is reported -/

/-- Something that a walk comes to: the path that it shows, and the entry that it has seen at a
key. -/
structure Report where
  path : String
  key : Key
  entry : Entry

/-- What a walk knows of it before the visit. -/
def Report.found (r : Report) : Found :=
  ⟨r.path, .ok r.entry.metadata⟩

/-- A visit tells of an entry: it shows the path, and, if there is no error, what the entry is. -/
def Report.Tells (r : Report) (v : Visit) : Prop :=
  v.path = r.path ∧ ∀ node, v.node = .ok node → node.path = r.path ∧
    node.isLeaf = !r.entry.isDir ∧ node.size = some r.entry.metadata.length ∧
    node.mtime = r.entry.metadata.modified ∧ node.mode = some r.entry.metadata.mode

/-- From a directory a walk comes to what is listed at the key of the path that it shows, unless that
is ignored. -/
inductive Leads (e : Endpoint) (m : Memory) (r : Report) : Report → Prop
  | entry {name : Bytes} {entry : Entry} (hdir : r.entry.isDir = true)
      (hget : m.get? (keyOf (nativePath r.path) ++ [name]) = some entry)
      (hshown : e.ignored.isIgnored (entryPath r.path name) entry.isDir = false) :
      Leads e m r ⟨entryPath r.path name, keyOf (nativePath r.path) ++ [name], entry⟩

/-- What a walk of a whole tree comes to, from the root on. -/
def Reported (e : Endpoint) (m : Memory) (r : Report) : Prop :=
  ∃ root, m.get? [] = some root ∧
    Relation.ReflTransGen (Leads e m) ⟨CanonicalPath.root, [], root⟩ r

theorem Leads.isDir {r r' : Report} (hleads : Leads e m r r') : r.entry.isDir = true := by
  obtain ⟨hdir, -, -⟩ := hleads
  exact hdir

theorem Leads.isDirAt {r r' : Report} (hleads : Leads e m r r') (h : m.WellFormed) :
    m.IsDirAt (keyAt r.path) := by
  obtain ⟨-, hget, -⟩ := hleads
  rw [← keyOf_nativePath]
  exact h.parent _ _ (by rw [hget]; simp)

theorem Leads.length_eq {r r' : Report} (hleads : Leads e m r r') (h : m.WellFormed) :
    (keyAt r'.path).length = (keyAt r.path).length + 1 := by
  cases hleads with
  | @entry name entry hdir hget hshown =>
    have hname : IsName name := h.names _ (by rw [hget]; simp) name (by simp)
    rw [keyAt_entryPath_display hname, List.length_append, List.length_singleton]

theorem length_le_of_leads (h : m.WellFormed) {r r' : Report}
    (hreach : Relation.ReflTransGen (Leads e m) r r') :
    (keyAt r.path).length ≤ (keyAt r'.path).length := by
  induction hreach with
  | refl => exact le_rfl
  | tail _ hleads ih =>
    rw [hleads.length_eq h]
    exact ih.trans (Nat.le_succ _)

/-- What a settled directory leads to does not change. -/
theorem leads_iff (hgets : GetsMarkers m m') {r r' : Report} (hsettled : Settled m (keyAt r.path)) :
    Leads e m' r r' ↔ Leads e m r r' := by
  have hsame := hgets.get?_eq hsettled
  rw [← keyOf_nativePath] at hsame
  constructor
  · rintro ⟨hdir, hget, hshown⟩
    exact ⟨hdir, (hsame _).symm.trans hget, hshown⟩
  · rintro ⟨hdir, hget, hshown⟩
    exact ⟨hdir, (hsame _).trans hget, hshown⟩

/-- What a walk makes of an entry of a directory, unless it is ignored. -/
def reportIn? (e : Endpoint) (r : Report) (child : Bytes × Entry) : Option Report :=
  if e.ignored.isIgnored (entryPath r.path child.1) child.2.isDir then none
  else some ⟨entryPath r.path child.1, keyOf (nativePath r.path) ++ [child.1], child.2⟩

theorem foundIn?_listedOf (r : Report) (child : Bytes × Entry) :
    e.foundIn? r.path (Memory.listedOf child) = (reportIn? e r child).map Report.found := by
  unfold foundIn? reportIn? Memory.listedOf
  dsimp only
  rw [Entry.isDir_metadata]
  split
  · next hignored => rw [entryPath, if_pos hignored, Option.map_none]
  · next hshown => rw [entryPath, if_neg hshown, Option.map_some, Report.found]

/-- What is listed in a directory is what it leads to. -/
theorem exists_readDir (h : m.WellFormed) {r : Report} (hisDir : r.entry.isDir = true)
    (hdir : m.IsDirAt (keyAt r.path)) :
    ∃ (entries : List Listed) (rs : List Report), m.readDir (keyAt r.path) = .ok entries ∧
      entries.filterMap (e.foundIn? r.path) = rs.map Report.found ∧
      ∀ r', r' ∈ rs ↔ Leads e m r r' := by
  -- Sorting what is listed is sorting the entries that it is listed of.
  obtain ⟨children, hchildren⟩ : ∃ children, children = (m.children (keyAt r.path)).mergeSort
    fun a b => decide (display a.1 ≤ display b.1) := ⟨_, rfl⟩
  have hlisted : m.readDir (keyAt r.path) = .ok (children.map Memory.listedOf) := by
    have hsort : ((m.children (keyAt r.path)).mergeSort
        fun a b => decide (display a.1 ≤ display b.1)).map Memory.listedOf =
          ((m.children (keyAt r.path)).map Memory.listedOf).mergeSort
            fun a b => decide (a.name ≤ b.name) := List.map_mergeSort fun _ _ _ _ => rfl
    rw [Memory.readDir_of_isDirAt hdir, hchildren, hsort]
  have hmem : ∀ name entry, (name, entry) ∈ children ↔
      m.get? (keyOf (nativePath r.path) ++ [name]) = some entry := by
    intro name entry
    rw [hchildren, List.mem_mergeSort, Memory.mem_children_iff h, keyOf_nativePath]
  refine ⟨_, children.filterMap (reportIn? e r), hlisted, ?_, fun r' => ?_⟩
  · rw [List.filterMap_map, List.map_filterMap]
    refine List.filterMap_congr fun child _ => ?_
    rw [Function.comp_apply, foundIn?_listedOf]
  · rw [List.mem_filterMap]
    constructor
    · rintro ⟨⟨name, entry⟩, hchild, hreport⟩
      rw [reportIn?, Option.ite_none_left_eq_some, Bool.not_eq_true, Option.some.injEq] at hreport
      obtain ⟨hshown, rfl⟩ := hreport
      exact ⟨hisDir, (hmem name entry).mp hchild, hshown⟩
    · rintro ⟨-, hget, hshown⟩
      refine ⟨_, (hmem _ _).mpr hget, if_neg ?_⟩
      rw [hshown]
      exact Bool.false_ne_true

/-! ## Visits -/

theorem exists_of_map_eq_ok {α β ε : Type} {f : α → β} {x : Except ε α} {b : β}
    (h : x.map f = .ok b) : ∃ a, x = .ok a ∧ f a = b := by
  cases x with
  | error x => cases h
  | ok a => exact ⟨a, rfl, Except.ok.inj h⟩

/-- Whatever its identifier is, a node is what was asked for. -/
theorem of_run_identify {isLeaf : Bool} {node : Node}
    (hrun : ((identify path isLeaf : Attempt Bytes Key SyncError Node).run.run Memory.backend w).1 =
      .ok node) : node.path = path ∧ node.isLeaf = isLeaf := by
  cases isLeaf with
  | true =>
    rw [identify, if_pos rfl, Attempt.run_map] at hrun
    obtain ⟨digest, -, rfl⟩ := exists_of_map_eq_ok hrun
    exact ⟨rfl, rfl⟩
  | false =>
    rw [identify, if_neg Bool.false_ne_true, Attempt.run_map] at hrun
    obtain ⟨id, -, rfl⟩ := exists_of_map_eq_ok hrun
    exact ⟨rfl, rfl⟩

theorem run_identify_settles (h : w.storage.WellFormed) (hne : keyAt path ≠ []) :
    ∃ res m' minted, (identify path false : Attempt Bytes Key SyncError Node).run.run Memory.backend
        w = (res, ⟨m', minted⟩) ∧
      GetsMarkers w.storage m' ∧ Settled m' (keyAt path) := by
  rw [← Failures.backend_calm]
  by_cases hdir : w.storage.IsDirAt (keyAt path)
  · obtain ⟨m', minted, hrun, heffect⟩ := run_identify_collection (f := .calm) hdir
    rcases heffect with ⟨hlacks, n, hwrote⟩ | ⟨hlacks, rfl⟩
    · refine ⟨_, m', minted, hrun, .of_wrote h hne hdir (lacks_calm_iff.mp hlacks) hwrote, ?_⟩
      obtain ⟨t, hfile⟩ := hwrote.file
      exact Or.inr (Or.inr (not_unidentified_of_file hfile))
    · exact ⟨_, w.storage, minted, hrun, .refl h,
        Or.inr (Or.inr fun hmissing => hlacks (lacks_calm_iff.mpr hmissing))⟩
  · obtain ⟨x, minted, hrun⟩ := run_identify_of_not_isDirAt (f := .calm) h hdir
    exact ⟨_, w.storage, minted, hrun, .refl h, Or.inr (Or.inl hdir)⟩

/-- A visit tells of what was come to, and settles it if it is a directory. -/
theorem run_visitNode_tells (h : w.storage.WellFormed) (r : Report)
    (htop : CanonicalPath.isRoot r.path = true ∨ keyAt r.path ≠ []) :
    ∃ own m' minted, (visitNode r.path r.entry.metadata).run Memory.backend w = (own, ⟨m', minted⟩) ∧
      GetsMarkers w.storage m' ∧ (r.entry.isDir = true → Settled m' (keyAt r.path)) ∧
      (∀ v ∈ own, r.Tells v) ∧ (CanonicalPath.isRoot r.path = false → own ≠ []) := by
  by_cases hroot : CanonicalPath.isRoot r.path = true
  · refine ⟨[], w.storage, w.minted, ?_, .refl h, fun _ => Or.inl (keyAt_of_isRoot hroot), ?_, ?_⟩
    · simp only [visitNode, if_pos hroot, Program.run_pure]
    · simp
    · simp [hroot]
  · have hidentify : ∃ res m' minted, (identify r.path (!r.entry.isDir) :
        Attempt Bytes Key SyncError Node).run.run Memory.backend w = (res, ⟨m', minted⟩) ∧
          GetsMarkers w.storage m' ∧ (r.entry.isDir = true → Settled m' (keyAt r.path)) := by
      cases hisDir : r.entry.isDir with
      | true =>
        obtain ⟨res, m', minted, hrun, hgets, hsettled⟩ :=
          run_identify_settles h (htop.resolve_left hroot)
        exact ⟨res, m', minted, hrun, hgets, fun _ => hsettled⟩
      | false =>
        rw [← Failures.backend_calm]
        exact ⟨_, w.storage, w.minted, run_identify_leaf, .refl h,
          fun hdir => absurd hdir Bool.false_ne_true⟩
    obtain ⟨res, m', minted, hrun, hgets, hsettled⟩ := hidentify
    refine ⟨[⟨r.path, res.map (withStat r.entry.metadata)⟩], m', minted, ?_, hgets, hsettled, ?_,
      fun _ => List.cons_ne_nil _ _⟩
    · simp only [visitNode, if_neg hroot, Entry.isDir_metadata]
      rw [Program.run_bind, hrun, Program.run_pure]
    · rw [List.forall_mem_singleton]
      refine ⟨rfl, fun node hnode => ?_⟩
      obtain ⟨node, hres, rfl⟩ := exists_of_map_eq_ok hnode
      have hnode := of_run_identify (by rw [hrun, hres])
      exact ⟨hnode.1, hnode.2, rfl, rfl, rfl⟩

/-! ## The walk -/

/-- The visits of a walk from something tell of what it comes to, and they tell of all of it that is
less than `depth` levels down, except the root. -/
structure Told (e : Endpoint) (m : Memory) (depth : Nat) (top : Report) (visits : List Visit) :
    Prop where
  sound : ∀ v ∈ visits, ∃ r, Relation.ReflTransGen (Leads e m) top r ∧ r.Tells v
  complete : ∀ r, Relation.ReflTransGen (Leads e m) top r → CanonicalPath.isRoot r.path = false →
    (keyAt r.path).length < (keyAt top.path).length + depth → ∃ v ∈ visits, r.Tells v

theorem Told.of_below {depth : Nat} {top : Report} {rs : List Report} {own : List Visit}
    {below : List (List Visit)} (h : m.WellFormed) (hrs : ∀ r, r ∈ rs ↔ Leads e m top r)
    (hown : ∀ v ∈ own, top.Tells v) (hsaid : CanonicalPath.isRoot top.path = false → own ≠ [])
    (hbelow : List.Forall₂ (Told e m depth) rs below) :
    Told e m (depth + 1) top (own ++ below.flatten) where
  sound := by
    intro v hv
    rcases List.mem_append.mp hv with hv | hv
    · exact ⟨top, .refl, hown v hv⟩
    · obtain ⟨visits, hvisits, hv⟩ := List.mem_flatten.mp hv
      obtain ⟨r, hr, htold⟩ := exists_left_of_mem hbelow hvisits
      obtain ⟨r', hreach, htells⟩ := htold.sound v hv
      exact ⟨r', .head ((hrs r).mp hr) hreach, htells⟩
  complete := by
    intro r hreach hroot hdepth
    rcases hreach.cases_head with rfl | ⟨r', hleads, hreach⟩
    · obtain ⟨v, hv⟩ := List.exists_mem_of_ne_nil own (hsaid hroot)
      exact ⟨v, List.mem_append_left _ hv, hown v hv⟩
    · obtain ⟨visits, hvisits, htold⟩ := exists_right_of_mem hbelow ((hrs r').mpr hleads)
      have hlength := hleads.length_eq h
      obtain ⟨v, hv, htells⟩ := htold.complete r hreach hroot (by omega)
      exact ⟨v, List.mem_append_right _ (List.mem_flatten.mpr ⟨visits, hvisits, hv⟩), htells⟩

/-- A walk through `depth` levels tells of what there is to be come to in the tree that it leaves, and
in all trees that are made of it by markers. -/
def WalkTells (e : Endpoint) (depth : Nat) : Prop :=
  ∀ (top : Report) (w : World Memory), w.storage.WellFormed →
    CanonicalPath.isRoot top.path = true ∨ keyAt top.path ≠ [] → ∃ visits m' minted,
      (walkFrom e depth top.found).run Memory.backend w = (visits, ⟨m', minted⟩) ∧
      GetsMarkers w.storage m' ∧ ∀ m'', GetsMarkers m' m'' → Told e m'' depth top visits

theorem WalkTells.all {depth : Nat} (hwalks : WalkTells e depth) {rs : List Report}
    (hrs : ∀ r ∈ rs, keyAt r.path ≠ []) {w : World Memory} (h : w.storage.WellFormed) :
    ∃ below m' minted, ((rs.map Report.found).mapM (walkFrom e depth)).run Memory.backend w =
        (below, ⟨m', minted⟩) ∧
      GetsMarkers w.storage m' ∧
      ∀ m'', GetsMarkers m' m'' → List.Forall₂ (Told e m'' depth) rs below := by
  induction rs generalizing w with
  | nil =>
    refine ⟨[], w.storage, w.minted, ?_, .refl h, fun _ _ => .nil⟩
    rw [List.map_nil, List.mapM_nil, Program.run_pure]
  | cons r rs ih =>
    rw [List.forall_mem_cons] at hrs
    obtain ⟨visits, m₁, minted₁, hrun₁, hgets₁, htold₁⟩ := hwalks r w h (Or.inr hrs.1)
    obtain ⟨below, m₂, minted₂, hrun₂, hgets₂, htold₂⟩ :=
      ih hrs.2 (w := ⟨m₁, minted₁⟩) hgets₁.wellFormed
    refine ⟨visits :: below, m₂, minted₂, ?_, hgets₁.trans hgets₂, fun m'' hgets =>
      .cons (htold₁ m'' (hgets₂.trans hgets)) (htold₂ m'' hgets)⟩
    rw [List.map_cons, List.mapM_cons, Program.run_bind, hrun₁, Program.run_bind, hrun₂,
      Program.run_pure]

theorem walkTells (e : Endpoint) (depth : Nat) : WalkTells e depth := by
  induction depth with
  | zero =>
    intro top w h htop
    refine ⟨[], w.storage, w.minted, rfl, .refl h, fun m'' hgets => ⟨by simp, ?_⟩⟩
    intro r hreach hroot hdepth
    have := length_le_of_leads hgets.wellFormed hreach
    omega
  | succ depth ih =>
    intro top w h htop
    obtain ⟨own, m₁, minted₁, hrun₁, hgets₁, hsettled, hown, hsaid⟩ :=
      run_visitNode_tells h top htop
    have h₁ := hgets₁.wellFormed
    rw [Report.found, walkFrom, Program.run_bind, hrun₁]
    dsimp only
    rw [Entry.isDir_metadata]
    by_cases hisDir : top.entry.isDir = true
    · have hread : ((readDir (nativePath top.path) : Attempt Bytes Key IoError _).run).run
          Memory.backend ⟨m₁, minted₁⟩ = (m₁.readDir (keyAt top.path), ⟨m₁, minted₁⟩) := by
        rw [← keyOf_nativePath]
        rfl
      rw [if_pos hisDir, Program.run_bind, hread]
      cases hlist : m₁.readDir (keyAt top.path) with
      | error x =>
        -- There is no directory that the path leads to.
        have hdir : ¬ m₁.IsDirAt (keyAt top.path) := by
          intro hdir
          rw [Memory.readDir_of_isDirAt hdir] at hlist
          cases hlist
        refine ⟨own ++ [⟨top.path, .error (SyncError.ofStorage top.path x)⟩], m₁, minted₁, rfl,
          hgets₁, fun m'' hgets => ?_⟩
        have hnone : ∀ r, r ∈ [] ↔ Leads e m'' top r := by
          refine fun r => iff_of_false List.not_mem_nil fun hleads => hdir ?_
          exact ((leads_iff hgets (hsettled hisDir)).mp hleads).isDirAt h₁
        have htells : ∀ v ∈ own ++ [⟨top.path, .error (SyncError.ofStorage top.path x)⟩],
            top.Tells v := by
          rw [List.forall_mem_append, List.forall_mem_singleton]
          refine ⟨hown, rfl, fun node hnode => ?_⟩
          cases hnode
        have htold : Told e m'' (depth + 1) top _ := .of_below hgets.wellFormed hnone htells
          (fun _ => List.append_ne_nil_of_right_ne_nil _ (List.cons_ne_nil _ _)) .nil
        rwa [List.flatten_nil, List.append_nil] at htold
      | ok entries =>
        obtain ⟨entries', rs, hlist', hfound, hrs⟩ :=
          exists_readDir (e := e) h₁ hisDir (Memory.isDirAt_of_readDir_eq_ok hlist)
        cases hlist.symm.trans hlist'
        have hne : ∀ r ∈ rs, keyAt r.path ≠ [] := by
          intro r hr
          rw [← List.length_pos_iff, ((hrs r).mp hr).length_eq h₁]
          exact Nat.succ_pos _
        obtain ⟨below, m₂, minted₂, hrun₂, hgets₂, htold₂⟩ :=
          ih.all hne (w := ⟨m₁, minted₁⟩) h₁
        refine ⟨own ++ below.flatten, m₂, minted₂, ?_, hgets₁.trans hgets₂, fun m'' hgets => ?_⟩
        · dsimp only
          rw [hfound, Program.run_bind, hrun₂, Program.run_pure]
        · refine Told.of_below hgets.wellFormed (fun r => ?_) hown hsaid (htold₂ m'' hgets)
          rw [hrs, leads_iff (hgets₂.trans hgets) (hsettled hisDir)]
    · refine ⟨own, m₁, minted₁, ?_, hgets₁, fun m'' hgets => ?_⟩
      · rw [if_neg hisDir, Program.run_pure]
      · have hnone : ∀ r, r ∈ [] ↔ Leads e m'' top r :=
          fun r => iff_of_false List.not_mem_nil fun hleads => hisDir hleads.isDir
        have htold : Told e m'' (depth + 1) top _ :=
          .of_below hgets.wellFormed hnone hown hsaid .nil
        rwa [List.flatten_nil, List.append_nil] at htold

/-- The visits of a walk of a whole tree tell of what it comes to, and of all of it but the root. -/
structure Covers (e : Endpoint) (m : Memory) (visits : List Visit) : Prop where
  sound : ∀ v ∈ visits, ∃ r, Reported e m r ∧ r.Tells v
  complete : ∀ r, Reported e m r → r.key ≠ [] → ∃ v ∈ visits, r.Tells v

theorem run_walk_covers (e : Endpoint) (h : w.storage.WellFormed) :
    ∃ visits w', (walk e []).run Memory.backend w = (visits, w') ∧
      GetsMarkers w.storage w'.storage ∧ Covers e w'.storage visits := by
  have hclean : CanonicalPath.clean CanonicalPath.root = CanonicalPath.root := by decide
  have hisRoot : CanonicalPath.isRoot CanonicalPath.root = true := by decide
  obtain ⟨t, hroot⟩ := h.root
  have hstat : (statNode CanonicalPath.root : Attempt Bytes Key SyncError _).run.run Memory.backend w =
      (.ok (Entry.dir t).metadata, w) := by
    refine run_statNode (fun _ _ => rfl) ?_
    rw [keyAt_root, hroot]
  obtain ⟨visits, m', minted, hrun, hgets, htold⟩ := walkTells e (w.storage.longestKey + 2)
    ⟨CanonicalPath.root, [], .dir t⟩ w h (Or.inl hisRoot)
  have h' := hgets.wellFormed
  have htold := htold m' (.refl h')
  have hroot' : m'.get? [] = some (.dir t) := hgets.get?_eq_dir_iff.mpr hroot
  refine ⟨visits, ⟨m', minted⟩, ?_, hgets, fun v hv => ?_, fun r hr hne => ?_⟩
  · have hone := run_walk (e := e) (f := .calm) (w := w) none
    rw [Failures.backend_calm] at hone
    refine hone.trans ?_
    rw [Option.getD_none, walkTree, hclean, Program.run_bind, hstat, Program.run_bind]
    exact hrun
  · obtain ⟨r, hreach, htells⟩ := htold.sound v hv
    exact ⟨r, ⟨_, hroot', hreach⟩, htells⟩
  · obtain ⟨root, hget, hreach⟩ := hr
    cases hroot'.symm.trans hget
    rcases hreach.cases_tail with rfl | ⟨above, -, hleads⟩
    · exact absurd rfl hne
    · have hlength := hleads.length_eq h'
      have habove := length_le_longestKey (hgets.isDirAt_iff.mp (hleads.isDirAt h')).ne_none
      refine htold.complete r hreach ?_ (by omega)
      rw [← Bool.not_eq_true]
      intro hroot
      rw [keyAt_of_isRoot hroot] at hlength
      cases hlength

/-! ## Where the paths lead to -/

/-- Each path that is reported leads to the entry that it is reported for, so that different entries
have different paths. -/
structure Resolves (e : Endpoint) (m : Memory) : Prop where
  found : ∀ r, Reported e m r → keyOf (nativePath r.path) = r.key
  apart : ∀ r r', Reported e m r → Reported e m r' → r.key ≠ r'.key → r.path ≠ r'.path

/-- What a tree has that is not ignored has only names that are texts. -/
def ShownTextual (e : Endpoint) (m : Memory) : Prop :=
  ∀ k, m.get? k ≠ none → Shown e m k → IsTextual k

theorem root_eq_pathOf : CanonicalPath.root = pathOf [] := by decide

/-- If all paths lead to what they are reported for, all that is not ignored is reported, under the
path that its names are shown as. -/
theorem reported_pathOf (h : m.WellFormed)
    (hfound : ∀ r, Reported e m r → keyOf (nativePath r.path) = r.key) {k : Key} {entry : Entry}
    (hget : m.get? k = some entry) (hshown : Shown e m k) : Reported e m ⟨pathOf k, k, entry⟩ := by
  induction k using List.reverseRecOn generalizing entry with
  | nil =>
    rw [← root_eq_pathOf]
    exact ⟨entry, hget, .refl⟩
  | append_singleton k name ih =>
    have hnames := h.names (k ++ [name]) (by rw [hget]; simp)
    rw [List.forall_mem_append, List.forall_mem_singleton] at hnames
    obtain ⟨t, hdir⟩ := h.parent k name (by rw [hget]; simp)
    rw [shown_append_singleton hget, ← entryPath_pathOf hnames.1 hnames.2] at hshown
    have habove := ih hdir hshown.1
    have hkey := hfound _ habove
    dsimp only at hkey
    obtain ⟨root, hroot, hreach⟩ := habove
    refine ⟨root, hroot, hreach.tail ?_⟩
    have hget' : m.get? (keyOf (nativePath (pathOf k)) ++ [name]) = some entry := by
      rw [hkey, hget]
    have hleads : Leads e m ⟨pathOf k, k, .dir t⟩ _ := .entry (Entry.isDir_dir t) hget' hshown.2
    rwa [hkey, entryPath_pathOf hnames.1 hnames.2] at hleads

/-- If all that is not ignored has texts for names, it is reported under these. -/
theorem Reported.of_shownTextual (h : m.WellFormed) (htext : ShownTextual e m) {r : Report}
    (hr : Reported e m r) : m.get? r.key = some r.entry ∧ Shown e m r.key ∧ r.path = pathOf r.key ∧
      keyOf (nativePath r.path) = r.key := by
  obtain ⟨root, hroot, hreach⟩ := hr
  induction hreach with
  | refl =>
    refine ⟨hroot, shown_nil, root_eq_pathOf, ?_⟩
    rw [keyOf_nativePath]
    exact keyAt_root
  | @tail r r' _ hleads ih =>
    obtain ⟨-, hshown, hpath, hkey⟩ := ih
    cases hleads with
    | @entry name entry hdir hget hignored =>
      rw [hkey] at hget ⊢
      have hne : m.get? (r.key ++ [name]) ≠ none := by
        rw [hget]
        simp
      have hnames := h.names _ hne
      have hsplit := hnames
      rw [List.forall_mem_append, List.forall_mem_singleton] at hsplit
      rw [hpath, entryPath_pathOf hsplit.1 hsplit.2] at hignored ⊢
      have hshown' := (shown_append_singleton hget).mpr ⟨hshown, hignored⟩
      refine ⟨hget, hshown', rfl, ?_⟩
      rw [keyOf_nativePath]
      exact keyAt_pathOf fun n hn => ⟨hnames n hn, htext _ hne hshown' n hn⟩

theorem resolves_iff (h : m.WellFormed) : Resolves e m ↔ ShownTextual e m := by
  constructor
  · intro hresolves k hne hshown
    obtain ⟨entry, hget⟩ := Option.ne_none_iff_exists'.mp hne
    have hkey := hresolves.found _ (reported_pathOf h hresolves.found hget hshown)
    dsimp only at hkey
    rw [← hkey, keyOf_nativePath]
    exact isTextual_keyAt _
  · intro htext
    have hfound : ∀ r, Reported e m r → keyOf (nativePath r.path) = r.key :=
      fun r hr => (hr.of_shownTextual h htext).2.2.2
    refine ⟨hfound, fun r r' hr hr' hne hpath => hne ?_⟩
    rw [← hfound r hr, ← hfound r' hr', hpath]

/-! ## Before and after -/

theorem Shown.above {k above : Key} (hshown : Shown e m k) (hpre : above <+: k) : Shown e m above :=
  fun k' entry hne hpre' => hshown k' entry hne (hpre'.trans hpre)

/-- Markers change nothing about what is ignored of that which was there. -/
theorem GetsMarkers.shown_iff (h : m.WellFormed) (hgets : GetsMarkers m m') {k : Key}
    (hne : m.get? k ≠ none) : Shown e m' k ↔ Shown e m k := by
  constructor
  · intro hshown k' entry hne' hpre hget
    obtain ⟨entry', hget', hisDir⟩ := hgets.exists_get? hget
    rw [← hisDir]
    exact hshown k' entry' hne' hpre hget'
  · intro hshown k' entry' hne' hpre hget'
    have hthere : m.get? k' ≠ none := by
      by_cases heq : k' = k
      · rwa [heq]
      · exact (h.isDirAt_above hne hpre heq).ne_none
    obtain ⟨entry, hget⟩ := Option.ne_none_iff_exists'.mp hthere
    obtain ⟨entry'', hget'', hisDir⟩ := hgets.exists_get? hget
    cases hget'.symm.trans hget''
    rw [hisDir]
    exact hshown k' entry hne' hpre hget

/-- The names of markers are texts. -/
theorem GetsMarkers.shownTextual_iff (h : m.WellFormed) (hgets : GetsMarkers m m') :
    ShownTextual e m' ↔ ShownTextual e m := by
  constructor
  · intro htext k hne hshown
    obtain ⟨entry, hget⟩ := Option.ne_none_iff_exists'.mp hne
    obtain ⟨entry', hget', -⟩ := hgets.exists_get? hget
    exact htext k (by rw [hget']; simp) ((hgets.shown_iff h hne).mpr hshown)
  · intro htext k hne hshown
    rcases hgets.get?_eq_or k with heq | ⟨dir, -, rfl, hdir, -⟩
    · rw [heq] at hne
      exact htext k hne ((hgets.shown_iff h hne).mp hshown)
    · have habove := (hgets.shown_iff h hdir.ne_none).mp (hshown.above (List.prefix_append _ _))
      intro name hname
      rcases List.mem_append.mp hname with hname | hname
      · exact htext dir hdir.ne_none habove name hname
      · exact ⟨markerName, List.mem_singleton.mp hname⟩

end SyncEndpoint.Endpoint
