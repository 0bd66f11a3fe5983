import SyncEndpoint.Proofs.Endpoint.Rules

set_option autoImplicit false

/-! # Guards on paths and on keys

An endpoint keeps its root, and keeps a node from being moved into itself, by looking at the names
of paths. The storage acts on keys, in which double dots do not count. The two agree on a path, or
on a pair of paths, exactly where the double dots make no difference for the guard. -/

namespace SyncEndpoint.Endpoint

open CanonicalPath (segments names clean)
open Storage
open Text.Utf8

/-! ## What the guards are for -/

/-- Deleting fails on the root and changes nothing; elsewhere, if it succeeds, it takes away exactly
what is at or below the key. -/
def DeletesByKey (path : String) (w : World Memory) : Prop :=
  let after := (deleteNode path).run.run Memory.backend w
  (key path = [] → (∃ x, after.1 = .error x) ∧ after.2 = w) ∧
    (key path ≠ [] → after.1 = .ok () → ∀ k,
      after.2.storage.get? k = if key path <+: k then none else w.storage.get? k)

/-- Every entry stays where it is if a move concerns the root, or goes to the source or below it. -/
def MovesByKey (e : Endpoint) (source target : String) (w : World Memory) : Prop :=
  key source = [] ∨ key target = [] ∨ key source <+: key target → ∀ k entry,
    w.storage.get? k = some entry →
      ((moveNode e source target).run.run Memory.backend w).2.storage.get? k = some entry

/-- A path is only taken for something else than the root if its key is not that of the root. -/
def DeleteGuarded (path : String) : Prop :=
  key path = [] → names path = []

/-- The guards of a move stop it wherever its keys concern the root, or lie below each other. -/
def MoveGuarded (source target : String) : Prop :=
  key source = [] ∨ key target = [] ∨ key source <+: key target →
    names source = [] ∨ names target = [] ∨ names source <+: names target

theorem NoDotDot.deleteGuarded {path : String} (h : NoDotDot path) : DeleteGuarded path :=
  (key_eq_nil_iff h).mp

/-- Without double dots the guards of a move see what the storage sees. -/
theorem NoDotDot.moveGuarded {source target : String} (hsource : NoDotDot source)
    (htarget : NoDotDot target) : MoveGuarded source target := by
  rw [MoveGuarded, key_eq_nil_iff hsource, key_eq_nil_iff htarget, key_prefix_key_iff hsource htarget]
  exact id

/-- The guard of the root is missed by the paths that have double dots for all their names. -/
theorem deleteGuarded_iff (path : String) :
    DeleteGuarded path ↔ names path = [] ∨ ∃ s ∈ names path, s ≠ ".." := by
  have hkey : key path = [] ↔ ∀ s ∈ names path, s = ".." := by
    rw [key_eq, keyOfSegments, List.map_eq_nil_iff, List.filter_eq_nil_iff]
    refine forall₂_congr fun s hs => ?_
    simp [IsPlain, (CanonicalPath.of_mem_names hs).2]
  rw [DeleteGuarded, hkey]
  constructor
  · intro h
    by_cases hdots : ∀ s ∈ names path, s = ".."
    · exact Or.inl (h hdots)
    · push Not at hdots
      exact Or.inr hdots
  · rintro (hnil | ⟨s, hs, hne⟩) hdots
    · exact hnil
    · exact absurd (hdots s hs) hne

/-! ## Deleting -/

section Delete

attribute [local irreducible] segments clean

variable {path : String} {w : World Memory}

theorem run_deleteNode_root (h : names path = []) :
    (deleteNode path).run.run Memory.backend w =
      (.error (.invalidInput "cannot delete the endpoint root"), w) := by
  rw [deleteNode_root h]
  rfl

/-- Past its guard, deleting succeeds. -/
theorem run_deleteNode (h : names path ≠ []) :
    ∃ w', (deleteNode path).run.run Memory.backend w = (.ok (), w') ∧
      (w.storage.get? (key path) = none ∧ w' = w ∨
        w.storage.removeAll (key path) = .ok w'.storage) := by
  have hensures : Ensures (unreliable Memory.backend .none) w (deleteNode path)
      (fun _ w' => w.storage.get? (key path) = none ∧ w' = w ∨
        w.storage.removeAll (key path) = .ok w'.storage) (fun _ _ => False) :=
    ensures_deleteNode h (fun m' hm' => Or.inr hm') (fun hget => Or.inl ⟨hget, rfl⟩)
      fun hpossible => absurd hpossible Refusal.not_possible_none
  obtain ⟨u, hresult, hpost⟩ := hensures.run_eq_ok
  exact ⟨_, Prod.ext hresult rfl, hpost⟩

theorem deletesByKey (hguard : DeleteGuarded path) (h : w.storage.WellFormed) :
    DeletesByKey path w := by
  by_cases hnames : names path = []
  · have hkey : key path = [] := by rw [key_eq, hnames, keyOfSegments_nil]
    rw [DeletesByKey, run_deleteNode_root hnames]
    exact ⟨fun _ => ⟨⟨_, rfl⟩, rfl⟩, fun hne => absurd hkey hne⟩
  · have hkey : key path ≠ [] := fun hnil => hnames (hguard hnil)
    obtain ⟨w', hrun, hdone⟩ := run_deleteNode (w := w) hnames
    rw [DeletesByKey, hrun]
    refine ⟨fun hnil => absurd hnil hkey, fun _ _ k => ?_⟩
    rcases hdone with ⟨hget, rfl⟩ | hremoved
    · by_cases hk : key path <+: k
      · obtain ⟨rest, rfl⟩ := hk
        rw [if_pos (List.prefix_append _ rest)]
        cases rest with
        | nil => rw [List.append_nil, hget]
        | cons name rest => exact h.get?_below fun hdir => hdir.ne_none hget
      · rw [if_neg hk]
    · exact (h.removeAll hkey hremoved).2 k

/-- Deleting goes by the key on all trees exactly if the guard does. -/
theorem deletesByKey_iff :
    (∀ w : World Memory, w.storage.WellFormed → DeletesByKey path w) ↔ DeleteGuarded path := by
  constructor
  · intro hall hkey
    by_contra hnames
    -- Past the guard the root is deleted, where the storage should have failed.
    have hdeletes := hall ⟨Memory.empty ⟨0, 0⟩, 0⟩ (Memory.wellFormed_empty _)
    obtain ⟨w', hrun, _⟩ := run_deleteNode (w := ⟨Memory.empty ⟨0, 0⟩, 0⟩) hnames
    rw [DeletesByKey, hrun] at hdeletes
    obtain ⟨⟨x, hx⟩, _⟩ := hdeletes.1 hkey
    cases hx
  · exact fun hguard w h => deletesByKey hguard h

end Delete

/-! ## Trees of directories -/

/-- There are no files. -/
def DirsOnly (m : Memory) : Prop :=
  ∀ k data modified, m.get? k ≠ some (.file data modified)

theorem DirsOnly.grown {m m' : Memory} {key : Key} (h : DirsOnly m) (hgrown : m.Grown key m') :
    DirsOnly m' := fun k data modified hget =>
  h k data modified (hgrown.get?_file_iff.mp hget)

theorem DirsOnly.not_blocked {m : Memory} (h : DirsOnly m) (key : Key) : ¬ m.Blocked key := by
  rintro ⟨k, data, modified, _, hget⟩
  exact h k data modified hget

/-- A move of a tree of directories in its course: all that is listed is there, and the source is
the last to be removed. -/
structure Clearing (top : Branch) (branches : List Branch) (m : Memory) : Prop where
  wellFormed : m.WellFormed
  dirsOnly : DirsOnly m
  queue : Queue top branches
  top_mem : top ∈ branches
  present : ∀ b ∈ branches, b.2 = true ∧ m.get? (keyAt b.1) ≠ none

/-- Besides the root nothing is left at or below a key. -/
def Cleared (key : Key) (m : Memory) : Prop :=
  ∀ k, k ≠ [] → key <+: k → m.get? k = none

section Clearing

attribute [local irreducible] segments clean

variable {w : World Memory} {source target : String}

/-- Each step of the move succeeds. -/
theorem ensures_moveBranch_clearing {top b : Branch} {branches : List Branch}
    (h : Clearing top (b :: branches) w.storage) :
    Ensures (unreliable Memory.backend .none) w (moveBranch top.1 target b)
      (fun _ w' => Clearing top branches w'.storage ∨
        branches = [] ∧ Cleared (keyAt top.1) w'.storage)
      (fun _ _ => False) := by
  obtain ⟨current, isDir⟩ := b
  obtain ⟨ss, hss, hplain⟩ := h.queue.below _ List.mem_cons_self
  obtain ⟨hisDir, hne⟩ := h.present _ List.mem_cons_self
  dsimp only at hisDir
  subst hisDir
  obtain ⟨moved, _, hstep⟩ := exists_moveBranch_eq hss target true
  rw [hstep, if_pos rfl, Ensures.bind_iff, ensures_about_iff]
  refine ensures_createDirAll h.wellFormed (fun m₁ hm₁ hgrown _ => ?_)
    fun m₁ x _ _ hreason => ?_
  · have hkept : ∀ k, w.storage.get? k ≠ none → m₁.get? k ≠ none := by
      intro k hget
      obtain ⟨e, he⟩ := Option.ne_none_iff_exists'.mp hget
      rw [hgrown.kept k e he]
      simp
    rw [ensures_about_iff]
    refine ensures_removeAll (fun m₂ hm₂ => ?_) (fun hmissing => hkept _ hne hmissing)
      fun hpossible => absurd hpossible Refusal.not_possible_none
    rcases List.mem_cons.mp h.top_mem with htop | hmem
    · refine Or.inr ⟨h.queue.eq_nil (by rw [htop]), fun k hk hbelow => ?_⟩
      rw [htop] at hbelow
      rw [Memory.get?_of_removeAll_eq_ok hm₂ hk, if_pos hbelow]
    · have hcurrent : keyAt current ≠ [] := by
        intro hnil
        have hbelow := h.queue.prefix_keyAt List.mem_cons_self
        dsimp only at hbelow
        rw [hnil, List.prefix_nil] at hbelow
        exact h.queue.ne_of_mem hmem (hbelow.trans hnil.symm)
      obtain ⟨hm₂', hremoved⟩ := hm₁.removeAll hcurrent hm₂
      refine Or.inl ⟨hm₂', fun k data modified hget => ?_, h.queue.tail, hmem, fun c hc => ?_⟩
      · rw [hremoved] at hget
        split at hget
        · cases hget
        · exact h.dirsOnly.grown hgrown k data modified hget
      · obtain ⟨hcDir, hcNe⟩ := h.present c (List.mem_cons_of_mem _ hc)
        rw [hremoved, if_neg (h.queue.not_below hc)]
        exact ⟨hcDir, hkept _ hcNe⟩
  · exact hreason.elim Refusal.not_possible_none (h.dirsOnly.not_blocked _)

/-- Past its guards, a move of a tree of directories succeeds and leaves nothing at the source. -/
theorem run_moveNode_cleared {e : Endpoint} (he : e.capabilities = Memory.capabilities)
    (hsource : names source ≠ []) (htarget : names target ≠ [])
    (hnot : ¬ names source <+: names target) (h : w.storage.WellFormed) (ht : w.storage.Textual)
    (hdirs : DirsOnly w.storage) (hexists : w.storage.get? (key source) ≠ none) :
    Cleared (key source) ((moveNode e source target).run.run Memory.backend w).2.storage := by
  have hblind : ¬ (Refusal.none : Refusal Bytes Key).Possible := Refusal.not_possible_none
  have hensures : Ensures (unreliable Memory.backend .none) w (moveNode e source target)
      (fun _ w' => Cleared (key source) w'.storage) (fun _ _ => False) := by
    refine ensures_moveNode he hsource htarget hnot h (fun hnone => absurd hnone hexists)
      (fun hpossible => absurd hpossible hblind) (fun m' x above _ _ _ hreason => ?_)
      fun entry m₁ above hget _ hm₁ hgrown _ => ?_
    · exact hreason.elim hblind (hdirs.not_blocked _)
    · cases entry with
      | file data modified => exact absurd hget (hdirs _ data modified)
      | dir modified =>
        have hdir : m₁.IsDirAt (key source) := ⟨modified, hgrown.kept _ _ hget⟩
        have htext := ht.grown hgrown fun name hname => (of_mem_keyAt hname).2
        let inv (branches : List Branch) (w' : World Memory) : Prop :=
          Clearing (clean source, true) branches w'.storage ∨
            branches = [] ∧ Cleared (key source) w'.storage
        rw [Entry.isDir_dir, if_pos rfl]
        refine (ensures_moveRecursively inv hm₁ htext hdir (fun branches hsubtree => Or.inl ?_)
          (fun hpossible => absurd hpossible hblind) fun b bs w' hinv => ?_).mono ?_
          fun _ _ hfailed => hfailed
        · refine ⟨hm₁, hdirs.grown hgrown, hsubtree.queue, mem_moveOrder.mpr hsubtree.top_mem,
            fun b hb => ?_⟩
          obtain ⟨entry, hentry, hkind⟩ := hsubtree.sound b (mem_moveOrder.mp hb)
          rw [hentry]
          cases entry with
          | dir t => exact ⟨hkind.resolve_right fun hdim => hblind hdim.1, by simp⟩
          | file data t => exact absurd hentry (hdirs.grown hgrown _ data t)
        · rcases hinv with hclearing | ⟨hnil, _⟩
          · exact ensures_moveBranch_clearing hclearing
          · cases hnil
        · intro _ w' hinv
          rcases hinv with hclearing | ⟨_, hcleared⟩
          · exact absurd hclearing.top_mem List.not_mem_nil
          · exact hcleared
  obtain ⟨u, hresult, hpost⟩ := hensures.run_eq_ok
  exact hpost

end Clearing

/-! ## Moving -/

section Move

attribute [local irreducible] segments clean

variable {e : Endpoint} {w : World Memory} {source target : String}

/-- A guard that stops a move leaves everything as it is. -/
theorem run_moveNode_guarded
    (h : names source = [] ∨ names target = [] ∨ names source <+: names target) :
    ((moveNode e source target).run.run Memory.backend w).2 = w := by
  by_cases hroot : names source = [] ∨ names target = []
  · rw [moveNode_root hroot]
    rfl
  · rw [← or_assoc] at h
    have hbelow := h.resolve_left hroot
    rw [not_or] at hroot
    by_cases hsame : names source = names target
    · rw [moveNode_same hroot.1 hsame]
      rfl
    · rw [moveNode_into_itself hroot.1 hsame hbelow]
      rfl

/-- A tree of directories down to a key. -/
def chain (key : Key) : Memory :=
  ((Memory.empty ⟨0, 0⟩).createDirAll key).2

theorem dirsOnly_empty (now : Timestamp) : DirsOnly (Memory.empty now) := by
  intro k data modified hget
  have hmem := (Memory.empty now).mem_entries_of_get? k hget
  cases List.mem_singleton.mp hmem

theorem dirsOnly_chain (key : Key) : DirsOnly (chain key) :=
  (dirsOnly_empty _).grown (Memory.createDirAll_grown _ key)

theorem isDirAt_chain (key : Key) : (chain key).IsDirAt key :=
  (Memory.wellFormed_empty _).createDirAll_isDirAt
    (Memory.createDirAll_ok ((dirsOnly_empty _).not_blocked key))

/-- There is a tree with a file or a directory of any name in any directory. -/
theorem exists_tree {above : Key} {name : Bytes}
    (hnames : ∀ n ∈ above ++ [name], NativePath.IsName n ∧ ∃ text : String, n = encode text)
    (isDir : Bool) :
    ∃ m : Memory, m.WellFormed ∧ m.Textual ∧
      ∃ entry, m.get? (above ++ [name]) = some entry ∧ entry.isDir = isDir := by
  rw [List.forall_mem_append, List.forall_mem_singleton] at hnames
  have hgrown := Memory.createDirAll_grown (Memory.empty ⟨0, 0⟩) above
  have hwf : (chain above).WellFormed :=
    (Memory.wellFormed_empty _).createDirAll fun n hn => (hnames.1 n hn).1
  have htext : (chain above).Textual :=
    (Memory.textual_empty _).grown hgrown fun n hn => (hnames.1 n hn).2
  have hdir : (chain above).IsDirAt above := isDirAt_chain above
  have hnone : (chain above).get? (above ++ [name]) = none := by
    refine (hgrown.get?_eq fun hpre => ?_).trans ?_
    · simpa using hpre.length_le
    · simp [Memory.get?, Memory.empty, Memory.new]
  obtain ⟨entry, hentry⟩ : ∃ entry : Entry, entry.isDir = isDir := by
    cases isDir with
    | true => exact ⟨.dir ⟨0, 0⟩, rfl⟩
    | false => exact ⟨.file [] ⟨0, 0⟩, rfl⟩
  refine ⟨(chain above).insert (above ++ [name]) entry, ?_, ?_, entry, ?_, hentry⟩
  · exact hwf.insert hdir hnames.2.1 fun hthere => absurd hnone hthere.ne_none
  · exact htext.insert hdir.ne_none hnames.2.2 entry
  · rw [Memory.get?_insert, if_pos rfl]

/-- A name to put below a key. -/
def inner : Bytes :=
  encode "x"

theorem chain_names {path : String} {name : Bytes} (h : name ∈ keyAt path ++ [inner]) :
    NativePath.IsName name ∧ ∃ text : String, name = encode text := by
  rcases List.mem_append.mp h with h | h
  · exact of_mem_keyAt h
  · rw [List.mem_singleton.mp h]
    exact ⟨by decide, "x", rfl⟩

/-- Moving goes by the keys on all trees exactly if the guards do. -/
theorem movesByKey_iff (he : e.capabilities = Memory.capabilities) :
    (∀ w : World Memory, w.storage.WellFormed → MovesByKey e source target w) ↔
      MoveGuarded source target := by
  constructor
  · intro hall hkeys
    by_contra hnames
    rw [not_or, not_or] at hnames
    obtain ⟨hsource, htarget, hnot⟩ := hnames
    -- What is below the source in a tree of directories goes, though its key says that it stays.
    obtain ⟨t, hget⟩ := isDirAt_chain (key source ++ [inner])
    have h : (chain (key source ++ [inner])).WellFormed :=
      (Memory.wellFormed_empty _).createDirAll fun name hname => (chain_names hname).1
    have ht : (chain (key source ++ [inner])).Textual :=
      (Memory.textual_empty _).grown (Memory.createDirAll_grown _ _)
        fun name hname => (chain_names hname).2
    have hexists : (chain (key source ++ [inner])).get? (key source) ≠ none :=
      (h.parent _ inner (by rw [hget]; simp)).ne_none
    have hcleared := run_moveNode_cleared (w := ⟨_, 0⟩) he hsource htarget hnot h ht
      (dirsOnly_chain _) hexists
    have hafter := hall ⟨_, 0⟩ h hkeys _ _ hget
    rw [hcleared _ (by simp) (List.prefix_append _ _)] at hafter
    cases hafter
  · intro hguard w _ hkeys k entry hget
    rw [run_moveNode_guarded (hguard hkeys), hget]

end Move

/-! ## Both -/

/-- The guards judge what the storage acts on exactly on paths whose double dots make no difference
to them. -/
theorem guards_by_key_iff {e : Endpoint} (he : e.capabilities = Memory.capabilities) (p q : String) :
    ((∀ w : World Memory, w.storage.WellFormed → DeletesByKey p w) ↔ DeleteGuarded p) ∧
      ((∀ w : World Memory, w.storage.WellFormed → MovesByKey e p q w) ↔ MoveGuarded p q) :=
  ⟨deletesByKey_iff, movesByKey_iff he⟩

theorem guards_by_key_parent :
    ((∀ w : World Memory, w.storage.WellFormed → DeletesByKey "/a/.." w) ↔ DeleteGuarded "/a/..") ∧
      ((∀ w : World Memory, w.storage.WellFormed → MovesByKey inMemory "/a/.." "/a/../b" w) ↔
        MoveGuarded "/a/.." "/a/../b") :=
  guards_by_key_iff (e := inMemory) rfl "/a/.." "/a/../b"

/-- A path of nothing but a double dot gets past the guard of the root, and a double dot in front
hides that a node goes into itself: what is at the key is lost. -/
theorem guards_miss_dotDot :
    (chain [encode "a"]).WellFormed ∧ ¬ DeletesByKey "/.." ⟨chain [encode "a"], 0⟩ ∧
      ¬ MovesByKey inMemory "/a" "/../a/b" ⟨chain [encode "a"], 0⟩ := by
  have hroot : key "/.." = [] := by
    rw [key_eq]
    decide
  have hsource : key "/a" = [encode "a"] := by
    rw [key_eq]
    decide
  have htarget : key "/../a/b" = [encode "a", encode "b"] := by
    rw [key_eq]
    decide
  have hdir : (chain [encode "a"]).IsDirAt [encode "a"] := isDirAt_chain _
  have h : (chain [encode "a"]).WellFormed := by decide
  have ht : (chain [encode "a"]).Textual :=
    (Memory.textual_empty _).grown (Memory.createDirAll_grown _ _) (by simp)
  refine ⟨h, fun hdeletes => ?_, fun hmoves => ?_⟩
  · have hrun : ((deleteNode "/..").run.run Memory.backend ⟨chain [encode "a"], 0⟩).1 =
        .ok () := rfl
    obtain ⟨⟨x, hx⟩, _⟩ := hdeletes.1 hroot
    rw [hrun] at hx
    cases hx
  · have hcleared := run_moveNode_cleared (w := ⟨chain [encode "a"], 0⟩) (e := inMemory) rfl
      (by decide : names "/a" ≠ []) (by decide : names "/../a/b" ≠ []) (by decide) h ht
      (dirsOnly_chain _) (by rw [hsource]; exact hdir.ne_none)
    obtain ⟨t, hget⟩ := hdir
    have hbelow : key "/a" <+: key "/../a/b" := by
      rw [hsource, htarget]
      exact ⟨[encode "b"], rfl⟩
    have hafter := hmoves (Or.inr (Or.inr hbelow)) _ _ hget
    rw [hcleared _ (by simp) (by rw [hsource])] at hafter
    cases hafter

end SyncEndpoint.Endpoint
