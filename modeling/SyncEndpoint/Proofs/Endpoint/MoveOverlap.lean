import SyncEndpoint.Proofs.Endpoint.Move
import SyncEndpoint.Proofs.Storage.Running

set_option autoImplicit false

/-! # Moves over what is there

A move may also go to a place that is taken, or that lies above the source. What has been moved
then may lie below the source once more, and is removed together with it: this is the one way in
which a move that succeeds loses a file. -/

namespace SyncEndpoint.Endpoint

open CanonicalPath (segments names clean rebase ofSegments)
open Storage
open Text.Utf8

/-! ## One step -/

/-- What a step of a move has done once it succeeds: it has made directories, and then either
removed one with all below it, or renamed a file. -/
inductive Stepped (m : Memory) (current moved : Key) : Bool → Memory → Prop
  | remade {m₁ m' : Memory} (hgrown : m.Grown moved m₁)
      (hremoved : ∀ k, m'.get? k = if current <+: k then none else m₁.get? k) :
      Stepped m current moved true m'
  | carried {m₁ m' : Memory} {entry : Entry} (hgrown : m.Grown moved m₁)
      (hrenamed : m₁.Renamed current moved entry m') : Stepped m current moved false m'

section Step

attribute [local irreducible] segments clean

variable {refusal : Refusal Bytes Key} {w : World Memory} {source target : String}

/-- A rename to where an entry of the source goes keeps the tree well formed. -/
theorem wellFormed_of_carried {m m' : Memory} {moved : String} {s : Key} {entry : Entry}
    (h : m.WellFormed) (hnot : ¬ key source <+: key target) (hmoved : keyAt moved = key target ++ s)
    (hrenamed : m.Renamed (key source ++ s) (key target ++ s) entry m') : m'.WellFormed := by
  have hbelow : ¬ key source ++ s <+: key target ++ s := by
    intro hpre
    have hlength := hpre.length_le
    rw [List.length_append, List.length_append] at hlength
    exact hnot (List.prefix_of_prefix_length_le ((List.prefix_append _ s).trans hpre)
      (List.prefix_append _ s) (by omega))
  have hsource : key source ++ s ≠ [] := by
    rintro hnil
    rw [(List.append_eq_nil_iff.mp hnil).1] at hnot
    exact hnot List.nil_prefix
  have hnames : ∀ name ∈ key target ++ s, NativePath.IsName name := by
    rw [← hmoved]
    exact fun name hname => (of_mem_keyAt hname).1
  rcases List.eq_nil_or_concat' (key target ++ s) with hnil | ⟨above, name, heq⟩
  · have hparent := hrenamed.parent
    rw [hnil] at hparent
    cases hparent
  · rw [heq] at hrenamed hbelow hnames
    exact h.renamed hrenamed hsource hbelow (hnames name (by simp))

/-- Each step keeps the tree well formed, as long as the target is not below the source. -/
theorem ensures_moveBranch_stepped (hnot : ¬ key source <+: key target)
    (htarget : names target ≠ []) (h : w.storage.WellFormed) {b : Branch} {ss : List String}
    (hss : segments b.1 = segments (clean source) ++ ss) (hplain : ∀ s ∈ ss, IsPlain s) :
    Ensures (unreliable Memory.backend refusal) w (moveBranch (clean source) (clean target) b)
      (fun _ w' => w'.storage.WellFormed ∧ ∃ s, keyAt b.1 = key source ++ s ∧
        Stepped w.storage (key source ++ s) (key target ++ s) b.2 w'.storage)
      (fun _ _ => True) := by
  obtain ⟨current, isDir⟩ := b
  obtain ⟨moved, hmoved, hstep⟩ := exists_moveBranch_eq hss (clean target) isDir
  rw [CanonicalPath.names_clean] at hmoved
  have hne : segments moved ≠ [] := by
    rw [hmoved]
    exact fun hnil => htarget (List.append_eq_nil_iff.mp hnil).1
  rw [← CanonicalPath.segments_clean] at hmoved
  have hcurrentKey : keyAt current = key source ++ ss.map encode := keyAt_of_segments hss hplain
  have hmovedKey : keyAt moved = key target ++ ss.map encode := keyAt_of_segments hmoved hplain
  generalize ss.map encode = s at hcurrentKey hmovedKey
  rw [hstep]
  cases isDir with
  | true =>
    rw [if_pos rfl, Ensures.bind_iff, ensures_about_iff]
    refine ensures_createDirAll h (fun m₁ hm₁ hgrown _ => ?_) fun _ _ _ _ _ => trivial
    rw [ensures_about_iff]
    refine ensures_removeAll (fun m₂ hm₂ => ?_) (fun _ => trivial) fun _ _ => trivial
    have hcurrentNe : keyAt current ≠ [] := by
      rw [hcurrentKey]
      intro hnil
      rw [(List.append_eq_nil_iff.mp hnil).1] at hnot
      exact hnot List.nil_prefix
    obtain ⟨hwellFormed, hremoved⟩ := hm₁.removeAll hcurrentNe hm₂
    refine ⟨hwellFormed, s, hcurrentKey, .remade (hmovedKey ▸ hgrown) ?_⟩
    rw [← hcurrentKey]
    exact hremoved
  | false =>
    rw [if_neg Bool.false_ne_true, Ensures.bind_iff]
    refine ensures_ensureParent h hne (fun m₁ above habove hm₁ hgrown _ => ?_)
      fun _ _ _ _ _ _ _ => trivial
    rw [ensures_about_iff]
    refine ensures_rename (fun m₂ hm₂ => ?_) fun _ _ => trivial
    have hkeys : keyAt current ≠ keyAt moved := by
      rw [hcurrentKey, hmovedKey]
      intro heq
      exact hnot (List.append_cancel_right heq ▸ List.prefix_refl _)
    obtain ⟨entry, hrenamed⟩ := Memory.renamed_of_eq_ok hkeys hm₂
    have hgrown := hgrown.mono (keyAt_prefix_of_dropLast habove)
    rw [hmovedKey] at hgrown
    rw [hcurrentKey, hmovedKey] at hrenamed
    exact ⟨wellFormed_of_carried hm₁ hnot hmovedKey hrenamed, s, hcurrentKey,
      .carried hgrown hrenamed⟩

end Step

/-! ## In the course of a move -/

/-- No file of the source goes to a place below the source. -/
def Disjoint (before : Memory) (source target : Key) : Prop :=
  ∀ s data modified, before.get? (source ++ s) = some (.file data modified) →
    ¬ source <+: target ++ s

/-- Each file that was below the source is still to be moved, or is where it goes to. -/
def Carried (before : Memory) (source target : Key) (branches : List Branch) (m : Memory) : Prop :=
  ∀ s data modified, before.get? (source ++ s) = some (.file data modified) →
    (∃ b ∈ branches, keyAt b.1 = source ++ s ∧ b.2 = false) ∧
        m.get? (source ++ s) = some (.file data modified) ∨
      (∀ b ∈ branches, keyAt b.1 ≠ source ++ s) ∧
        m.get? (target ++ s) = some (.file data modified)

/-- A move in its course, over whatever is there. -/
structure Overlapping (before : Memory) (source target : Key) (top : Branch)
    (branches : List Branch) (m : Memory) : Prop where
  wellFormed : m.WellFormed
  queue : Queue top branches
  /-- What is listed as a file was one. -/
  leaves : ∀ b ∈ branches, ∀ s, keyAt b.1 = source ++ s → b.2 = false →
    ∃ data modified, before.get? (source ++ s) = some (.file data modified)
  carried : Disjoint before source target → Carried before source target branches m
  /-- The source is the last to go, with all that is below it by then. -/
  top : top ∈ branches ∨ branches = [] ∧ ∀ k, source <+: k → m.get? k = none

section Course

variable {before m m' : Memory} {source target : Key} {top b : Branch} {branches : List Branch}

/-- A step moves the file that it is about, and leaves the others where they are. -/
theorem Carried.step {s : Key} (h : Carried before source target (b :: branches) m)
    (hqueue : Queue top (b :: branches)) (hdisjoint : Disjoint before source target)
    (hleaf : b.2 = false → ∃ data modified, before.get? (source ++ s) = some (.file data modified))
    (hkey : keyAt b.1 = source ++ s)
    (hstep : Stepped m (source ++ s) (target ++ s) b.2 m') :
    Carried before source target branches m' := by
  intro s' data modified hfile
  have hapart : ∀ rest, target ++ s' ≠ source ++ rest := fun rest heq =>
    hdisjoint s' data modified hfile (heq ▸ List.prefix_append source rest)
  obtain ⟨current, isDir⟩ := b
  rcases h s' data modified hfile with ⟨⟨c, hc, hckey, hcleaf⟩, hget⟩ | ⟨hout, hget⟩
  · rcases List.mem_cons.mp hc with rfl | hrest
    · -- The file is the one that is moved.
      obtain rfl : s' = s := List.append_cancel_left (hckey.symm.trans hkey)
      refine Or.inr ⟨fun d hd heq => hqueue.ne_of_mem hd (heq.trans hkey.symm), ?_⟩
      cases hstep with
      | remade => cases hcleaf
      | carried hgrown hrenamed =>
        have hentry := hrenamed.source_eq
        rw [hgrown.kept _ _ hget] at hentry
        rw [hrenamed.get?_eq, if_pos rfl, hentry]
    · refine Or.inl ⟨⟨c, hrest, hckey, hcleaf⟩, ?_⟩
      have hne : source ++ s' ≠ source ++ s := by
        rw [← hckey, ← hkey]
        exact hqueue.ne_of_mem hrest
      cases hstep with
      | remade hgrown hremoved =>
        rw [hremoved, if_neg, hgrown.kept _ _ hget]
        rw [← hckey, ← hkey]
        exact hqueue.not_below hrest
      | carried hgrown hrenamed =>
        obtain ⟨data', modified', hfile'⟩ := hleaf rfl
        rw [hrenamed.get?_eq, if_neg, if_neg hne, hgrown.kept _ _ hget]
        intro heq
        exact hdisjoint s data' modified' hfile' (heq ▸ List.prefix_append source s')
  · refine Or.inr ⟨fun d hd => hout d (List.mem_cons_of_mem _ hd), ?_⟩
    have hne : s' ≠ s := by
      rintro rfl
      exact hout _ List.mem_cons_self hkey
    cases hstep with
    | remade hgrown hremoved =>
      rw [hremoved, if_neg, hgrown.kept _ _ hget]
      rintro ⟨rest, heq⟩
      rw [List.append_assoc] at heq
      exact hapart _ heq.symm
    | carried hgrown hrenamed =>
      rw [hrenamed.get?_eq, if_neg fun heq => hne (List.append_cancel_left heq),
        if_neg (hapart s), hgrown.kept _ _ hget]

/-- A step of a move goes on to the rest. -/
theorem Overlapping.step {s : Key} (h : Overlapping before source target (top.1, true) (b :: branches) m)
    (htop : keyAt top.1 = source) (hkey : keyAt b.1 = source ++ s) (hm' : m'.WellFormed)
    (hstep : Stepped m (source ++ s) (target ++ s) b.2 m') :
    Overlapping before source target (top.1, true) branches m' where
  wellFormed := hm'
  queue := h.queue.tail
  leaves := fun c hc => h.leaves c (List.mem_cons_of_mem _ hc)
  carried := fun hdisjoint => (h.carried hdisjoint).step h.queue hdisjoint
    (h.leaves b List.mem_cons_self s hkey) hkey hstep
  top := by
    have hmem : (top.1, true) ∈ b :: branches :=
      h.top.resolve_right fun hnil => by simp at hnil
    rcases List.mem_cons.mp hmem with rfl | hmem
    · -- The source itself comes last: it is removed with all that is below it.
      refine Or.inr ⟨h.queue.eq_nil rfl, fun k hk => ?_⟩
      cases hstep with
      | remade _ hremoved =>
        rw [hremoved, if_pos]
        rw [← hkey]
        exact htop ▸ hk
    · exact Or.inl hmem

/-- With the whole of a source listed, and directories made for the target, all is still to be
moved. -/
theorem Overlapping.start {blind : Prop} (hblind : ¬ blind) {above : Key}
    (hgrown : before.Grown above m) (hm : m.WellFormed)
    (hsubtree : Subtree blind m top branches) (htop : keyAt top.1 = source) :
    Overlapping before source target top (moveOrder branches) m where
  wellFormed := hm
  queue := hsubtree.queue
  leaves := by
    intro b hb s hkey hleaf
    obtain ⟨e, hget, hkind⟩ := hsubtree.sound b (mem_moveOrder.mp hb)
    rw [hkey] at hget
    cases e with
    | dir modified =>
      rw [hleaf] at hkind
      exact absurd (hkind.resolve_right fun hdim => hblind hdim.1) (by simp)
    | file data modified => exact ⟨data, modified, hgrown.get?_file_iff.mp hget⟩
  carried := by
    intro _ s data modified hfile
    have hget := hgrown.kept _ _ hfile
    rw [← htop] at hget
    obtain ⟨b, hb, hkey, hleaf⟩ := hsubtree.complete hblind hm s hget
    rw [htop] at hget hkey
    exact Or.inl ⟨⟨b, mem_moveOrder.mpr hb, hkey, hleaf⟩, hget⟩
  top := Or.inl (mem_moveOrder.mpr hsubtree.top_mem)

end Course

/-! ## A whole move -/

section Whole

attribute [local irreducible] segments clean

variable {e : Endpoint} {w : World Memory} {source target : String}

/-- What holds after a move that succeeds: nothing is left of a directory, and files are where they
go to, unless one of them goes to a place below the source. -/
theorem ensures_moveNode_overlapping (he : e.capabilities = Memory.capabilities)
    (hsource : NoDotDot source) (htarget : NoDotDot target) (h : w.storage.WellFormed)
    (ht : w.storage.Textual) (hsourceNe : names source ≠ []) (htargetNe : names target ≠ [])
    (hnot : ¬ names source <+: names target) (hexists : w.storage.get? (key source) ≠ none) :
    Ensures (unreliable Memory.backend .none) w (moveNode e source target)
      (fun _ w' =>
        (Disjoint w.storage (key source) (key target) → ∀ s data modified,
          w.storage.get? (key source ++ s) = some (.file data modified) →
            w'.storage.get? (key target ++ s) = some (.file data modified)) ∧
        (w.storage.IsDirAt (key source) → ∀ k, key source <+: k → w'.storage.get? k = none))
      (fun _ _ => True) := by
  have hkeys : ¬ key source <+: key target := by
    rw [key_prefix_key_iff hsource htarget]
    exact hnot
  have hblind : ¬ (Refusal.none : Refusal Bytes Key).Possible := Refusal.not_possible_none
  refine ensures_moveNode he hsourceNe htargetNe hnot h (fun hnone => absurd hnone hexists)
    (fun hpossible => absurd hpossible hblind) (fun _ _ _ _ _ _ _ => trivial)
    fun entry m₁ above hget habove hm₁ hgrown _ => ?_
  cases entry with
  | dir modified =>
    have hdir : m₁.IsDirAt (key source) := ⟨modified, hgrown.kept _ _ hget⟩
    have htext := ht.grown hgrown fun name hname => (of_mem_keyAt hname).2
    let inv (branches : List Branch) (w' : World Memory) : Prop :=
      Overlapping w.storage (key source) (key target) (clean source, true) branches w'.storage
    rw [Entry.isDir_dir, if_pos rfl]
    refine (ensures_moveRecursively inv hm₁ htext hdir
      (fun branches hsubtree => Overlapping.start hblind hgrown hm₁ hsubtree rfl)
      (fun hpossible => absurd hpossible hblind) fun b bs w' hover => ?_).mono ?_
      fun _ _ hfailed => hfailed
    · obtain ⟨ss, hss, hplain⟩ := hover.queue.below b List.mem_cons_self
      refine (ensures_moveBranch_stepped hkeys htargetNe hover.wellFormed hss hplain).mono ?_
        fun _ _ hfailed => hfailed
      rintro _ w'' ⟨hwellFormed, s, hkey, hstep⟩
      have htop : keyAt (clean source, true).1 = key source := rfl
      exact hover.step htop hkey hwellFormed hstep
    · intro _ w' hover
      refine ⟨fun hdisjoint s data modified hfile => ?_, fun _ => ?_⟩
      · rcases hover.carried hdisjoint s data modified hfile with ⟨⟨b, hb, _⟩, _⟩ | ⟨_, hmoved⟩
        · cases hb
        · exact hmoved
      · exact (hover.top.resolve_left List.not_mem_nil).2
  | file data modified =>
    rw [Entry.isDir_file, if_neg Bool.false_ne_true, ensures_about_iff]
    have hnotDir : ¬ w.storage.IsDirAt (key source) := by
      rintro ⟨t, ht⟩
      rw [hget] at ht
      cases ht
    refine ensures_rename (fun m₂ hm₂ => ⟨fun _ s data' modified' hfile => ?_,
      fun hdir => absurd hdir hnotDir⟩) fun _ _ => trivial
    have hne : key source ≠ key target := fun heq => hkeys (heq ▸ List.prefix_refl _)
    obtain ⟨entry, hrenamed⟩ := Memory.renamed_of_eq_ok hne hm₂
    have hentry : m₁.get? (key source) = some entry := hrenamed.source_eq
    rw [hgrown.kept _ _ hget] at hentry
    cases s with
    | nil =>
      rw [List.append_nil] at hfile ⊢
      rw [hget] at hfile
      rw [hrenamed.get?_eq, ← hfile, hentry]
      exact if_pos rfl
    | cons name s =>
      rw [h.get?_below hnotDir] at hfile
      cases hfile

end Whole

/-! ## What a move keeps -/

section Keeps

attribute [local irreducible] segments clean rebase

variable {e : Endpoint} {w : World Memory} {source target : String}

/-- Each file at or below the source is afterwards at the path that its own one is rebased to. -/
def KeepsFiles (source target : String) (before after : Memory) : Prop :=
  ∀ path moved data modified, rebase path (clean source) (clean target) = some moved →
    before.get? (keyAt path) = some (.file data modified) →
      ∃ modified', after.get? (keyAt moved) = some (.file data modified')

/-- In terms of keys, each file goes from below the source to below the target. -/
theorem keepsFiles_iff {before after : Memory} (h : before.WellFormed) (ht : before.Textual)
    (source target : String) :
    KeepsFiles source target before after ↔
      ∀ s data modified, before.get? (key source ++ s) = some (.file data modified) →
        ∃ modified', after.get? (key target ++ s) = some (.file data modified') := by
  constructor
  · intro hkeeps s data modified hget
    have hne : before.get? (key source ++ s) ≠ none := by
      rw [hget]
      simp
    obtain ⟨ss, rfl, hss⟩ := exists_segments fun name hname =>
      have hmem := List.mem_append_right (key source) hname
      ⟨h.names _ hne name hmem, ht _ hne name hmem⟩
    have hplain : ∀ x ∈ ss, IsPlain x := fun x hx => (hss x hx).2
    have hpath : segments (ofSegments (names source ++ ss)) = segments (clean source) ++ ss := by
      rw [CanonicalPath.segments_clean]
      refine CanonicalPath.segments_ofSegments (List.forall_mem_append.mpr ⟨?_, ?_⟩)
      · exact fun x hx => (CanonicalPath.of_mem_names hx).1
      · exact fun x hx => (hss x hx).1
    obtain ⟨moved, hmoved, hsegments⟩ := CanonicalPath.rebase_eq_some hpath (clean target)
    rw [CanonicalPath.names_clean, ← CanonicalPath.segments_clean] at hsegments
    rw [key, ← keyAt_of_segments hpath hplain] at hget
    rw [key, ← keyAt_of_segments hsegments hplain]
    exact hkeeps _ moved data modified hmoved hget
  · intro hkeeps path moved data modified hmoved hget
    obtain ⟨rest, hpath, hsegments⟩ := CanonicalPath.of_rebase_eq_some hmoved
    rw [CanonicalPath.names_clean, ← CanonicalPath.segments_clean] at hsegments
    rw [keyAt_append hpath] at hget
    rw [keyAt_append hsegments]
    exact hkeeps _ data modified hget

/-- A move that succeeds keeps all files of its source exactly if it is one to the same place, or if
none of the files goes to a place that lies below the source. -/
theorem moveNode_keepsFiles_iff (he : e.capabilities = Memory.capabilities)
    (h : w.storage.WellFormed) (ht : w.storage.Textual)
    (hsource : NoDotDot source) (htarget : NoDotDot target)
    (hexists : w.storage.get? (key source) ≠ none)
    (hok : ((moveNode e source target).run.run Memory.backend w).1 = .ok ()) :
    KeepsFiles source target w.storage
        ((moveNode e source target).run.run Memory.backend w).2.storage ↔
      key source = key target ∨ ∀ s data modified,
        w.storage.get? (key source ++ s) = some (.file data modified) →
          ¬ key source <+: key target ++ s := by
  rw [keepsFiles_iff h ht]
  have hruns := Program.runs_run Memory.backend .none (moveNode e source target).run w
  rw [hok] at hruns
  by_cases hroot : names source = [] ∨ names target = []
  · rw [moveNode_root hroot] at hok
    cases hok
  · rw [not_or] at hroot
    by_cases hsame : names source = names target
    · have hkey : key source = key target := by rw [key_eq, hsame, key_eq]
      rw [moveNode_same hroot.1 hsame, ← hkey]
      exact ⟨fun _ => Or.inl rfl, fun _ s data modified hget => ⟨modified, hget⟩⟩
    · by_cases hbelow : names source <+: names target
      · rw [moveNode_into_itself hroot.1 hsame hbelow] at hok
        cases hok
      · obtain ⟨hmoved, hgone⟩ := (ensures_moveNode_overlapping he hsource htarget h ht hroot.1
          hroot.2 hbelow hexists).of_runs_ok hruns
        constructor
        · intro hkeeps
          refine Or.inr fun s data modified hget hpre => ?_
          -- What goes below a directory that is moved is removed with it.
          by_cases hdir : w.storage.IsDirAt (key source)
          · obtain ⟨modified', hafter⟩ := hkeeps s data modified hget
            rw [hgone hdir _ hpre] at hafter
            cases hafter
          · cases s with
            | nil =>
              rw [List.append_nil, key_prefix_key_iff hsource htarget] at hpre
              exact hbelow hpre
            | cons name s =>
              rw [h.get?_below hdir] at hget
              cases hget
        · rintro (heq | hdisjoint) s data modified hget
          · exact absurd ((key_eq_key_iff hsource htarget).mp heq) hsame
          · exact ⟨modified, hmoved hdisjoint s data modified hget⟩

end Keeps

/-- A directory with a directory of the same name in it. -/
def sameName : Memory where
  entries := [([], .dir ⟨0, 0⟩), ([encode "a"], .dir ⟨0, 0⟩), ([encode "a", encode "b"], .dir ⟨0, 0⟩),
    ([encode "a", encode "b", encode "b"], .dir ⟨0, 0⟩),
    ([encode "a", encode "b", encode "b", encode "f"], .file (encode "x") ⟨1, 0⟩)]
  clock := fun look => ⟨look + 2, 0⟩

theorem sameName_wellFormed : sameName.WellFormed := by
  decide

theorem sameName_textual : sameName.Textual :=
  .of_entries (by simp [sameName])

theorem key_a_b : key "/a/b" = [encode "a", encode "b"] := by
  rw [key_eq]
  decide

/-- A directory with one thing in it is listed with all that is below that. -/
theorem run_subtreeFrom_sameName {levels : Nat} {path : String} (name : Bytes) (entry : Entry)
    {branches : List Branch} (hdir : sameName.IsDirAt (keyAt path))
    (hchild : sameName.entries.filterMap (Memory.childOf? (keyAt path)) = [(name, entry)])
    (hbelow : (subtreeFrom levels
        (CanonicalPath.join path (NativePath.display name), entry.isDir)).run.run Memory.backend
      ⟨sameName, 0⟩ = (.ok branches, ⟨sameName, 0⟩)) :
    (subtreeFrom (levels + 1) (path, true)).run.run Memory.backend ⟨sameName, 0⟩ =
      (.ok ((path, true) :: branches), ⟨sameName, 0⟩) := by
  have hlisted : sameName.readDir (keyAt path) = .ok [Memory.listedOf (name, entry)] := by
    rw [Memory.readDir_of_isDirAt hdir, Memory.children_eq, hchild, List.mergeSort_singleton,
      List.map_singleton, List.mergeSort_singleton]
  have hread : (readDir (nativePath path) : Attempt Bytes Key IoError (List Listed)).run.run
      Memory.backend ⟨sameName, 0⟩ =
        (.ok [Memory.listedOf (name, entry)], ⟨sameName, 0⟩) := by
    rw [← keyOf_nativePath] at hlisted
    exact congrArg (fun reply => (reply, (⟨sameName, 0⟩ : World Memory))) hlisted
  have hisDir : (Memory.listedOf (name, entry)).isDir = entry.isDir := by
    cases entry <;> rfl
  rw [subtreeFrom, Attempt.run_bind, about, Attempt.run_withError, hread]
  simp only [Except.mapError, List.map_cons, List.map_nil, List.mapM_cons, List.mapM_nil,
    Attempt.run_bind, Attempt.run_pure, hisDir]
  simp only [Memory.listedOf, hbelow, List.flatten_cons, List.flatten_nil, List.append_nil]

theorem run_subtree_sameName :
    (subtree "/a/b").run.run Memory.backend ⟨sameName, 0⟩ =
      (.ok [("/a/b", true), ("/a/b/b", true), ("/a/b/b/f", false)], ⟨sameName, 0⟩) := by
  rw [subtree, Attempt.run_bind, Attempt.run_lift]
  refine run_subtreeFrom_sameName (encode "b") (.dir ⟨0, 0⟩)
    (by rw [keyAt_eq]; decide) (by rw [keyAt_eq]; decide) ?_
  refine run_subtreeFrom_sameName (encode "f") (.file (encode "x") ⟨1, 0⟩)
    (by rw [keyAt_eq]; decide) (by rw [keyAt_eq]; decide) ?_
  rfl

/-- Moved to where it lies in, the directory takes the place of itself. -/
theorem run_moveNode_sameName :
    (moveNode inMemory "/a/b" "/a").run.run Memory.backend ⟨sameName, 0⟩ =
      (.ok (), ⟨{ sameName with
        entries := [([], .dir ⟨0, 0⟩), ([encode "a"], .dir ⟨0, 0⟩)] }, 0⟩) := by
  have horder : moveOrder [("/a/b", true), ("/a/b/b", true), ("/a/b/b/f", false)] =
      [("/a/b/b/f", false), ("/a/b/b", true), ("/a/b", true)] := by
    rw [moveOrder, List.mergeSort_of_pairwise]
    · rfl
    · decide
  have hmoved : (moveRecursively "/a/b" "/a").run.run Memory.backend ⟨sameName, 0⟩ =
      (.ok (), ⟨{ sameName with
        entries := [([], .dir ⟨0, 0⟩), ([encode "a"], .dir ⟨0, 0⟩)] }, 0⟩) := by
    rw [moveRecursively, Attempt.run_bind, run_subtree_sameName]
    dsimp only
    rw [horder]
    rfl
  -- The guards and the look at the directory change nothing.
  exact hmoved

theorem moveNode_keepsFiles_sameName :
    KeepsFiles "/a/b" "/a" sameName
        ((moveNode inMemory "/a/b" "/a").run.run Memory.backend ⟨sameName, 0⟩).2.storage ↔
      key "/a/b" = key "/a" ∨ ∀ s data modified,
        sameName.get? (key "/a/b" ++ s) = some (.file data modified) →
          ¬ key "/a/b" <+: key "/a" ++ s := by
  refine moveNode_keepsFiles_iff (w := ⟨sameName, 0⟩) rfl sameName_wellFormed sameName_textual
    (by decide) (by decide) ?_ ?_
  · rw [key_a_b]
    decide
  · rw [run_moveNode_sameName]

/-- The move succeeds, and the file that was in the inner directory is gone. -/
theorem moveNode_loses_file :
    sameName.WellFormed ∧ sameName.Textual ∧ NoDotDot "/a/b" ∧ NoDotDot "/a" ∧
      sameName.get? (key "/a/b") ≠ none ∧
      ((moveNode inMemory "/a/b" "/a").run.run Memory.backend ⟨sameName, 0⟩).1 = .ok () ∧
      ¬ KeepsFiles "/a/b" "/a" sameName
        ((moveNode inMemory "/a/b" "/a").run.run Memory.backend ⟨sameName, 0⟩).2.storage := by
  refine ⟨sameName_wellFormed, sameName_textual, by decide, by decide, ?_, ?_, fun hkeeps => ?_⟩
  · rw [key_a_b]
    decide
  · rw [run_moveNode_sameName]
  · have hbefore : sameName.get? (keyAt "/a/b/b/f") = some (.file (encode "x") ⟨1, 0⟩) := by
      rw [keyAt_eq]
      decide
    obtain ⟨modified, hafter⟩ := hkeeps "/a/b/b/f" "/a/b/f" _ _ (by decide) hbefore
    rw [run_moveNode_sameName, keyAt_eq] at hafter
    cases hafter

end SyncEndpoint.Endpoint
