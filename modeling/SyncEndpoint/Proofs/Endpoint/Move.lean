import Mathlib.Logic.Relation
import SyncEndpoint.Proofs.Endpoint.Rules
import SyncEndpoint.Proofs.Storage.Relocation

set_option autoImplicit false

/-! # Moves to a free place

A move entry by entry takes the tree from one partial relocation to the next, also where calls are
refused: what is listed and not yet moved is still there, deeper entries come before those they
lie in, and so a directory has nothing in it when it is removed. -/

namespace SyncEndpoint.Endpoint

open CanonicalPath (segments names clean)
open Storage
open Storage.Memory (Relocatable Partway)
open Text.Utf8

/-! ## What is left to move -/

/-- What is left of a listed subtree in the course of a move, with all that is still there. -/
structure Pending (blind : Prop) (m : Memory) (top : Branch) (branches : List Branch) : Prop
    extends Queue top branches where
  top_mem : top ∈ branches ∨ m.get? (keyAt top.1) = none
  sound : ∀ b ∈ branches, ∃ e, m.get? (keyAt b.1) = some e ∧ (b.2 = e.isDir ∨ blind ∧ b.2 = false)
  children : ∀ b ∈ branches, b.2 = true → ∀ name, m.get? (keyAt b.1 ++ [name]) ≠ none →
    ∃ c ∈ branches, keyAt c.1 = keyAt b.1 ++ [name]

section Pending

variable {blind : Prop} {m m' : Memory} {top b : Branch} {branches : List Branch}

theorem Subtree.pending (h : Subtree blind m top branches) :
    Pending blind m top (moveOrder branches) where
  toQueue := h.queue
  top_mem := Or.inl (mem_moveOrder.mpr h.top_mem)
  sound := fun b hb => h.sound b (mem_moveOrder.mp hb)
  children := by
    intro b hb hdir name hget
    obtain ⟨c, hc, hkey⟩ := h.children b (mem_moveOrder.mp hb) hdir name hget
    exact ⟨c, mem_moveOrder.mpr hc, hkey⟩

/-- A directory at the head has nothing in it. -/
theorem Pending.get?_child (h : Pending blind m top (b :: branches)) (hdir : b.2 = true)
    (name : Bytes) : m.get? (keyAt b.1 ++ [name]) = none := by
  by_contra hget
  obtain ⟨c, hc, hkey⟩ := h.children b List.mem_cons_self hdir name hget
  rcases List.mem_cons.mp hc with rfl | hc
  · simp at hkey
  · refine h.not_below hc ?_
    rw [hkey]
    exact List.prefix_append _ _

/-- Moving the head away leaves the rest pending. -/
theorem Pending.step (h : Pending blind m top (b :: branches))
    (hm' : ∀ k, keyAt top.1 <+: k → m'.get? k = if k = keyAt b.1 then none else m.get? k) :
    Pending blind m' top branches where
  toQueue := h.tail
  top_mem := by
    rw [hm' _ (List.prefix_refl _)]
    rcases h.top_mem with hmem | hnone
    · rcases List.mem_cons.mp hmem with rfl | hmem
      · exact Or.inr (if_pos rfl)
      · exact Or.inl hmem
    · rw [hnone, ite_self]
      exact Or.inr rfl
  sound := by
    intro c hc
    obtain ⟨e, hget, hdir⟩ := h.sound c (List.mem_cons_of_mem _ hc)
    refine ⟨e, ?_, hdir⟩
    rw [hm' _ (h.tail.prefix_keyAt hc), if_neg (h.ne_of_mem hc), hget]
  children := by
    intro c hc hdir name hget
    have hbelow : keyAt top.1 <+: keyAt c.1 ++ [name] :=
      (h.tail.prefix_keyAt hc).trans (List.prefix_append _ _)
    rw [hm' _ hbelow] at hget
    split at hget
    · exact absurd rfl hget
    · next hne =>
      obtain ⟨d, hd, hkey⟩ := h.children c (List.mem_cons_of_mem _ hc) hdir name hget
      rcases List.mem_cons.mp hd with rfl | hd
      · exact absurd hkey.symm hne
      · exact ⟨d, hd, hkey⟩

end Pending

/-! ## One step -/

section Step

-- Paths count by what is known of their segments; to compute these is of no use here.
attribute [local irreducible] segments clean

variable {refusal : Refusal Bytes Key} {before : Memory} {w : World Memory} {source target : String}

/-- The source without one of its entries, which has been moved. -/
def Left (w w' : World Memory) (source current : Key) : Prop :=
  ∀ k, source <+: k → w'.storage.get? k = if k = current then none else w.storage.get? k

/-- A rename of an entry of the source to where it goes. -/
theorem ensures_rename_partway {current moved above : String} {s : Key} {name : Bytes} {e : Entry}
    (hr : before.Relocatable (key source) (key target))
    (hp : Partway before (key source) (key target) w.storage)
    (hcurrent : keyAt current = key source ++ s) (hmoved : keyAt moved = key target ++ s)
    (habove : keyAt moved = keyAt above ++ [name]) (hdir : w.storage.IsDirAt (keyAt above))
    (hget : w.storage.get? (keyAt current) = some e) (hleaf : e.isDir = false ∨ refusal.Possible) :
    Ensures (unreliable Memory.backend refusal) w
      (about current (rename (nativePath current) (nativePath moved)))
      (fun _ w' => Partway before (key source) (key target) w'.storage ∧
        Left w w' (key source) (keyAt current))
      (fun _ w' => refusal.Possible ∧ Partway before (key source) (key target) w'.storage) := by
  rw [ensures_about_iff]
  refine ensures_rename (fun m' hm' => ?_) fun x hreason => ⟨?_, hp⟩
  · have hne : keyAt current ≠ keyAt moved := by
      rw [hcurrent, hmoved]
      exact (hr.append_ne s s).symm
    obtain ⟨entry, hrenamed⟩ := Memory.renamed_of_eq_ok hne hm'
    refine ⟨?_, fun k hk => ?_⟩
    · rw [hcurrent, hmoved] at hrenamed
      exact hp.renamed hr hrenamed
    · rw [hrenamed.get?_eq, if_neg]
      rw [hmoved]
      rintro rfl
      exact hr.not_prefix_append s hk
  · rcases hreason with hpossible | herror
    · exact hpossible
    · -- A file always goes: its place is free, in a directory.
      refine hleaf.resolve_left fun hfile => ?_
      cases e with
      | dir modified => cases hfile
      | file data modified =>
        have htarget : w.storage.get? (keyAt moved) = none := by
          rw [hmoved]
          exact hp.once s data modified (hcurrent ▸ hget)
        have hparent : w.storage.requireParent (keyAt moved) = .ok () := by
          rw [habove, Memory.requireParent_append, Memory.requireDir_eq_ok_iff]
          exact hdir
        obtain ⟨m', hm'⟩ := Memory.rename_file_ok hget hparent htarget
        rw [hm'] at herror
        cases herror

/-- An empty directory of the source is made where it goes, and then removed. -/
theorem ensures_remake_partway {current moved : String} {s : Key}
    (hr : before.Relocatable (key source) (key target))
    (hp : Partway before (key source) (key target) w.storage)
    (hcurrent : keyAt current = key source ++ s) (hmoved : keyAt moved = key target ++ s)
    (hdir : w.storage.IsDirAt (keyAt current))
    (hempty : ∀ name, w.storage.get? (keyAt current ++ [name]) = none) :
    Ensures (unreliable Memory.backend refusal) w
      (do
        about moved (createDirAll (nativePath moved))
        about current (removeAll (nativePath current)))
      (fun _ w' => Partway before (key source) (key target) w'.storage ∧
        Left w w' (key source) (keyAt current))
      (fun _ w' => refusal.Possible ∧ Partway before (key source) (key target) w'.storage) := by
  have hbefore : before.IsDirAt (key source ++ s) := by
    obtain ⟨t, ht⟩ := hdir
    exact ⟨t, hp.get?_before (hcurrent ▸ ht)⟩
  have hway : before.OnTheWay (key source) (key target) (keyAt moved) := Or.inr ⟨s, hmoved, hbefore⟩
  have hbelow : key source <+: keyAt current := by
    rw [hcurrent]
    exact List.prefix_append _ _
  rw [Ensures.bind_iff, ensures_about_iff]
  refine ensures_createDirAll hp.wellFormed (fun m₁ hm₁ hgrown hmade => ?_)
    fun m₁ x hm₁ hgrown hreason => ⟨?_, hp.grown hr hgrown hm₁ hway⟩
  · have hp₁ := hp.grown hr hgrown hm₁ hway
    have hsame : ∀ k, key source <+: k → m₁.get? k = w.storage.get? k :=
      fun k hk => hr.get?_of_grown hgrown hway hk
    have hne : m₁.get? (keyAt current) ≠ none := by
      rw [hsame _ hbelow]
      exact hdir.ne_none
    rw [ensures_about_iff]
    refine ensures_removeAll (fun m₂ hm₂ => ?_) (fun hmissing => absurd hmissing hne)
      fun hpossible x => ⟨hpossible, hp₁⟩
    have hkey : keyAt current ≠ [] := by simp [hcurrent, hr.source_ne_nil]
    have hempty₁ : ∀ name, m₁.get? (keyAt current ++ [name]) = none := by
      intro name
      rw [hsame _ (hbelow.trans (List.prefix_append _ _)), hempty]
    obtain ⟨hwellFormed, herased⟩ := hm₁.removeAll_of_no_children hkey hempty₁ hm₂
    refine ⟨?_, fun k hk => ?_⟩
    · rw [hcurrent] at herased
      exact hp₁.erased hr hwellFormed (hmoved ▸ hmade.ne_none) herased
    · rw [herased, hsame k hk]
  · exact hreason.resolve_right (hp.not_blocked hr hway)

/-- What an entry goes into is made, and then the entry is renamed. -/
theorem ensures_carry_partway {current moved : String} {s : Key} {e : Entry}
    (hr : before.Relocatable (key source) (key target))
    (hp : Partway before (key source) (key target) w.storage)
    (hcurrent : keyAt current = key source ++ s) (hmoved : keyAt moved = key target ++ s)
    (hplain : ∀ x ∈ segments moved, IsPlain x)
    (hget : w.storage.get? (keyAt current) = some e) (hleaf : e.isDir = false ∨ refusal.Possible) :
    Ensures (unreliable Memory.backend refusal) w
      (do
        ensureParent moved
        about current (rename (nativePath current) (nativePath moved)))
      (fun _ w' => Partway before (key source) (key target) w'.storage ∧
        Left w w' (key source) (keyAt current))
      (fun _ w' => refusal.Possible ∧ Partway before (key source) (key target) w'.storage) := by
  have hne : segments moved ≠ [] := by
    intro hnil
    refine hr.target_ne_nil (List.append_eq_nil_iff.mp (?_ : key target ++ s = [])).1
    rw [← hmoved, keyAt_eq, hnil, keyOfSegments_nil]
  have hbefore : before.get? (key source ++ s) ≠ none := by
    rw [hp.get?_before (hcurrent ▸ hget)]
    simp
  have hway : ∀ above, segments above = (segments moved).dropLast →
      ∃ name, keyAt moved = keyAt above ++ [name] ∧
        before.OnTheWay (key source) (key target) (keyAt above) := by
    intro above habove
    obtain ⟨name, hname⟩ := exists_keyAt_eq_concat hplain hne habove
    exact ⟨name, hname, hr.onTheWay (hmoved.symm.trans hname) hbefore⟩
  rw [Ensures.bind_iff]
  refine ensures_ensureParent hp.wellFormed hne (fun m' above habove hm' hgrown hdir => ?_)
    fun m' x above habove hm' hgrown hreason => ?_
  · obtain ⟨name, hname, hway⟩ := hway above habove
    have hsame : ∀ k, key source <+: k → m'.get? k = w.storage.get? k :=
      fun k hk => hr.get?_of_grown hgrown hway hk
    have hget' : m'.get? (keyAt current) = some e := by
      rw [hsame _ (by rw [hcurrent]; exact List.prefix_append _ _), hget]
    refine (ensures_rename_partway hr (hp.grown hr hgrown hm' hway) hcurrent hmoved hname hdir hget'
      hleaf).mono ?_ fun _ _ hfailed => hfailed
    rintro _ w' ⟨hp', hleft⟩
    refine ⟨hp', fun k hk => ?_⟩
    rw [hleft k hk, hsame k hk]
  · obtain ⟨name, _, hway⟩ := hway above habove
    exact ⟨hreason.resolve_right (hp.not_blocked hr hway), hp.grown hr hgrown hm' hway⟩

/-- One entry is moved, or the tree is left partway. -/
theorem ensures_moveBranch_partway {b : Branch} {branches : List Branch}
    (htarget : NoDotDot target) (hr : before.Relocatable (key source) (key target))
    (hp : Partway before (key source) (key target) w.storage)
    (hpending : Pending refusal.Possible w.storage (clean source, true) (b :: branches)) :
    Ensures (unreliable Memory.backend refusal) w (moveBranch (clean source) (clean target) b)
      (fun _ w' => Partway before (key source) (key target) w'.storage ∧
        Pending refusal.Possible w'.storage (clean source, true) branches)
      (fun _ w' => refusal.Possible ∧ Partway before (key source) (key target) w'.storage) := by
  obtain ⟨current, isDir⟩ := b
  obtain ⟨ss, hss, hplain⟩ := hpending.below _ List.mem_cons_self
  obtain ⟨e, hget, hkind⟩ := hpending.sound _ List.mem_cons_self
  obtain ⟨moved, hmoved, hstep⟩ := exists_moveBranch_eq hss (clean target) isDir
  have hcurrentKey : keyAt current = key source ++ ss.map encode := keyAt_of_segments hss hplain
  have hmovedKey : keyAt moved = key target ++ ss.map encode := by
    rw [CanonicalPath.names_clean, ← CanonicalPath.segments_clean] at hmoved
    exact keyAt_of_segments hmoved hplain
  have hmovedPlain : ∀ x ∈ segments moved, IsPlain x := by
    rw [hmoved, CanonicalPath.names_clean]
    exact List.forall_mem_append.mpr ⟨htarget.isPlain, hplain⟩
  generalize ss.map encode = s at hcurrentKey hmovedKey
  rw [hstep]
  cases isDir with
  | true =>
    have hdir : w.storage.IsDirAt (keyAt current) := by
      cases e with
      | dir modified => exact ⟨modified, hget⟩
      | file data modified => simp at hkind
    rw [if_pos rfl]
    refine (ensures_remake_partway hr hp hcurrentKey hmovedKey hdir (hpending.get?_child rfl)).mono
      ?_ fun _ _ hfailed => hfailed
    rintro _ w' ⟨hp', hleft⟩
    exact ⟨hp', hpending.step hleft⟩
  | false =>
    have hleaf : e.isDir = false ∨ refusal.Possible := hkind.imp Eq.symm And.left
    rw [if_neg (by simp)]
    refine (ensures_carry_partway hr hp hcurrentKey hmovedKey hmovedPlain hget hleaf).mono ?_
      fun _ _ hfailed => hfailed
    rintro _ w' ⟨hp', hleft⟩
    exact ⟨hp', hpending.step hleft⟩

end Step

/-! ## A whole move -/

section Whole

attribute [local irreducible] segments clean

variable {e : Endpoint} {before : Memory} {w w' : World Memory} {source target : String}

/-- A move leaves the tree partway, wherever it starts from on the way. If nothing is refused, it
succeeds and leaves nothing at the source. -/
theorem ensures_moveNode_partway (refusal : Refusal Bytes Key)
    (he : e.capabilities = Memory.capabilities)
    (hsource : NoDotDot source) (htarget : NoDotDot target)
    (hr : before.Relocatable (key source) (key target))
    (hp : Partway before (key source) (key target) w.storage) :
    Ensures (unreliable Memory.backend refusal) w (moveNode e source target)
      (fun _ w' => Partway before (key source) (key target) w'.storage ∧
        (refusal.Possible ∨ w'.storage.get? (key source) = none))
      (fun _ w' => refusal.Possible ∧ Partway before (key source) (key target) w'.storage) := by
  have hsourceNe : names source ≠ [] := fun hnil =>
    hr.source_ne_nil ((key_eq_nil_iff hsource).mpr hnil)
  have htargetNe : names target ≠ [] := fun hnil =>
    hr.target_ne_nil ((key_eq_nil_iff htarget).mpr hnil)
  have hnot : ¬ names source <+: names target := fun hpre =>
    hr.not_below ((key_prefix_key_iff hsource htarget).mpr hpre)
  have hplain : ∀ x ∈ segments (clean target), IsPlain x := by
    rw [CanonicalPath.segments_clean]
    exact htarget.isPlain
  have hway : ∀ above, segments above = (names target).dropLast →
      ∃ name, key target = keyAt above ++ [name] ∧
        before.OnTheWay (key source) (key target) (keyAt above) := by
    intro above habove
    rw [← CanonicalPath.segments_clean] at habove htargetNe
    obtain ⟨name, hname⟩ := exists_keyAt_eq_concat hplain htargetNe habove
    refine ⟨name, hname, hr.onTheWay ((List.append_nil _).trans hname) ?_⟩
    rw [List.append_nil]
    exact hr.source_ne
  refine ensures_moveNode he hsourceNe htargetNe hnot hp.wellFormed (fun hgone => ⟨hp, Or.inr hgone⟩)
    (fun hpossible => ⟨⟨hp, Or.inl hpossible⟩, fun _ => ⟨hpossible, hp⟩⟩)
    (fun m' x above habove hm' hgrown hreason => ?_)
    fun entry m' above hget habove hm' hgrown hdir => ?_
  · obtain ⟨name, _, hway⟩ := hway above habove
    exact ⟨hreason.resolve_right (hp.not_blocked hr hway), hp.grown hr hgrown hm' hway⟩
  · obtain ⟨name, hname, hway⟩ := hway above habove
    have hp' := hp.grown hr hgrown hm' hway
    have hget' : m'.get? (key source) = some entry := by
      rw [hr.get?_of_grown hgrown hway (List.prefix_refl _), hget]
    cases entry with
    | dir modified =>
      let inv (branches : List Branch) (w : World Memory) : Prop :=
        Partway before (key source) (key target) w.storage ∧
          Pending refusal.Possible w.storage (clean source, true) branches
      rw [Entry.isDir_dir, if_pos rfl]
      refine (ensures_moveRecursively inv hm' hp'.textual ⟨modified, hget'⟩
        (fun branches hsubtree => ⟨hp', hsubtree.pending⟩) (fun hpossible _ => ⟨hpossible, hp'⟩)
        fun b bs w ⟨hp, hpending⟩ => ensures_moveBranch_partway htarget hr hp hpending).mono ?_
        fun _ _ hfailed => hfailed
      rintro _ w' ⟨hp'', hpending⟩
      exact ⟨hp'', Or.inr (hpending.top_mem.resolve_left List.not_mem_nil)⟩
    | file data modified =>
      rw [Entry.isDir_file, if_neg Bool.false_ne_true]
      refine (ensures_rename_partway (s := []) hr hp' (List.append_nil _).symm (List.append_nil _).symm
        hname hdir hget' (Or.inl rfl)).mono ?_ fun _ _ hfailed => hfailed
      rintro _ w' ⟨hp'', hleft⟩
      refine ⟨hp'', Or.inr ?_⟩
      rw [hleft _ (List.prefix_refl _)]
      exact if_pos rfl

/-- What may be relocated, in terms of paths. -/
theorem relocatable {m : Memory} (h : m.WellFormed) (ht : m.Textual)
    (hsource : m.get? (key source) ≠ none) (htarget : m.get? (key target) = none)
    (hbelow : ¬ key source <+: key target)
    (hfree : ∀ k data modified, k <+: key target → m.get? k ≠ some (.file data modified)) :
    m.Relocatable (key source) (key target) where
  wellFormed := h
  textual := ht
  source_ne := hsource
  target_eq := htarget
  target_names := fun _ hname => of_mem_keyAt hname
  not_below := hbelow
  free := hfree

/-- A move on a tree that is partway succeeds, and ends with the subtree renamed. -/
theorem run_moveNode_partway (he : e.capabilities = Memory.capabilities)
    (hsource : NoDotDot source) (htarget : NoDotDot target)
    (hr : before.Relocatable (key source) (key target))
    (hp : Partway before (key source) (key target) w.storage) :
    ∃ w', (moveNode e source target).run.run Memory.backend w = (.ok (), w') ∧
      Partway before (key source) (key target) w'.storage ∧
      w'.storage.tree = renameSubtree before.tree (key source) (key target) := by
  have hensures := (ensures_moveNode_partway .none he hsource htarget hr hp).mono
    (fun _ _ hok => hok) fun _ _ hfailed => Refusal.not_possible_none hfailed.1
  obtain ⟨u, hresult, hp', hgone⟩ := hensures.run_eq_ok
  have hgone := hgone.resolve_left Refusal.not_possible_none
  exact ⟨_, Prod.ext hresult rfl, hp', hp'.tree_eq hr hgone⟩

/-- An attempt to move, on a storage any of whose calls may be refused. -/
def MoveAttempt (e : Endpoint) (source target : String) (w w' : World Memory) : Prop :=
  ∃ result, (moveNode e source target).run.Runs (unreliable Memory.backend .all) w result w'

/-- Attempts lead from one partial relocation to the next. -/
theorem partway_of_attempts (he : e.capabilities = Memory.capabilities)
    (hsource : NoDotDot source) (htarget : NoDotDot target)
    (hr : before.Relocatable (key source) (key target))
    (hp : Partway before (key source) (key target) w.storage)
    (hattempts : Relation.ReflTransGen (MoveAttempt e source target) w w') :
    Partway before (key source) (key target) w'.storage := by
  induction hattempts with
  | refl => exact hp
  | tail _ hattempt ih =>
    obtain ⟨result, hruns⟩ := hattempt
    have hensures := ensures_moveNode_partway .all he hsource htarget hr ih
    cases result with
    | ok u => exact (hensures.of_runs_ok hruns).1
    | error x => exact (hensures.of_runs_error hruns).2

end Whole

/-! ## What a move does -/

section Results

variable {e : Endpoint} {w w' : World Memory} {source target : String}

/-- A directory that is moved entry by entry to where nothing is ends up there as it was, with
directories made above it, and nothing else changes. -/
theorem moveNode_renames_subtree (he : e.capabilities = Memory.capabilities)
    (h : w.storage.WellFormed) (ht : w.storage.Textual)
    (hsource : NoDotDot source) (htarget : NoDotDot target)
    (hdir : w.storage.IsDirAt (key source)) (habsent : w.storage.get? (key target) = none)
    (hbelow : ¬ key source <+: key target)
    (hfree : ∀ k data modified, k <+: key target → w.storage.get? k ≠ some (.file data modified)) :
    ∃ w', (moveNode e source target).run.run Memory.backend w = (.ok (), w') ∧
      w'.storage.tree = renameSubtree w.storage.tree (key source) (key target) ∧
      ∀ k entry, ¬ key source <+: k → w.storage.get? k = some entry →
        w'.storage.get? k = some entry := by
  have hr := relocatable h ht hdir.ne_none habsent hbelow hfree
  obtain ⟨w', hrun, hp, htree⟩ := run_moveNode_partway he hsource htarget hr (.start hr)
  exact ⟨w', hrun, htree, fun k entry hk hget => hp.kept hr hk hget⟩

/-- A file in a directory in the root. -/
def oneFile : Memory where
  entries := [([], .dir ⟨0, 0⟩), ([encode "a"], .dir ⟨0, 0⟩),
    ([encode "a", encode "f"], .file (encode "x") ⟨1, 0⟩)]
  clock := fun look => ⟨look + 2, 0⟩

theorem oneFile_wellFormed : oneFile.WellFormed := by
  decide

theorem oneFile_textual : oneFile.Textual :=
  .of_entries (by simp [oneFile])

theorem key_a : key "/a" = [encode "a"] := by
  rw [key_eq]
  decide

theorem key_b_c : key "/b/c" = [encode "b", encode "c"] := by
  rw [key_eq]
  decide

/-- There is room for the directory at a place whose parent is missing. -/
theorem oneFile_relocatable : oneFile.Relocatable (key "/a") (key "/b/c") := by
  refine relocatable oneFile_wellFormed oneFile_textual ?_ ?_ ?_ ?_
  · rw [key_a]
    decide
  · rw [key_b_c]
    decide
  · rw [key_a, key_b_c]
    decide
  · intro k data modified hk
    rw [key_b_c, ← List.mem_inits] at hk
    simp only [List.inits, List.map_cons, List.map_nil, List.mem_cons, List.not_mem_nil, or_false]
      at hk
    rcases hk with rfl | rfl | rfl <;> rintro ⟨⟩

theorem moveNode_renames_oneFile : ∃ w',
    (moveNode inMemory "/a" "/b/c").run.run Memory.backend ⟨oneFile, 0⟩ = (.ok (), w') ∧
      w'.storage.tree = renameSubtree oneFile.tree (key "/a") (key "/b/c") ∧
      ∀ k entry, ¬ key "/a" <+: k → oneFile.get? k = some entry →
        w'.storage.get? k = some entry := by
  have hr := oneFile_relocatable
  have hdir : oneFile.IsDirAt (key "/a") := by
    rw [key_a]
    decide
  exact moveNode_renames_subtree rfl hr.wellFormed hr.textual (by decide) (by decide) hdir
    hr.target_eq hr.not_below hr.free

/-- However often a move is cut short by calls that fail, each file of the subtree is at one of its
two places, and no other file changes; a move without failures then ends as one from the start. -/
theorem moveNode_resumes (he : e.capabilities = Memory.capabilities)
    (h : w.storage.WellFormed) (ht : w.storage.Textual)
    (hsource : NoDotDot source) (htarget : NoDotDot target)
    (hexists : w.storage.get? (key source) ≠ none) (habsent : w.storage.get? (key target) = none)
    (hbelow : ¬ key source <+: key target)
    (hfree : ∀ k data modified, k <+: key target → w.storage.get? k ≠ some (.file data modified))
    (hattempts : Relation.ReflTransGen (MoveAttempt e source target) w w') :
    (∀ s data modified, w.storage.get? (key source ++ s) = some (.file data modified) →
      w'.storage.get? (key source ++ s) = some (.file data modified) ∧
          w'.storage.get? (key target ++ s) = none ∨
        w'.storage.get? (key source ++ s) = none ∧
          w'.storage.get? (key target ++ s) = some (.file data modified)) ∧
    (∀ k data modified, ¬ key source <+: k → ¬ key target <+: k →
      (w'.storage.get? k = some (.file data modified) ↔
        w.storage.get? k = some (.file data modified))) ∧
    ∃ resumed direct,
      (moveNode e source target).run.run Memory.backend w' = (.ok (), resumed) ∧
      (moveNode e source target).run.run Memory.backend w = (.ok (), direct) ∧
      resumed.storage.tree = direct.storage.tree := by
  have hr := relocatable h ht hexists habsent hbelow hfree
  -- Where the attempts lead to and where they start are both partway, and so both moves end alike.
  have hp := partway_of_attempts he hsource htarget hr (.start hr) hattempts
  obtain ⟨resumed, hresumed, _, htree⟩ := run_moveNode_partway he hsource htarget hr hp
  obtain ⟨direct, hdirect, _, htree'⟩ := run_moveNode_partway he hsource htarget hr (.start hr)
  refine ⟨fun s data modified hget => hp.file hget, fun k data modified hks hkt => ?_,
    resumed, direct, hresumed, hdirect, htree.trans htree'.symm⟩
  exact hp.get?_file_iff hks hkt data modified

/-- The storage in memory, on which nothing can be renamed. -/
def withoutRename : Backend Memory Bytes Key
  | .rename _ _, m => (.error ⟨.permissionDenied, "permission denied"⟩, m)
  | c, m => Memory.backend c m

theorem moveAttempt_withoutRename (e : Endpoint) (source target : String) (w : World Memory) :
    MoveAttempt e source target w
      ((moveNode e source target).run.run withoutRename w).2 := by
  refine ⟨_, Program.runs_run_of_answers (fun c m => ?_) _ w⟩
  cases c with
  | rename => exact Or.inr ⟨_, trivial, rfl, rfl⟩
  | _ => exact unreliable_backend Memory.backend .all _ m

theorem moveNode_resumes_oneFile :
    let w : World Memory := ⟨oneFile, 0⟩
    let w' := ((moveNode inMemory "/a" "/b/c").run.run withoutRename w).2
    (∀ s data modified, w.storage.get? (key "/a" ++ s) = some (.file data modified) →
      w'.storage.get? (key "/a" ++ s) = some (.file data modified) ∧
          w'.storage.get? (key "/b/c" ++ s) = none ∨
        w'.storage.get? (key "/a" ++ s) = none ∧
          w'.storage.get? (key "/b/c" ++ s) = some (.file data modified)) ∧
    (∀ k data modified, ¬ key "/a" <+: k → ¬ key "/b/c" <+: k →
      (w'.storage.get? k = some (.file data modified) ↔
        w.storage.get? k = some (.file data modified))) ∧
    ∃ resumed direct,
      (moveNode inMemory "/a" "/b/c").run.run Memory.backend w' = (.ok (), resumed) ∧
      (moveNode inMemory "/a" "/b/c").run.run Memory.backend w = (.ok (), direct) ∧
      resumed.storage.tree = direct.storage.tree := by
  have hr := oneFile_relocatable
  exact moveNode_resumes rfl hr.wellFormed hr.textual (by decide) (by decide) hr.source_ne
    hr.target_eq hr.not_below hr.free
    (.single (moveAttempt_withoutRename inMemory "/a" "/b/c" ⟨oneFile, 0⟩))

end Results

end SyncEndpoint.Endpoint
