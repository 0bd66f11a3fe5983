import SyncEndpoint.Proofs.Endpoint.Subtree

set_option autoImplicit false

/-! # Rules for changing the tree

What the programs that change the tree ensure on a storage in memory whose calls may be refused:
one rule for each call that they make, one for each part of a move, and one for a move as a
whole. -/

namespace SyncEndpoint.Endpoint

open CanonicalPath (segments names clean isRoot startsWith isRoot_clean_iff clean_inj
  startsWith_clean_iff)
open Storage

theorem ensures_about_iff {σ R W α : Type} {answers : Answers σ R W} {w : World σ}
    {x : Attempt R W IoError α} {canonical : String} {ok : α → World σ → Prop}
    {failed : SyncError → World σ → Prop} :
    Ensures answers w (about canonical x) ok failed ↔
      Ensures answers w x ok fun e => failed (SyncError.ofStorage canonical e) :=
  Ensures.withError_iff

/-- An endpoint on a storage in memory, without patterns of its own. -/
def inMemory : Endpoint where
  root := []
  capabilities := Memory.capabilities
  physicalRoot := none
  ignored := ⟨[]⟩
  bufferCapacity := 1024
  eventChannelCapacity := 1024

/-! ## Calls -/

section Calls

variable {refusal : Refusal Bytes Key} {w : World Memory} {path : String}

theorem ensures_stat {ok : Metadata → World Memory → Prop} {failed : IoError → World Memory → Prop}
    (hfound : ∀ e, w.storage.get? (keyAt path) = some e → ok e.metadata w)
    (hmissing : w.storage.get? (keyAt path) = none → failed (Memory.notFound (keyAt path)) w)
    (hrefused : refusal.Possible → ∀ e, failed e w) :
    Ensures (unreliable Memory.backend refusal) w (stat (nativePath path)) ok failed := by
  -- Either the call is done or it is refused, as in all the rules here.
  rintro reply s (hdone | ⟨e, href, rfl, rfl⟩)
  · rw [Memory.backend, keyOf_nativePath, Memory.stat] at hdone
    cases hget : w.storage.get? (keyAt path) with
    | some e =>
      rw [hget] at hdone
      cases hdone
      exact hfound e hget
    | none =>
      rw [hget] at hdone
      cases hdone
      exact hmissing hget
  · exact hrefused (Or.inl ⟨.stat (nativePath path), e, href⟩) e

/-- Making directories keeps the tree well formed, whatever comes of it. It fails only if a file is
in the way. -/
theorem ensures_createDirAll {ok : Unit → World Memory → Prop}
    {failed : IoError → World Memory → Prop} (h : w.storage.WellFormed)
    (hok : ∀ m', m'.WellFormed → w.storage.Grown (keyAt path) m' → m'.IsDirAt (keyAt path) →
      ok () { w with storage := m' })
    (hfailed : ∀ m' e, m'.WellFormed → w.storage.Grown (keyAt path) m' →
      (refusal.Possible ∨ w.storage.Blocked (keyAt path)) → failed e { w with storage := m' }) :
    Ensures (unreliable Memory.backend refusal) w (createDirAll (nativePath path)) ok failed := by
  rintro reply s (hdone | ⟨e, href, rfl, rfl⟩)
  · rw [Memory.backend, keyOf_nativePath] at hdone
    have hwellFormed : (w.storage.createDirAll (keyAt path)).2.WellFormed :=
      h.createDirAll fun name hname => (of_mem_keyAt hname).1
    have hgrown := w.storage.createDirAll_grown (keyAt path)
    have hreply : (w.storage.createDirAll (keyAt path)).1 = reply := by rw [hdone]
    obtain rfl : (w.storage.createDirAll (keyAt path)).2 = s := by rw [hdone]
    cases reply with
    | ok u => exact hok _ hwellFormed hgrown (h.createDirAll_isDirAt hreply)
    | error e =>
      refine hfailed _ e hwellFormed hgrown (Or.inr ?_)
      by_contra hfree
      rw [Memory.createDirAll_ok hfree] at hreply
      cases hreply
  · exact hfailed _ e h (.refl _ _) (Or.inl (Or.inl ⟨.createDirAll (nativePath path), e, href⟩))

theorem ensures_removeAll {ok : Unit → World Memory → Prop} {failed : IoError → World Memory → Prop}
    (hok : ∀ m', w.storage.removeAll (keyAt path) = .ok m' → ok () { w with storage := m' })
    (hmissing : w.storage.get? (keyAt path) = none → failed (Memory.notFound (keyAt path)) w)
    (hrefused : refusal.Possible → ∀ e, failed e w) :
    Ensures (unreliable Memory.backend refusal) w (removeAll (nativePath path)) ok failed := by
  rintro reply s (hdone | ⟨e, href, rfl, rfl⟩)
  · rw [Memory.backend, keyOf_nativePath] at hdone
    cases hget : w.storage.get? (keyAt path) with
    | none =>
      rw [Memory.removeAll_of_get?_none hget] at hdone
      cases hdone
      exact hmissing hget
    | some e =>
      have hne : w.storage.get? (keyAt path) ≠ none := by simp [hget]
      obtain ⟨m', hm'⟩ := Memory.removeAll_ok hne
      rw [hm'] at hdone
      cases hdone
      exact hok _ hm'
  · exact hrefused (Or.inl ⟨.removeAll (nativePath path), e, href⟩) e

theorem ensures_rename {target : String} {ok : Unit → World Memory → Prop}
    {failed : IoError → World Memory → Prop}
    (hok : ∀ m', w.storage.rename (keyAt path) (keyAt target) = .ok m' →
      ok () { w with storage := m' })
    (hfailed : ∀ e, (refusal.Possible ∨ w.storage.rename (keyAt path) (keyAt target) = .error e) →
      failed e w) :
    Ensures (unreliable Memory.backend refusal) w (rename (nativePath path) (nativePath target))
      ok failed := by
  rintro reply s (hdone | ⟨e, href, rfl, rfl⟩)
  · rw [Memory.backend, keyOf_nativePath, keyOf_nativePath] at hdone
    cases hresult : w.storage.rename (keyAt path) (keyAt target) with
    | ok m' =>
      rw [hresult] at hdone
      cases hdone
      exact hok _ hresult
    | error e =>
      rw [hresult] at hdone
      cases hdone
      exact hfailed e (Or.inr hresult)
  · exact hfailed e (Or.inl (Or.inl ⟨.rename (nativePath path) (nativePath target), e, href⟩))

end Calls

/-! ## Deleting -/

/-- The root cannot be deleted. -/
theorem deleteNode_root {R W : Type} {path : String} (h : names path = []) :
    (deleteNode path : Attempt R W SyncError Unit) =
      throw (.invalidInput "cannot delete the endpoint root") := by
  rw [← isRoot_clean_iff] at h
  simp only [deleteNode, if_pos h]
  rfl

/-- Deleting removes what is there, and nothing else happens where nothing is. -/
theorem ensures_deleteNode {refusal : Refusal Bytes Key} {w : World Memory} {path : String}
    {ok : Unit → World Memory → Prop} {failed : SyncError → World Memory → Prop}
    (hpath : names path ≠ [])
    (hok : ∀ m', w.storage.removeAll (key path) = .ok m' → ok () { w with storage := m' })
    (hmissing : w.storage.get? (key path) = none → ok () w)
    (hrefused : refusal.Possible → ok () w ∧ ∀ e, failed e w) :
    Ensures (unreliable Memory.backend refusal) w (deleteNode path) ok failed := by
  have hroot : ¬ isRoot (clean path) := by
    rw [isRoot_clean_iff]
    exact hpath
  simp only [deleteNode, if_neg hroot]
  rw [Ensures.bind_iff, Ensures.lift_run_iff]
  refine ensures_removeAll hok (fun hget => ?_) fun hpossible x => ?_
  · -- That nothing is there is no error.
    dsimp only
    rw [Memory.notFound, if_pos rfl]
    exact hmissing hget
  · dsimp only
    split
    · exact (hrefused hpossible).1
    · exact (hrefused hpossible).2 _

/-! ## Parts of a move -/

section Move

variable {refusal : Refusal Bytes Key} {w : World Memory} {source target : String}

/-- Making what a path lies in. -/
theorem ensures_ensureParent {path : String} {ok : Unit → World Memory → Prop}
    {failed : SyncError → World Memory → Prop} (h : w.storage.WellFormed)
    (hpath : segments path ≠ [])
    (hok : ∀ m' above, segments above = (segments path).dropLast → m'.WellFormed →
      w.storage.Grown (keyAt above) m' → m'.IsDirAt (keyAt above) → ok () { w with storage := m' })
    (hfailed : ∀ m' e above, segments above = (segments path).dropLast → m'.WellFormed →
      w.storage.Grown (keyAt above) m' → (refusal.Possible ∨ w.storage.Blocked (keyAt above)) →
      failed e { w with storage := m' }) :
    Ensures (unreliable Memory.backend refusal) w (ensureParent path) ok failed := by
  obtain ⟨above, hparent, habove⟩ := CanonicalPath.parent_eq_some hpath
  rw [ensureParent, hparent]
  dsimp only
  rw [ensures_about_iff]
  exact ensures_createDirAll h (fun m' => hok m' above habove) fun m' e => hfailed m' _ above habove

/-- An entry below the source goes to where it lies below the target. -/
theorem exists_moveBranch_eq {current : String} {ss : List String}
    (h : segments current = segments source ++ ss) (target : String) (isDir : Bool) :
    ∃ moved, segments moved = names target ++ ss ∧
      (moveBranch source target (current, isDir) : Attempt Bytes Key SyncError Unit) =
        (if isDir then do
          about moved (createDirAll (nativePath moved))
          about current (removeAll (nativePath current))
        else do
          ensureParent moved
          about current (rename (nativePath current) (nativePath moved))) := by
  obtain ⟨moved, hmoved, hsegments⟩ := CanonicalPath.rebase_eq_some h target
  refine ⟨moved, hsegments, ?_⟩
  rw [moveBranch, hmoved]

/-- The loop of a move, with an invariant for what is left. -/
theorem ensures_moveBranches {answers : Answers Memory Bytes Key}
    (inv : List Branch → World Memory → Prop) {failed : SyncError → World Memory → Prop}
    (hstep : ∀ b bs w, inv (b :: bs) w →
      Ensures answers w (moveBranch source target b) (fun _ w' => inv bs w') failed)
    {branches : List Branch} (h : inv branches w) :
    Ensures answers w (moveBranches source target branches) (fun _ w' => inv [] w')
      failed := by
  induction branches generalizing w with
  | nil =>
    rw [moveBranches, Ensures.pure_iff]
    exact h
  | cons b bs ih =>
    rw [moveBranches, Ensures.bind_iff]
    exact (hstep b bs w h).mono (fun _ _ hnext => ih hnext) fun _ _ hfailed => hfailed

/-- A directory that is moved entry by entry. -/
theorem ensures_moveRecursively (inv : List Branch → World Memory → Prop)
    {failed : SyncError → World Memory → Prop} (h : w.storage.WellFormed)
    (ht : w.storage.Textual) (hdir : w.storage.IsDirAt (keyAt source))
    (hlisted : ∀ branches, Subtree refusal.Possible w.storage (source, true) branches →
      inv (moveOrder branches) w)
    (hrefused : refusal.Possible → ∀ e, failed e w)
    (hstep : ∀ b bs w, inv (b :: bs) w →
      Ensures (unreliable Memory.backend refusal) w (moveBranch source target b)
        (fun _ w' => inv bs w') failed) :
    Ensures (unreliable Memory.backend refusal) w (moveRecursively source target)
      (fun _ w' => inv [] w') failed := by
  rw [moveRecursively, Ensures.bind_iff]
  refine (ensures_subtree h ht hdir).mono ?_ ?_
  · rintro branches w' ⟨hsubtree, rfl⟩
    exact ensures_moveBranches inv hstep (hlisted branches hsubtree)
  · rintro e w' ⟨hpossible, rfl⟩
    exact hrefused hpossible e

end Move

/-! ## Moves -/

section Guards

variable {R W : Type} {e : Endpoint} {source target : String}

/-- The root cannot be moved, and nothing can be moved to it. -/
theorem moveNode_root (h : names source = [] ∨ names target = []) :
    (moveNode e source target : Attempt R W SyncError Unit) =
      throw (.invalidInput "cannot move the endpoint root") := by
  rw [← isRoot_clean_iff, ← isRoot_clean_iff, ← Bool.or_eq_true] at h
  simp only [moveNode, if_pos h]
  rfl

/-- A move to where the node is does nothing. -/
theorem moveNode_same (hsource : names source ≠ []) (h : names source = names target) :
    (moveNode e source target : Attempt R W SyncError Unit) = pure () := by
  have hclean : clean source = clean target := clean_inj.mpr h
  have hroot : isRoot (clean target) = false := by
    rw [← Bool.not_eq_true, isRoot_clean_iff, ← h]
    exact hsource
  simp only [moveNode, hclean, hroot]
  rfl

/-- A node is not moved into itself. -/
theorem moveNode_into_itself (hsource : names source ≠ []) (hne : names source ≠ names target)
    (h : names source <+: names target) :
    (moveNode e source target : Attempt R W SyncError Unit) =
      throw (.invalidInput ("cannot move " ++ clean source ++ " into itself")) := by
  have htarget : names target ≠ [] := fun hnil => hsource (List.prefix_nil.mp (hnil ▸ h))
  have hroot : ¬ (isRoot (clean source) || isRoot (clean target)) := by
    rw [Bool.or_eq_true, isRoot_clean_iff, isRoot_clean_iff]
    exact not_or.mpr ⟨hsource, htarget⟩
  have hclean : clean source ≠ clean target := fun heq => hne (clean_inj.mp heq)
  have hstarts := (startsWith_clean_iff target source).mpr h
  simp only [moveNode, if_neg hroot, if_neg hclean, if_pos hstarts]

/-- Any other move looks at the node, makes what the target lies in, and then moves. -/
theorem moveNode_eq (hsource : names source ≠ []) (htarget : names target ≠ [])
    (h : ¬ names source <+: names target) :
    (moveNode e source target : Attempt R W SyncError Unit) = (do
      match ← ExceptT.lift (statNode (clean source)).run with
      | .error x => if x.isNotFound then pure () else throw x
      | .ok md =>
        ensureParent (clean target)
        if md.isDir && !e.capabilities.atomicRename then
          moveRecursively (clean source) (clean target)
        else about (clean source) (rename (nativePath (clean source)) (nativePath (clean target)))) := by
  have hroot : ¬ (isRoot (clean source) || isRoot (clean target)) := by
    rw [Bool.or_eq_true, isRoot_clean_iff, isRoot_clean_iff]
    exact not_or.mpr ⟨hsource, htarget⟩
  have hclean : clean source ≠ clean target :=
    fun heq => h (clean_inj.mp heq ▸ List.prefix_refl _)
  have hstarts : ¬ startsWith (clean target) (clean source) := by
    rw [startsWith_clean_iff]
    exact h
  -- None of the guards holds, which leaves what is done after them.
  exact (if_neg hroot).trans ((if_neg hclean).trans (if_neg hstarts))

end Guards

section Moves

-- Paths count by what is known of their segments; to compute these is of no use here.
attribute [local irreducible] segments clean

variable {refusal : Refusal Bytes Key} {w : World Memory} {e : Endpoint} {source target : String}

/-- A move on a storage that cannot move directories as a whole, if none of the guards is in its
way. -/
theorem ensures_moveNode {ok : Unit → World Memory → Prop} {failed : SyncError → World Memory → Prop}
    (he : e.capabilities = Memory.capabilities) (hsource : names source ≠ [])
    (htarget : names target ≠ []) (hnot : ¬ names source <+: names target)
    (h : w.storage.WellFormed)
    (hmissing : w.storage.get? (key source) = none → ok () w)
    (hrefused : refusal.Possible → ok () w ∧ ∀ e, failed e w)
    (hblocked : ∀ m' e above, segments above = (names target).dropLast → m'.WellFormed →
      w.storage.Grown (keyAt above) m' → (refusal.Possible ∨ w.storage.Blocked (keyAt above)) →
      failed e { w with storage := m' })
    (hmove : ∀ entry m' above, w.storage.get? (key source) = some entry →
      segments above = (names target).dropLast → m'.WellFormed →
      w.storage.Grown (keyAt above) m' → m'.IsDirAt (keyAt above) →
      Ensures (unreliable Memory.backend refusal) { w with storage := m' }
        (if entry.isDir then moveRecursively (clean source) (clean target)
          else about (clean source) (rename (nativePath (clean source)) (nativePath (clean target))))
        ok failed) :
    Ensures (unreliable Memory.backend refusal) w (moveNode e source target) ok failed := by
  rw [moveNode_eq hsource htarget hnot, Ensures.bind_iff, Ensures.lift_run_iff, statNode,
    ensures_about_iff]
  refine ensures_stat (fun entry hget => ?_) (fun hget => ?_) (fun hpossible x => ?_)
  · have htarget' : segments (clean target) ≠ [] := by
      rw [CanonicalPath.segments_clean]
      exact htarget
    have hdrop : (segments (clean target)).dropLast = (names target).dropLast := by
      rw [CanonicalPath.segments_clean]
    dsimp only
    rw [Ensures.bind_iff, he]
    refine ensures_ensureParent h htarget' (fun m' above habove hm' hgrown hdir => ?_)
      fun m' e above habove => hblocked m' e above (habove.trans hdrop)
    have hnext := hmove entry m' above hget (habove.trans hdrop) hm' hgrown hdir
    cases entry <;> exact hnext
  · dsimp only
    rw [SyncError.ofStorage, Memory.notFound, if_pos rfl]
    exact hmissing hget
  · -- A refusal may look like a missing entry, and then nothing is done.
    dsimp only
    cases SyncError.isNotFound (SyncError.ofStorage (clean source) x) with
    | true => exact (hrefused hpossible).1
    | false => exact (hrefused hpossible).2 _

end Moves

end SyncEndpoint.Endpoint
