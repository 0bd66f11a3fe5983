import SyncEndpoint.Proofs.Endpoint.Identity
import SyncEndpoint.Proofs.Endpoint.Keeping
import SyncEndpoint.Proofs.Endpoint.Move
import SyncEndpoint.Proofs.Storage.Frame

set_option autoImplicit false

/-! # What the operations of an endpoint may change

Each operation keeps to a part of the tree that its paths name, and leaves a tree, on success and
wherever it fails: in the middle of a move, in the middle of a file, or before it has begun. Reading
changes nothing; looking changes markers only. -/

namespace SyncEndpoint.Endpoint

open CanonicalPath (segments names clean)
open Storage
open Text.Utf8

theorem isTextual_keyAt (path : String) : IsTextual (keyAt path) :=
  fun _ hname => (of_mem_keyAt hname).2

theorem isTextual_markerKey (path : String) : IsTextual (markerKey path) := by
  intro name hname
  rcases List.mem_append.mp hname with hname | hname
  · exact isTextual_keyAt path name hname
  · exact ⟨markerName, List.mem_singleton.mp hname⟩

-- Paths count by what is known of their segments; to compute these is of no use here.
attribute [local irreducible] segments clean

variable {r : Region} {m₀ : Memory} {path : String}

/-! ## Calls at canonical paths -/

theorem covers_create (hwritten : r.written (keyAt path)) :
    r.Covers (.create (nativePath path)) := by
  rw [← keyOf_nativePath] at hwritten
  exact ⟨keyOf_nativePath path ▸ isTextual_keyAt path, hwritten⟩

theorem covers_openWrite (hwritten : r.written (keyAt path)) :
    r.Covers (.openWrite (nativePath path)) :=
  covers_create hwritten

theorem covers_createDirAll (hmade : ∀ k, k <+: keyAt path → r.free k ∨ r.made k) :
    r.Covers (.createDirAll (nativePath path)) := by
  rw [← keyOf_nativePath] at hmade
  exact ⟨keyOf_nativePath path ▸ isTextual_keyAt path, hmade⟩

theorem covers_removeAll (hfree : ∀ k, keyAt path <+: k → r.free k) :
    r.Covers (.removeAll (nativePath path)) := by
  rw [← keyOf_nativePath] at hfree
  exact hfree

theorem covers_rename {current moved : String} (hnot : ¬ keyAt current <+: keyAt moved)
    (hfree : r.free (keyAt current) ∧ r.free (keyAt moved)) :
    r.Covers (.rename (nativePath current) (nativePath moved)) := by
  have htext := isTextual_keyAt moved
  rw [← keyOf_nativePath] at htext
  rw [← keyOf_nativePath, ← keyOf_nativePath] at hnot hfree
  exact ⟨htext, fun hbelow => absurd hbelow hnot, hfree⟩

/-! ## Identities -/

theorem staysIn_writeMarker {id : String} (hwritten : r.written (markerKey path)) :
    StaysIn r m₀ (Identity.writeMarker (nativePath path) id) fun _ => True := by
  have hkey := keyOf_markerPath_nativePath path
  have hcreate : r.Covers (.create (Identity.markerPath (nativePath path))) :=
    ⟨hkey ▸ isTextual_markerKey path, hkey ▸ hwritten⟩
  have hwrite : r.Covers (.write (keyOf (Identity.markerPath (nativePath path))) (encode id)) :=
    hcreate.2
  exact keeps_putContent hcreate.keeps hwrite.keeps

theorem staysIn_folderId (hwritten : r.written (markerKey path)) :
    StaysIn r m₀ (Identity.folderId (nativePath path)) fun _ => True := by
  refine Identity.keeps_readMarker.bind fun id? _ => ?_
  cases id? with
  | some id => exact .pure trivial
  | none =>
    exact (KeepsOr.lift .mint).bind fun id _ => (staysIn_writeMarker hwritten).bind fun _ _ =>
      .pure trivial

/-- Asking for an identity may write the marker of a collection. -/
theorem staysIn_identify {isLeaf : Bool} (hwritten : r.written (markerKey path)) :
    StaysIn r m₀ (identify path isLeaf) fun _ => True := by
  unfold identify
  split
  · exact Identity.keeps_contentHash.withError.map fun _ _ => trivial
  · exact (staysIn_folderId hwritten).withError.map fun _ _ => trivial

theorem staysIn_loadNode {knownLeaf : Option Bool} (hwritten : r.written (markerKey (clean path))) :
    StaysIn r m₀ (loadNode path knownLeaf) fun _ => True := by
  unfold loadNode
  cases knownLeaf with
  | some isLeaf => exact staysIn_identify hwritten
  | none => exact keeps_statNode.bind fun md _ => (staysIn_identify hwritten).map fun _ _ => trivial

/-! ## Content -/

/-- Writing a leaf writes the one file, or the first of it. -/
theorem staysIn_writeAll {content : Bytes} (hwritten : r.written (key path)) :
    StaysIn r m₀ (writeAll path content) fun _ => True := by
  have hwrite : r.Covers (.write (key path) content) := hwritten
  exact keeps_writeAll (covers_openWrite hwritten).keeps (covers_create hwritten).keeps hwrite.keeps

/-! ## Making and deleting -/

/-- Making a collection makes directories on the way to it, and may write its marker. -/
theorem staysIn_createNode {n : Node} (hmade : ∀ k, k <+: key n.path → r.made k)
    (hwritten : r.written (markerKey (clean n.path))) :
    StaysIn r m₀ (createNode n) fun _ => True := by
  have hmake : r.Covers (.createDirAll (nativePath (clean n.path))) :=
    covers_createDirAll fun k hk => Or.inr (hmade k hk)
  exact keepsOr_createNode (fun _ => trivial) keeps_statNode
    (fun _ _ => ⟨trivial, fun _ => trivial⟩)
    (fun _ => (keeps_createDirAll hmake.keeps).withError)
    fun _ => (staysIn_writeMarker hwritten).withError

theorem staysIn_deleteNode (hfree : ∀ k, key path <+: k → r.free k) :
    StaysIn r m₀ (deleteNode path) fun _ => True :=
  keeps_deleteNode (covers_removeAll hfree).keeps

/-! ## Moving -/

theorem staysIn_ensureParent (hmade : ∀ k, k <+: keyAt path → r.free k ∨ r.made k) :
    StaysIn r m₀ (ensureParent path) fun _ => True := by
  refine keepsOr_ensureParent fun above hparent =>
    (keeps_createDirAll (covers_createDirAll fun k hk => ?_).keeps).withError
  have hroot : segments path ≠ [] := by
    intro hroot
    rw [CanonicalPath.parent, if_pos ((CanonicalPath.isRoot_iff path).mpr hroot)] at hparent
    cases hparent
  obtain ⟨above', hparent', habove⟩ := CanonicalPath.parent_eq_some hroot
  cases hparent.symm.trans hparent'
  exact hmade k (hk.trans (keyAt_prefix_of_dropLast habove))

section Move

variable {source target : String}

/-- Below the source and the target of a move anything may happen; above the target what is missing
may be made. -/
structure CoversMove (r : Region) (source target : Key) : Prop where
  below_source : ∀ k, source <+: k → r.free k
  below_target : ∀ k, target <+: k → r.free k
  above_target : ∀ k, k <+: target → r.made k

theorem CoversMove.free_or_made {source target s k : Key} (h : CoversMove r source target)
    (hk : k <+: target ++ s) : r.free k ∨ r.made k := by
  rcases List.prefix_or_prefix_of_prefix hk (List.prefix_append target s) with hk | hk
  · exact Or.inr (h.above_target k hk)
  · exact Or.inl (h.below_target k hk)

/-- If the target is not below the source, nothing goes below itself in a move. -/
theorem not_append_prefix_append {source target s : Key} (h : ¬ source <+: target) :
    ¬ source ++ s <+: target ++ s := by
  intro hbelow
  have hlength := hbelow.length_le
  rw [List.length_append, List.length_append] at hlength
  refine h (List.prefix_of_prefix_length_le ((List.prefix_append _ _).trans hbelow)
    (List.prefix_append _ _) ?_)
  omega

theorem staysIn_moveBranch {b : Branch} (hr : CoversMove r (key source) (key target))
    (hnot : ¬ key source <+: key target) (hb : IsBelow (clean source) b) :
    StaysIn r m₀ (moveBranch (clean source) (clean target) b) fun _ => True := by
  obtain ⟨current, isDir⟩ := b
  obtain ⟨ss, hss⟩ := hb
  obtain ⟨moved, hmoved, hstep⟩ := exists_moveBranch_eq hss (clean target) isDir
  rw [CanonicalPath.names_clean, ← CanonicalPath.segments_clean] at hmoved
  have hcurrentKey : keyAt current = key source ++ keyOfSegments ss := keyAt_append hss
  have hmovedKey : keyAt moved = key target ++ keyOfSegments ss := keyAt_append hmoved
  have hbelowSource : ∀ k, keyAt current <+: k → r.free k := by
    rw [hcurrentKey]
    exact fun k hk => hr.below_source k ((List.prefix_append _ _).trans hk)
  have honTheWay : ∀ k, k <+: keyAt moved → r.free k ∨ r.made k := by
    rw [hmovedKey]
    exact fun k hk => hr.free_or_made hk
  rw [hstep]
  cases isDir with
  | true =>
    rw [if_pos rfl]
    exact (keeps_createDirAll (covers_createDirAll honTheWay).keeps).withError.bind fun _ _ =>
      (keeps_removeAll (covers_removeAll hbelowSource).keeps).withError
  | false =>
    rw [if_neg (by decide)]
    refine (staysIn_ensureParent honTheWay).bind fun _ _ => ?_
    have hnotBelow : ¬ keyAt current <+: keyAt moved := by
      rw [hcurrentKey, hmovedKey]
      exact not_append_prefix_append hnot
    have hfree : r.free (keyAt current) ∧ r.free (keyAt moved) := by
      refine ⟨hbelowSource _ (List.prefix_refl _), ?_⟩
      rw [hmovedKey]
      exact hr.below_target _ (List.prefix_append _ _)
    exact (keeps_rename (covers_rename hnotBelow hfree).keeps).withError

/-- A move leaves everything else alone, wherever it stops. -/
theorem staysIn_moveNode {e : Endpoint} (hsource : NoDotDot source) (htarget : NoDotDot target)
    (hr : CoversMove r (key source) (key target)) :
    StaysIn r m₀ (moveNode e source target) fun _ => True := by
  -- Past its guards, a move goes to a place that is not below the source for the storage either.
  have hbelow : ¬ names source <+: names target → ¬ key source <+: key target := by
    rw [key_prefix_key_iff hsource htarget]
    exact id
  refine keeps_moveNode (staysIn_ensureParent fun k hk => Or.inr (hr.above_target k hk))
    (fun hnot _ => staysIn_moveBranch hr (hbelow hnot)) fun hnot => ?_
  exact (covers_rename (hbelow hnot) ⟨hr.below_source _ (List.prefix_refl _),
    hr.below_target _ (List.prefix_refl _)⟩).keeps

end Move

/-! ## Walking -/

/-- The markers of what was visited. -/
def markersOf (visits : List Visit) : Region :=
  { written := fun k => ∃ v ∈ visits, k = markerKey v.path }

theorem markersOf_within {visits visits' : List Visit} (h : visits ⊆ visits') :
    (markersOf visits).Within (markersOf visits') :=
  fun _ => ⟨id, id, fun ⟨v, hv, hk⟩ => ⟨v, h hv, hk⟩⟩

/-- What is known is visited, and only the markers of what is visited change. -/
def MarksVisited (known : List Visit) (p : Program Bytes Key (List Visit)) : Prop :=
  ∀ w : World Memory, w.storage.WellFormed → w.storage.Textual →
    p.Every (unreliable Memory.backend .all)
      (fun visits w' => known ⊆ visits ∧ w.storage.ChangedIn (markersOf visits) w'.storage) w

namespace MarksVisited

variable {α : Type} {known : List Visit}

theorem pure {visits : List Visit} (h : known ⊆ visits) : MarksVisited known (Pure.pure visits) :=
  fun _ hw ht => ⟨h, .refl hw ht⟩

/-- Visits, and then others that go with them. -/
theorem bind {p : Program Bytes Key (List Visit)} {f : List Visit → Program Bytes Key (List Visit)}
    (h : MarksVisited [] p) (hf : ∀ own, MarksVisited (known ++ own) (f own)) :
    MarksVisited known (p >>= f) := by
  intro w hw ht
  refine Program.every_bind.mpr ((h w hw ht).mono fun own w' hown => ?_)
  refine (hf own w' hown.2.wellFormed hown.2.textual).mono fun visits w'' hvisits => ?_
  obtain ⟨hknown, hown'⟩ := List.append_subset.mp hvisits.1
  exact ⟨hknown, (hown.2.mono (markersOf_within hown')).trans hvisits.2⟩

/-- Looking first. -/
theorem after {p : Program Bytes Key α} {result : α → Prop}
    {f : α → Program Bytes Key (List Visit)}
    (h : ∀ m₀ : Memory, p.Keeps (unreliable Memory.backend .all) (m₀.ChangedIn .nowhere) result)
    (hf : ∀ a, MarksVisited known (f a)) : MarksVisited known (p >>= f) := by
  intro w hw ht
  refine Program.every_bind.mpr ((h w.storage w (.refl hw ht)).mono fun a w' hpost => ?_)
  have hlook := hpost.1
  refine (hf a w' hlook.wellFormed hlook.textual).mono fun visits w'' hvisits => ⟨hvisits.1, ?_⟩
  exact (hlook.mono fun _ => ⟨False.elim, False.elim, False.elim⟩).trans hvisits.2

/-- Visits from a list of places, together with those before. -/
theorem mapM {as : List α} {f : α → Program Bytes Key (List Visit)}
    (h : ∀ a ∈ as, MarksVisited [] (f a)) :
    MarksVisited known (as.mapM f >>= fun below => Pure.pure (known ++ below.flatten)) := by
  induction as generalizing known with
  | nil =>
    rw [List.mapM_nil, pure_bind]
    exact .pure (List.subset_append_left _ _)
  | cons a as ih =>
    rw [List.forall_mem_cons] at h
    rw [List.mapM_cons, bind_assoc]
    refine h.1.bind fun own => ?_
    have hrest : MarksVisited (known ++ own) (as.mapM f >>= fun below =>
      Pure.pure (known ++ own ++ below.flatten)) := ih h.2
    simpa only [bind_assoc, pure_bind, List.flatten_cons, List.append_assoc] using hrest

end MarksVisited

theorem marksVisited_visitNode (path : String) (md : Metadata) :
    MarksVisited [] (visitNode path md) := by
  unfold visitNode
  split
  · exact .pure (List.nil_subset _)
  · intro w hw ht
    have hidentify : StaysIn (.file (markerKey path)) w.storage (identify path (!md.isDir))
        fun _ => True := staysIn_identify rfl
    refine Program.every_bind.mpr ((hidentify w (.refl hw ht)).mono fun node w' hpost => ?_)
    refine ⟨List.nil_subset _, hpost.1.mono fun k => ⟨id, id, fun hk => ?_⟩⟩
    exact ⟨_, List.mem_singleton.mpr rfl, hk⟩

theorem marksVisited_walkFrom (e : Endpoint) (depth : Nat) (found : Found) :
    MarksVisited [] (walkFrom e depth found) := by
  induction depth generalizing found with
  | zero => exact .pure (List.nil_subset _)
  | succ depth ih =>
    obtain ⟨path, metadata⟩ := found
    cases metadata with
    | error x => exact .pure (List.nil_subset _)
    | ok md =>
      refine (marksVisited_visitNode path md).bind fun own => ?_
      rw [List.nil_append]
      split
      · refine .after (fun m₀ => keeps_readDir) fun res => ?_
        cases res with
        | error x => exact .pure (List.subset_append_left _ _)
        | ok entries => exact .mapM fun child _ => ih child
      · exact .pure (List.Subset.refl _)

theorem marksVisited_walkTree (e : Endpoint) (start : String) :
    MarksVisited [] (walkTree e start) := by
  refine .after (fun m₀ => keeps_statNode) fun metadata => ?_
  exact .after (fun m₀ => keeps_depthBound) fun depth => marksVisited_walkFrom e _ _

/-- A walk writes the markers of collections that it visits, and changes nothing else. -/
theorem marksVisited_walk (e : Endpoint) (starts : List String) :
    MarksVisited [] (walk e starts) :=
  .mapM fun start _ => marksVisited_walkTree e start

end SyncEndpoint.Endpoint
