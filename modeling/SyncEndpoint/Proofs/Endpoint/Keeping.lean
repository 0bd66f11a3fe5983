import SyncEndpoint.Endpoint.Mutation
import SyncEndpoint.Endpoint.Walk
import SyncEndpoint.Proofs.Endpoint.Rules
import SyncEndpoint.Proofs.Storage.Keeping

set_option autoImplicit false

/-! # What the operations of an endpoint keep

One rule for each operation: it keeps a property of the storage, and its errors have a property, if
that is so of the parts that it is made of. On a storage in memory reading keeps everything, and the
rest is a matter of which calls keep the property, at which paths. What is listed for a move and what
is visited in a walk may have properties of their own, handed on from a directory to what is listed
in it. -/

namespace SyncEndpoint

open Storage

/-! ## Identities -/

namespace Identity

variable {inv : Memory → Prop} {refusal : Refusal Bytes Key} {dir : NativePath}

theorem keeps_contentHash :
    Keeps (unreliable Memory.backend refusal) inv (contentHash dir) fun _ => True :=
  keeps_openRead.bind fun _ _ => (keeps_foldReader _ _).bind fun _ _ => .pure trivial

theorem keeps_readMarker :
    Keeps (unreliable Memory.backend refusal) inv (readMarker dir) fun _ => True := by
  refine .of_program (Program.Keeps.bind keeps_contentOf fun res _ => ?_)
  cases res <;> exact .pure trivial

end Identity

namespace Endpoint

open CanonicalPath (segments names clean join)

-- Paths count by what is known of their segments; to compute these is of no use here.
attribute [local irreducible] segments clean

/-! ## Operations

An endpoint comes up with errors of its own, none of which is about the storage. -/

section Operations

variable {σ R W : Type} {answers : Answers σ R W} {inv : σ → Prop} {failed : SyncError → Prop}
  {path source target : String}

theorem keepsOr_openWriter {P : W → Prop} (hown : ∀ message, failed (.invalidInput message))
    (hstat : KeepsOr answers inv failed (statNode (clean path)) fun _ => True)
    (hopen : KeepsOr answers inv failed
      (about (clean path) (openWrite (nativePath (clean path)))) P)
    (hcreate : KeepsOr answers inv failed
      (about (clean path) (create (nativePath (clean path)))) P) :
    KeepsOr answers inv failed (openWriter path) P := by
  refine (KeepsOr.lift_run hstat).bind fun res hres => ?_
  cases res with
  | ok md =>
    dsimp only
    split
    · exact .throw (hown _)
    · exact hopen
  | error x =>
    dsimp only
    split
    · exact hcreate
    · exact .throw hres

/-- What is made is made at a place that was found missing. -/
theorem keepsOr_createNode {n : Node} {unseen : SyncError → Prop} {missing : Prop}
    (hown : ∀ message, failed (.invalidInput message))
    (hstat : KeepsOr answers inv unseen (statNode (clean n.path)) fun _ => True)
    (hunseen : ∀ x, unseen x → failed x ∧ (x.isNotFound = true → missing))
    (hmake : missing → KeepsOr answers inv failed
      (about (clean n.path) (createDirAll (nativePath (clean n.path)))) fun _ => True)
    (hmark : missing → KeepsOr answers inv failed
      (about (clean n.path) (Identity.writeMarker (nativePath (clean n.path)) n.identifier))
        fun _ => True) :
    KeepsOr answers inv failed (createNode n) fun _ => True := by
  unfold createNode
  dsimp only
  by_cases hleaf : n.isLeaf
  · rw [if_pos hleaf]
    exact .throw (hown _)
  · rw [if_neg hleaf]
    refine (KeepsOr.lift_run hstat).bind fun res hres => ?_
    cases res with
    | ok md =>
      dsimp only
      split
      · exact .pure trivial
      · exact .throw (hown _)
    | error x =>
      dsimp only
      split
      · next hmissing =>
        have hplace := (hunseen x hres).2 hmissing
        refine (hmake hplace).bind fun _ _ => ?_
        split
        · exact .pure trivial
        · exact hmark hplace
      · exact .throw (hunseen x hres).1

theorem keepsOr_deleteNode (hown : ∀ message, failed (.invalidInput message))
    (hremove : Keeps answers inv (removeAll (nativePath (clean path))) fun _ => True)
    (hfailed : ∀ x, failed (SyncError.ofStorage (clean path) x)) :
    KeepsOr answers inv failed (deleteNode path) fun _ => True := by
  unfold deleteNode
  dsimp only
  split
  · exact .throw (hown _)
  · refine (KeepsOr.lift_run hremove).bind fun res _ => ?_
    cases res with
    | ok u => exact .pure trivial
    | error x =>
      dsimp only
      split
      · exact .pure trivial
      · exact .throw (hfailed x)

theorem keepsOr_ensureParent
    (h : ∀ above, CanonicalPath.parent path = some above →
      KeepsOr answers inv failed (about above (createDirAll (nativePath above))) fun _ => True) :
    KeepsOr answers inv failed (ensureParent path) fun _ => True := by
  unfold ensureParent
  split
  · next above hparent => exact h above hparent
  · exact .pure trivial

/-- Past its guards, a move is not one of a node into itself. -/
theorem keepsOr_moveNode {e : Endpoint} (hown : ∀ message, failed (.invalidInput message))
    (hstat : KeepsOr answers inv failed (statNode (clean source)) fun _ => True)
    (hparent : KeepsOr answers inv failed (ensureParent (clean target)) fun _ => True)
    (hmove : ¬ names source <+: names target →
      KeepsOr answers inv failed (moveRecursively (clean source) (clean target)) fun _ => True)
    (hrename : ¬ names source <+: names target →
      KeepsOr answers inv failed
        (about (clean source) (rename (nativePath (clean source)) (nativePath (clean target))))
          fun _ => True) :
    KeepsOr answers inv failed (moveNode e source target) fun _ => True := by
  by_cases hroot : names source = [] ∨ names target = []
  · rw [moveNode_root hroot]
    exact .throw (hown _)
  obtain ⟨hsourceRoot, htargetRoot⟩ := not_or.mp hroot
  by_cases hsame : names source = names target
  · rw [moveNode_same hsourceRoot hsame]
    exact .pure trivial
  by_cases hinside : names source <+: names target
  · rw [moveNode_into_itself hsourceRoot hsame hinside]
    exact .throw (hown _)
  rw [moveNode_eq hsourceRoot htargetRoot hinside]
  refine (KeepsOr.lift_run hstat).bind fun res hres => ?_
  cases res with
  | error x =>
    dsimp only
    split
    · exact .pure trivial
    · exact .throw hres
  | ok md =>
    dsimp only
    refine hparent.bind fun _ _ => ?_
    split
    · exact hmove hinside
    · exact hrename hinside

/-! ### Entry by entry -/

variable {P : Branch → Prop}

/-- A property that directories hand on to what is listed in them. -/
def ListsOnly (answers : Answers σ R W) (inv : σ → Prop) (failed : SyncError → Prop)
    (P : Branch → Prop) : Prop :=
  ∀ path, P (path, true) →
    KeepsOr answers inv failed (about path (readDir (nativePath path)))
      fun entries => ∀ entry ∈ entries, P (join path entry.name, entry.isDir)

theorem ListsOnly.keepsOr_subtreeFrom (hlists : ListsOnly answers inv failed P) (levels : Nat)
    {top : Branch} (htop : P top) :
    KeepsOr answers inv failed (subtreeFrom levels top) fun branches => ∀ b ∈ branches, P b := by
  induction levels generalizing top with
  | zero =>
    rw [subtreeFrom]
    exact .pure (List.forall_mem_nil _)
  | succ levels ih =>
    obtain ⟨path, isDir⟩ := top
    cases isDir with
    | false =>
      rw [subtreeFrom]
      exact .pure (List.forall_mem_singleton.mpr htop)
    | true =>
      rw [subtreeFrom]
      refine (hlists path htop).bind fun entries hentries => ?_
      have hchild : ∀ child ∈ entries.map fun entry => (join path entry.name, entry.isDir),
          KeepsOr answers inv failed (subtreeFrom levels child)
            fun branches => ∀ b ∈ branches, P b := by
        intro child hmem
        obtain ⟨entry, hentry, rfl⟩ := List.mem_map.mp hmem
        exact ih (hentries entry hentry)
      refine (KeepsOr.mapM hchild).bind fun parts hparts => .pure ?_
      exact List.forall_mem_cons.mpr ⟨htop, List.forall_mem_flatten.mpr hparts⟩

theorem keepsOr_moveBranches {branches : List Branch}
    (h : ∀ b ∈ branches, KeepsOr answers inv failed (moveBranch source target b) fun _ => True) :
    KeepsOr answers inv failed (moveBranches source target branches) fun _ => True := by
  induction branches with
  | nil =>
    rw [moveBranches]
    exact .pure trivial
  | cons b bs ih =>
    rw [List.forall_mem_cons] at h
    rw [moveBranches]
    exact h.1.bind fun _ _ => ih h.2

theorem ListsOnly.keepsOr_moveRecursively (hlists : ListsOnly answers inv failed P)
    (hdepth : (depthBound : Program R W Nat).Keeps answers inv fun _ => True)
    (hsource : P (source, true))
    (hbranch : ∀ b, P b → KeepsOr answers inv failed (moveBranch source target b) fun _ => True) :
    KeepsOr answers inv failed (moveRecursively source target) fun _ => True := by
  rw [moveRecursively, subtree, bind_assoc]
  refine (KeepsOr.lift hdepth).bind fun depth _ => ?_
  refine (hlists.keepsOr_subtreeFrom _ hsource).bind fun branches hbranches => ?_
  exact keepsOr_moveBranches fun b hb => hbranch b (hbranches b (mem_moveOrder.mp hb))

end Operations

/-! ## The storage in memory -/

section Memory

variable {inv : Memory → Prop} {refusal : Refusal Bytes Key} {path source target : String}

theorem keeps_statNode :
    Keeps (unreliable Memory.backend refusal) inv (statNode path) fun _ => True :=
  keeps_stat.withError

theorem keeps_readAll :
    Keeps (unreliable Memory.backend refusal) inv (readAll path) fun _ => True :=
  keeps_openRead.withError.bind fun _ _ => (keeps_foldReader _ _).withError

theorem keeps_writeAll {content : Bytes}
    (hopen : Call.Keeps Memory.backend inv (.openWrite (nativePath (clean path))))
    (hcreate : Call.Keeps Memory.backend inv (.create (nativePath (clean path))))
    (hwrite : Call.Keeps Memory.backend inv (.write (key path) content)) :
    Keeps (unreliable Memory.backend refusal) inv (writeAll path content) fun _ => True := by
  have hkey : keyOf (nativePath (clean path)) = key path := keyOf_nativePath (clean path)
  have hopened : Keeps (unreliable Memory.backend refusal) inv (openWriter path) (· = key path) :=
    keepsOr_openWriter (fun _ => trivial) keeps_statNode (hkey ▸ (keeps_openWrite hopen).withError)
      (hkey ▸ (keeps_create hcreate).withError)
  refine hopened.bind fun writer hwriter => ?_
  subst hwriter
  exact (keeps_writeOnce hwrite).withError.bind fun _ _ => keeps_shutdown.withError

theorem keeps_deleteNode
    (h : Call.Keeps Memory.backend inv (.removeAll (nativePath (clean path)))) :
    Keeps (unreliable Memory.backend refusal) inv (deleteNode path) fun _ => True :=
  keepsOr_deleteNode (fun _ => trivial) (keeps_removeAll h) fun _ => trivial

/-- A path at or below another, by its segments. -/
def IsBelow (above : String) (b : Branch) : Prop :=
  ∃ ss, segments b.1 = segments above ++ ss

theorem isBelow_join {above path name : String} {isDir isDir' : Bool}
    (h : IsBelow above (path, isDir)) : IsBelow above (join path name, isDir') := by
  obtain ⟨ss, hss⟩ := h
  exact ⟨ss ++ segments name, by rw [CanonicalPath.segments_join, hss, List.append_assoc]⟩

/-- Whatever a listing says, what is listed lies below the top. -/
theorem listsOnly_isBelow (above : String) :
    ListsOnly (unreliable Memory.backend refusal) inv (fun _ => True) (IsBelow above) :=
  fun _ hpath => keeps_readDir.withError.mono fun _ _ _ _ => isBelow_join hpath

theorem keeps_moveNode {e : Endpoint}
    (hparent : Keeps (unreliable Memory.backend refusal) inv (ensureParent (clean target))
      fun _ => True)
    (hbranch : ¬ names source <+: names target → ∀ b, IsBelow (clean source) b →
      Keeps (unreliable Memory.backend refusal) inv (moveBranch (clean source) (clean target) b)
        fun _ => True)
    (hrename : ¬ names source <+: names target →
      Call.Keeps Memory.backend inv
        (.rename (nativePath (clean source)) (nativePath (clean target)))) :
    Keeps (unreliable Memory.backend refusal) inv (moveNode e source target) fun _ => True :=
  keepsOr_moveNode (fun _ => trivial) keeps_statNode hparent
    (fun hnot => (listsOnly_isBelow (clean source)).keepsOr_moveRecursively keeps_depthBound
      ⟨[], (List.append_nil _).symm⟩ (hbranch hnot))
    fun hnot => (keeps_rename (hrename hnot)).withError

end Memory

/-! ## Walking -/

section Walk

variable {σ R W : Type} {answers : Answers σ R W} {inv : σ → Prop} {e : Endpoint}
  {P : Found → Prop} {Q : Visit → Prop}

/-- A property that directories hand on to what is found in them, and one that visits have then. -/
structure VisitsOnly (answers : Answers σ R W) (inv : σ → Prop) (e : Endpoint) (P : Found → Prop)
    (Q : Visit → Prop) : Prop where
  unseen : ∀ path x, P ⟨path, .error x⟩ → Q ⟨path, .error x⟩
  own : ∀ path md, P ⟨path, .ok md⟩ →
    (visitNode path md : Program R W (List Visit)).Keeps answers inv fun visits => ∀ v ∈ visits, Q v
  listed : ∀ path md, P ⟨path, .ok md⟩ →
    KeepsOr answers inv (fun x => Q ⟨path, .error (SyncError.ofStorage path x)⟩)
      (readDir (nativePath path) : Attempt R W IoError (List Listed))
      fun entries => ∀ entry ∈ entries, ∀ child, e.foundIn? path entry = some child → P child

namespace VisitsOnly

theorem keeps_walkFrom (h : VisitsOnly answers inv e P Q) (depth : Nat) {found : Found}
    (hfound : P found) :
    (walkFrom e depth found : Program R W (List Visit)).Keeps answers inv
      fun visits => ∀ v ∈ visits, Q v := by
  induction depth generalizing found with
  | zero => exact .pure (List.forall_mem_nil _)
  | succ depth ih =>
    obtain ⟨path, metadata⟩ := found
    cases metadata with
    | error x => exact .pure (List.forall_mem_singleton.mpr (h.unseen path x hfound))
    | ok md =>
      refine (h.own path md hfound).bind fun own hown => ?_
      split
      · refine Program.Keeps.bind (h.listed path md hfound) fun res hres => ?_
        cases res with
        | error x =>
          exact .pure (List.forall_mem_append.mpr ⟨hown, List.forall_mem_singleton.mpr hres⟩)
        | ok entries =>
          have hchild : ∀ child ∈ entries.filterMap (e.foundIn? path), P child := by
            intro child hmem
            obtain ⟨entry, hentry, hsome⟩ := List.mem_filterMap.mp hmem
            exact hres entry hentry child hsome
          refine (Program.Keeps.mapM fun child hmem => ih (hchild child hmem)).bind
            fun parts hparts => .pure ?_
          exact List.forall_mem_append.mpr ⟨hown, List.forall_mem_flatten.mpr hparts⟩
      · exact .pure hown

theorem keeps_walk (h : VisitsOnly answers inv e P Q)
    (hdepth : (depthBound : Program R W Nat).Keeps answers inv fun _ => True) {starts : List String}
    (hstart : ∀ start, start ∈ starts ∨ start = CanonicalPath.root →
      (statNode (clean start) : Attempt R W SyncError Metadata).run.Keeps answers inv
        fun metadata => P ⟨clean start, metadata⟩) :
    (walk e starts : Program R W (List Visit)).Keeps answers inv fun visits => ∀ v ∈ visits, Q v := by
  have htree : ∀ start ∈ if starts.isEmpty then [CanonicalPath.root] else starts,
      (walkTree e start : Program R W (List Visit)).Keeps answers inv
        fun visits => ∀ v ∈ visits, Q v := by
    intro start hmem
    have hwhere : start ∈ starts ∨ start = CanonicalPath.root := by
      split at hmem
      · exact Or.inr (List.mem_singleton.mp hmem)
      · exact Or.inl hmem
    exact (hstart start hwhere).bind fun metadata hfound => hdepth.bind fun depth _ =>
      h.keeps_walkFrom _ hfound
  exact (Program.Keeps.mapM htree).bind fun parts hparts =>
    .pure (List.forall_mem_flatten.mpr hparts)

end VisitsOnly

end Walk

end Endpoint

end SyncEndpoint
