import SyncEndpoint.Proofs.Endpoint.Guards
import SyncEndpoint.Proofs.Endpoint.Requests
import SyncEndpoint.Proofs.Storage.Names

set_option autoImplicit false

/-! # The paths that errors name

Every error of the storage that an endpoint hands on names the canonical path of what it concerns,
on any storage that lists names only and with whatever calls failing: that is one more property that
operations have if their parts do (`ErrsClean`). The exception is what goes wrong in a file after it was opened: `readAll` and `writeAll` name the path there as they
were given it. -/

namespace SyncEndpoint

open CanonicalPath (clean clean_clean clean_of_parent clean_of_rebase clean_join_of_isSegment)
open NativePath (IsName isName_encode_iff)
open Text.Utf8

/-- If an error names the path of a node, it is spelled canonically. -/
def SyncError.NamesClean : SyncError → Prop
  | .storage path _ | .notFound path => clean path = path
  | _ => True

theorem SyncError.namesClean_ofStorage_iff {path : String} {x : IoError} :
    (SyncError.ofStorage path x).NamesClean ↔ clean path = path := by
  unfold SyncError.ofStorage
  split <;> exact Iff.rfl

namespace Endpoint

open Storage

/-! ## Attempts whose errors name clean paths -/

section Rules

variable {σ R W α β : Type} {answers : Answers σ R W} {inv : σ → Prop}

/-- A result has a property, or the error in its place names a clean path. -/
abbrev OkOrClean (result : α → Prop) : Except SyncError α → Prop :=
  OkOr SyncError.NamesClean result

/-- The error in a result, if it is one, names a clean path. -/
abbrev ErrorClean (res : Except SyncError α) : Prop :=
  OkOrClean (fun _ => True) res

/-- An attempt keeps a property of the storage; its result has a property, and its error names a
clean path. -/
abbrev ErrsClean (answers : Answers σ R W) (inv : σ → Prop) (x : Attempt R W SyncError α)
    (result : α → Prop) : Prop :=
  KeepsOr answers inv SyncError.NamesClean x result

/-- An error of the storage is told of the path that it is about. -/
theorem ErrsClean.about {x : Attempt R W IoError α} {result : α → Prop} {canonical : String}
    (hpath : clean canonical = canonical) (h : Keeps answers inv x result) :
    ErrsClean answers inv (about canonical x) result :=
  KeepsOr.withError h fun _ _ => SyncError.namesClean_ofStorage_iff.mpr hpath

end Rules

/-! ## What an endpoint does -/

section Parts

variable {σ R W : Type} {answers : Answers σ R W} {inv : σ → Prop} {path : String}

-- Paths count by what is known of their spelling; to compute them is of no use here.
attribute [local irreducible] clean CanonicalPath.join CanonicalPath.parent CanonicalPath.rebase

theorem errsClean_about {α : Type} (h : ShowsNames answers inv) (hpath : clean path = path)
    (x : Attempt R W IoError α) : ErrsClean answers inv (about path x) fun _ => True :=
  ErrsClean.about hpath (.of_program (h.keeps x.run))

theorem errsClean_identify (h : ShowsNames answers inv) (hpath : clean path = path) (isLeaf : Bool) :
    ErrsClean answers inv (identify path isLeaf) fun _ => True := by
  unfold identify
  split
  · exact (errsClean_about h hpath _).map fun _ _ => trivial
  · exact (errsClean_about h hpath _).map fun _ _ => trivial

theorem errsClean_statNode (h : ShowsNames answers inv) (hpath : clean path = path) :
    ErrsClean answers inv (statNode path) fun _ => True :=
  errsClean_about h hpath _

theorem errsClean_loadNode (h : ShowsNames answers inv) (path : String) (knownLeaf : Option Bool) :
    ErrsClean answers inv (loadNode path knownLeaf) fun _ => True := by
  have hpath := clean_clean path
  unfold loadNode
  cases knownLeaf with
  | some isLeaf => exact errsClean_identify h hpath isLeaf
  | none =>
    exact (errsClean_statNode h hpath).bind fun md _ =>
      (errsClean_identify h hpath _).map fun _ _ => trivial

/-! ### Content -/

theorem errsClean_openReader (h : ShowsNames answers inv) (path : String) :
    ErrsClean answers inv (openReader path) fun _ => True :=
  errsClean_about h (clean_clean path) _

theorem errsClean_openWriter (h : ShowsNames answers inv) (path : String) :
    ErrsClean answers inv (openWriter path) fun _ => True :=
  have hpath := clean_clean path
  keepsOr_openWriter (fun _ => trivial) (errsClean_statNode h hpath) (errsClean_about h hpath _)
    (errsClean_about h hpath _)

theorem errsClean_readAll (h : ShowsNames answers inv) (hpath : clean path = path) :
    ErrsClean answers inv (readAll path) fun _ => True :=
  (errsClean_openReader h path).bind fun reader _ => errsClean_about h hpath (readToEnd reader)

theorem errsClean_writeAll (h : ShowsNames answers inv) (hpath : clean path = path)
    (content : Bytes) : ErrsClean answers inv (writeAll path content) fun _ => True :=
  (errsClean_openWriter h path).bind fun writer _ =>
    (errsClean_about h hpath (writeOnce writer content)).bind fun _ _ =>
      errsClean_about h hpath (shutdown writer)

/-! ### Making and deleting -/

theorem errsClean_createNode (h : ShowsNames answers inv) (n : Node) :
    ErrsClean answers inv (createNode n) fun _ => True :=
  have hpath := clean_clean n.path
  keepsOr_createNode (fun _ => trivial) (errsClean_statNode h hpath)
    (fun _ hclean => ⟨hclean, fun _ => trivial⟩) (fun _ => errsClean_about h hpath _)
    fun _ => errsClean_about h hpath _

theorem errsClean_deleteNode (h : ShowsNames answers inv) (path : String) :
    ErrsClean answers inv (deleteNode path) fun _ => True :=
  keepsOr_deleteNode (fun _ => trivial) (.of_program (h.keeps _))
    fun _ => SyncError.namesClean_ofStorage_iff.mpr (clean_clean path)

/-! ### Moving -/

theorem errsClean_ensureParent (h : ShowsNames answers inv) (hpath : clean path = path) :
    ErrsClean answers inv (ensureParent path) fun _ => True :=
  keepsOr_ensureParent fun _ hparent => errsClean_about h (clean_of_parent hpath hparent) _

theorem clean_join_of_isName {name : String} (hpath : clean path = path)
    (hname : IsName (encode name)) :
    clean (CanonicalPath.join path name) = CanonicalPath.join path name := by
  obtain ⟨hsegment, hdot, -⟩ := (isName_encode_iff name).mp hname
  exact clean_join_of_isSegment hpath hsegment hdot

/-- What is listed on the way is spelled clean. -/
theorem listsOnly_clean (h : ShowsNames answers inv) :
    ListsOnly answers inv SyncError.NamesClean fun b => clean b.1 = b.1 :=
  fun _ hpath => (ErrsClean.about hpath (h.keeps_readDir _)).mono fun _ hentries entry hentry =>
    clean_join_of_isName hpath (hentries entry hentry)

theorem errsClean_moveBranch (h : ShowsNames answers inv) {source target : String} {b : Branch}
    (hb : clean b.1 = b.1) : ErrsClean answers inv (moveBranch source target b) fun _ => True := by
  obtain ⟨current, isDir⟩ := b
  unfold moveBranch
  dsimp only
  split
  · exact .throw trivial
  · next moved hmoved =>
    have hclean : clean moved = moved := clean_of_rebase hb hmoved
    split
    · exact (errsClean_about h hclean _).bind fun _ _ => errsClean_about h hb _
    · exact (errsClean_ensureParent h hclean).bind fun _ _ => errsClean_about h hb _

theorem errsClean_moveNode (h : ShowsNames answers inv) (e : Endpoint) (source target : String) :
    ErrsClean answers inv (moveNode e source target) fun _ => True := by
  have hsource := clean_clean source
  refine keepsOr_moveNode (fun _ => trivial) (errsClean_statNode h hsource)
    (errsClean_ensureParent h (clean_clean target)) (fun _ => ?_) fun _ => errsClean_about h hsource _
  exact (listsOnly_clean h).keepsOr_moveRecursively (h.keeps depthBound) hsource
    fun _ => errsClean_moveBranch h

/-! ### Walking -/

/-- The errors in visits name clean paths. -/
def VisitsClean (visits : List Visit) : Prop :=
  ∀ v ∈ visits, ErrorClean v.node

/-- What is known of a path before it is visited is under a clean path. -/
def Found.IsClean (found : Found) : Prop :=
  clean found.path = found.path ∧ ∀ x, found.metadata = .error x → x.NamesClean

theorem isClean_of_foundIn? {e : Endpoint} {entry : Listed} {found : Found}
    (hpath : clean path = path) (hname : IsName (encode entry.name))
    (hfound : e.foundIn? path entry = some found) : found.IsClean := by
  obtain ⟨hsegment, hdot, -⟩ := (isName_encode_iff entry.name).mp hname
  have hnames : CanonicalPath.names entry.name ≠ [] := by
    rw [CanonicalPath.names, CanonicalPath.segments_of_isSegment hsegment]
    simp [hdot]
  have htidy : CanonicalPath.IsTidy path := hpath ▸ CanonicalPath.isTidy_clean path
  have hclean := htidy.clean_join hnames
  rw [← Platform.toCanonical_eq_clean entry.name] at hclean
  unfold foundIn? at hfound
  dsimp only at hfound
  split at hfound <;> split at hfound <;> cases hfound
  · refine ⟨hclean, fun x hx => ?_⟩
    cases hx
  · refine ⟨hclean, fun x hx => ?_⟩
    rw [← Except.error.inj hx]
    exact SyncError.namesClean_ofStorage_iff.mpr hclean

theorem keeps_visitNode_clean (h : ShowsNames answers inv) (hpath : clean path = path)
    (md : Metadata) : (visitNode path md).Keeps answers inv VisitsClean := by
  unfold visitNode
  split
  · exact .pure (List.forall_mem_nil _)
  · refine Program.Keeps.bind (errsClean_identify h hpath _) fun res hres => .pure ?_
    refine List.forall_mem_singleton.mpr ?_
    cases res with
    | ok n => trivial
    | error x => exact hres

theorem visitsOnly_clean (h : ShowsNames answers inv) (e : Endpoint) :
    VisitsOnly answers inv e Found.IsClean fun v => ErrorClean v.node where
  unseen path x hfound := hfound.2 x rfl
  own path md hfound := keeps_visitNode_clean h hfound.1 md
  listed path md hfound := by
    refine Program.Keeps.mono (h.keeps_readDir _) fun res hres => hres.mono (fun x _ => ?_) ?_
    · exact SyncError.namesClean_ofStorage_iff.mpr hfound.1
    · exact fun entries hentries entry hentry child hchild =>
        isClean_of_foundIn? hfound.1 (hentries entry hentry) hchild

theorem keeps_walk_clean (h : ShowsNames answers inv) (e : Endpoint) (starts : List String) :
    (walk e starts).Keeps answers inv VisitsClean := by
  refine (visitsOnly_clean h e).keeps_walk (h.keeps depthBound) fun start _ => ?_
  have hstart := clean_clean start
  refine Program.Keeps.mono (errsClean_statNode h hstart) fun res hres => ⟨hstart, ?_⟩
  rintro x rfl
  exact hres

end Parts

/-! ## Operations -/

/-- What can be asked of an endpoint: to do something with its tree, or to open a leaf. -/
inductive Operation where
  | serve (request : Request)
  | openReader (path : String)
  | openWriter (path : String)

namespace Operation

/-- What an operation comes to. -/
def Result : Operation → Type
  | serve request => request.Answer
  | openReader _ => Except SyncError Bytes
  | openWriter _ => Except SyncError Key

def program (e : Endpoint) : (op : Operation) → Program Bytes Key op.Result
  | serve request => request.serve e
  | openReader path => (Endpoint.openReader path).run
  | openWriter path => (Endpoint.openWriter path).run

/-- All the errors in what an operation comes to name clean paths. -/
def NamesClean : (op : Operation) → op.Result → Prop
  | serve (.walk _), visits => VisitsClean visits
  | serve (.load _ _), res | serve (.read _), res => ErrorClean res
  | serve (.create _), res | serve (.update _), res | serve (.delete _), res
  | serve (.move _ _), res | serve (.write _ _), res => ErrorClean res
  | openReader _, res => ErrorClean res
  | openWriter _, res => ErrorClean res

/-- Where a path is named as it was given, it was given clean, or nothing is ever opened there. -/
def IsSpelledOut : Operation → Prop
  | serve (.read path) | serve (.write path _) => clean path = path ∨ key path = []
  | _ => True

end Operation

section Root

variable {w : World Memory} {path : String}

/-- The root is not opened for reading. -/
theorem ensures_openReader_root (h : w.storage.WellFormed) (hkey : key path = []) :
    Ensures (unreliable Memory.backend .all) w (openReader path) (fun _ _ => False)
      fun x _ => x.NamesClean := by
  have hclean : ∀ x, (SyncError.ofStorage (clean path) x).NamesClean := fun _ =>
    SyncError.namesClean_ofStorage_iff.mpr (clean_clean path)
  rw [openReader, ensures_about_iff]
  rintro reply s (hdone | ⟨x, -, rfl, -⟩)
  · obtain ⟨t, hroot⟩ := h.root
    have hfails : w.storage.openRead (key path) = .error (Memory.isADirectory (key path)) := by
      rw [hkey, Memory.openRead, hroot]
    rw [Memory.backend, keyOf_nativePath, ← key, hfails] at hdone
    cases hdone
    exact hclean (Memory.isADirectory (key path))
  · exact hclean x

/-- The root is not opened for writing, and no file is made in its place. -/
theorem ensures_openWriter_root (h : w.storage.WellFormed) (hkey : key path = []) :
    Ensures (unreliable Memory.backend .all) w (openWriter path) (fun _ _ => False)
      fun x _ => x.NamesClean := by
  have hclean : ∀ x, (SyncError.ofStorage (clean path) x).NamesClean := fun _ =>
    SyncError.namesClean_ofStorage_iff.mpr (clean_clean path)
  obtain ⟨t, hroot⟩ := h.root
  rw [openWriter, Ensures.bind_iff, Ensures.lift_run_iff, statNode, ensures_about_iff]
  refine ensures_stat (fun entry hget => ?_) (fun hget => ?_) fun _ x => ?_
  · rw [← key, hkey, hroot] at hget
    cases hget
    exact trivial
  · rw [← key, hkey, hroot] at hget
    cases hget
  · -- A refusal may look like a missing root.
    dsimp only
    split
    · rw [ensures_about_iff]
      rintro reply s (hdone | ⟨y, -, rfl, -⟩)
      · have hfails : w.storage.create (key path) = .error Memory.rootHasNoParent := by
          rw [hkey]
          rfl
        rw [Memory.backend, keyOf_nativePath, ← key, hfails] at hdone
        cases hdone
        exact hclean Memory.rootHasNoParent
      · exact hclean y
    · exact hclean x

/-- What is done in an open file names the path as it was given; so it was given clean, or what is
there cannot be opened. -/
theorem clean_of_runs_opened {α β : Type} {opening : Attempt Bytes Key SyncError α}
    {use : α → Attempt Bytes Key SyncError β} (h : w.storage.WellFormed)
    (hpath : clean path = path ∨ key path = [])
    (hclean : clean path = path → ErrsClean (unreliable Memory.backend .all) Memory.Named
      (opening >>= use) fun _ => True)
    (hroot : key path = [] → Ensures (unreliable Memory.backend .all) w opening (fun _ _ => False)
      fun x _ => x.NamesClean)
    {res : Except SyncError β} {w' : World Memory}
    (hruns : (opening >>= use).run.Runs (unreliable Memory.backend .all) w res w') :
    ErrorClean res := by
  rcases hpath with hspelled | hkey
  · exact ((hclean hspelled).of_runs h.named hruns).2
  · have hfails : Ensures (unreliable Memory.backend .all) w (opening >>= use) (fun _ _ => True)
        fun x _ => x.NamesClean :=
      Ensures.bind_iff.mpr ((hroot hkey).mono (fun _ _ hnever => hnever.elim) fun _ _ hx => hx)
    cases res with
    | ok b => trivial
    | error x => exact hfails.of_runs_error hruns

end Root

/-! ## Streams that fail -/

def denied : IoError :=
  ⟨.other, "denied"⟩

/-- The storage in memory, in which files can be opened, but then neither read nor written. -/
def brokenStreams : Backend Memory Bytes Key
  | .read _ _, m => (.error denied, m)
  | .write writer _, m => ((.error denied, writer), m)
  | .shutdown _, m => (.error denied, m)
  | c, m => Memory.backend c m

theorem runs_brokenStreams {α : Type} (p : Program Bytes Key α) (w : World Memory) :
    p.Runs (unreliable Memory.backend .all) w (p.run brokenStreams w).1 (p.run brokenStreams w).2 := by
  refine p.runs_run_of_answers (fun c m => ?_) w
  cases c with
  | read reader n => exact Or.inr ⟨denied, trivial, rfl, rfl⟩
  | write writer data => exact Or.inr ⟨denied, trivial, rfl, Or.inl ⟨rfl, rfl⟩⟩
  | shutdown writer => exact Or.inr ⟨denied, trivial, rfl, rfl⟩
  | _ => exact unreliable_backend Memory.backend .all _ m

section BrokenStreams

variable {m : Memory} {path : String} {data : Bytes} {t : Timestamp} {n : Nat}

theorem run_readAll_brokenStreams (hget : m.get? (key path) = some (.file data t)) :
    ((readAll path).run.run brokenStreams ⟨m, n⟩).1 = .error (.storage path denied) := by
  have hopen : (openReader path : Attempt Bytes Key SyncError Bytes).run.run brokenStreams ⟨m, n⟩ =
      (.ok data, ⟨m, n⟩) := by
    have hcall : (openRead (nativePath (clean path)) : Attempt Bytes Key IoError Bytes).run.run
        brokenStreams ⟨m, n⟩ = (m.openRead (key path), ⟨m, n⟩) := by
      rw [key, ← keyOf_nativePath]
      rfl
    rw [openReader, about, Attempt.run_withError, hcall, Memory.openRead, hget]
    rfl
  rw [readAll, Attempt.run_bind, hopen]
  rfl

theorem run_writeAll_brokenStreams (hget : m.get? (key path) = some (.file data t)) (content : Bytes) :
    ((writeAll path content).run.run brokenStreams ⟨m, n⟩).1 = .error (.storage path denied) := by
  have hopen : ∃ m', (openWriter path : Attempt Bytes Key SyncError Key).run.run brokenStreams ⟨m, n⟩ =
      (.ok (key path), ⟨m', n⟩) := by
    have hstat : (statNode (clean path) : Attempt Bytes Key SyncError Metadata).run.run brokenStreams
        ⟨m, n⟩ = (.ok (Entry.file data t).metadata, ⟨m, n⟩) :=
      run_statNode (fun _ _ => rfl) hget
    have hcall : (openWrite (nativePath (clean path)) : Attempt Bytes Key IoError Key).run.run
        brokenStreams ⟨m, n⟩ = (.ok (key path), ⟨m.stamp (key path) (.file []), n⟩) := by
      have hempty : m.openWrite (key path) = .ok (m.stamp (key path) (.file [])) := by
        rw [Memory.openWrite, hget]
      have hreply : brokenStreams (.openWrite (nativePath (clean path))) m =
          m.change (keyOf (nativePath (clean path)))
            (m.openWrite (keyOf (nativePath (clean path)))) := rfl
      rw [keyOf_nativePath, ← key, hempty] at hreply
      simp only [openWrite, ExceptT.run, Program.run, hreply, Memory.change]
    refine ⟨m.stamp (key path) (.file []), ?_⟩
    rw [openWriter, Attempt.run_bind, Attempt.run_lift, hstat]
    dsimp only
    rw [if_neg (by simp [Entry.metadata])]
    rw [about, Attempt.run_withError, hcall]
    rfl
  obtain ⟨m', hopen⟩ := hopen
  rw [writeAll, Attempt.run_bind, hopen]
  dsimp only
  -- Without content nothing is written, and it is the end of it that fails.
  cases content <;> rfl

end BrokenStreams

/-- There is a tree with a file at any path, but for the root. -/
theorem exists_file_at {path : String} (h : key path ≠ []) :
    ∃ m : Memory, m.WellFormed ∧ ∃ data t, m.get? (key path) = some (.file data t) := by
  obtain ⟨above, name, hkey⟩ := (List.eq_nil_or_concat' (key path)).resolve_left h
  have hnames : ∀ n ∈ above ++ [name], IsName n ∧ ∃ text : String, n = encode text := by
    rw [← hkey]
    exact fun n => of_mem_keyAt
  obtain ⟨m, hm, -, entry, hget, hfile⟩ := exists_tree hnames false
  cases entry with
  | dir t => cases hfile
  | file data t => exact ⟨m, hm, data, t, hkey ▸ hget⟩

section Errors

-- Paths count by what is known of their spelling; to compute them is of no use here.
attribute [local irreducible] CanonicalPath.segments clean

/-- Whatever calls fail on whatever tree, the errors of an operation name clean paths, exactly if
`readAll` and `writeAll` are not given another spelling of a path that can be opened. -/
theorem errors_name_clean_iff (e : Endpoint) (op : Operation) :
    (∀ (w w' : World Memory) (res : op.Result), w.storage.WellFormed →
      (op.program e).Runs (unreliable Memory.backend .all) w res w' → op.NamesClean res) ↔
      op.IsSpelledOut := by
  have hshows := Memory.showsNames .all
  constructor
  · intro hall
    -- What is opened under another spelling fails under it.
    have hspelled {path : String} (hfails : ∀ m : Memory, m.WellFormed → ∀ data t,
        m.get? (key path) = some (.file data t) → (SyncError.storage path denied).NamesClean) :
        clean path = path ∨ key path = [] := by
      by_cases hkey : key path = []
      · exact Or.inr hkey
      · obtain ⟨m, hm, data, t, hget⟩ := exists_file_at hkey
        exact Or.inl (hfails m hm data t hget)
    cases op with
    | serve request =>
      cases request with
      | read path =>
        refine hspelled fun m hm data t hget => ?_
        have hclean := hall _ _ _ hm (runs_brokenStreams _ ⟨m, 0⟩)
        change ErrorClean ((readAll path).run.run brokenStreams ⟨m, 0⟩).1 at hclean
        rw [run_readAll_brokenStreams hget] at hclean
        exact hclean
      | write path content =>
        refine hspelled fun m hm data t hget => ?_
        have hclean := hall _ _ _ hm (runs_brokenStreams _ ⟨m, 0⟩)
        change ErrorClean ((writeAll path content).run.run brokenStreams ⟨m, 0⟩).1 at hclean
        rw [run_writeAll_brokenStreams hget] at hclean
        exact hclean
      | _ => trivial
    | _ => trivial
  · intro hspelled w w' res h hruns
    cases op with
    | openReader path => exact ((errsClean_openReader hshows path).of_runs h.named hruns).2
    | openWriter path => exact ((errsClean_openWriter hshows path).of_runs h.named hruns).2
    | serve request =>
      cases request with
      | load path knownLeaf => exact ((errsClean_loadNode hshows path knownLeaf).of_runs h.named hruns).2
      | walk starts => exact ((keeps_walk_clean hshows e starts).of_runs h.named hruns).2
      | create n => exact ((errsClean_createNode hshows n).of_runs h.named hruns).2
      | update n => exact ((errsClean_createNode hshows n).of_runs h.named hruns).2
      | delete path => exact ((errsClean_deleteNode hshows path).of_runs h.named hruns).2
      | move source target =>
        exact ((errsClean_moveNode hshows e source target).of_runs h.named hruns).2
      | read path =>
        exact clean_of_runs_opened h hspelled (errsClean_readAll hshows ·)
          (ensures_openReader_root h) hruns
      | write path content =>
        exact clean_of_runs_opened h hspelled (errsClean_writeAll hshows · content)
          (ensures_openWriter_root h) hruns

end Errors

/-- An empty file that cannot be finished, under a path without a separator in front. -/
theorem errors_name_given_path :
    let op := Operation.serve (.write "f" [])
    let after := (op.program inMemory).run brokenStreams ⟨Memory.empty ⟨0, 0⟩, 0⟩
    (Memory.empty ⟨0, 0⟩).WellFormed ∧
      (op.program inMemory).Runs (unreliable Memory.backend .all) ⟨Memory.empty ⟨0, 0⟩, 0⟩ after.1
        after.2 ∧
      ¬ op.NamesClean after.1 := by
  refine ⟨Memory.wellFormed_empty _, runs_brokenStreams _ _, ?_⟩
  have hres : ((writeAll "f" []).run.run brokenStreams ⟨Memory.empty ⟨0, 0⟩, 0⟩).1 =
      .error (.storage "f" denied) := rfl
  have hspelling : clean "f" ≠ "f" := by decide
  intro hclean
  change ErrorClean ((writeAll "f" []).run.run brokenStreams ⟨Memory.empty ⟨0, 0⟩, 0⟩).1 at hclean
  rw [hres] at hclean
  exact hspelling hclean

end Endpoint

end SyncEndpoint
