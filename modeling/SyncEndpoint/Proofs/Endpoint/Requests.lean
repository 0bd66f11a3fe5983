import SyncEndpoint.Proofs.Endpoint.Footprint

set_option autoImplicit false

/-! # Requests

All that an endpoint does with its tree, as requests with their answers. Each has a region of the
tree that it keeps to, on success and wherever it fails. -/

namespace SyncEndpoint.Endpoint

open CanonicalPath (clean)
open Storage
open Text.Utf8

/-- What an endpoint can be asked to do with its tree. -/
inductive Request where
  | load (path : String) (knownLeaf : Option Bool)
  | walk (starts : List String)
  | create (n : Node)
  | update (n : Node)
  | delete (path : String)
  | move (source target : String)
  | read (path : String)
  | write (path : String) (content : Bytes)

/-- Where making a collection changes a tree: what is missing on the way to it, and its marker. -/
def ofCollection (path : String) : Region :=
  { made := (· <+: key path), written := (· = markerKey (clean path)) }

/-- Where a move changes a tree: the source and the target with all below them, and what is missing
above the target. -/
def ofMove (source target : String) : Region :=
  { free := fun k => key source <+: k ∨ key target <+: k, made := (· <+: key target) }

namespace Request

/-- What a request is answered with. -/
def Answer : Request → Type
  | load _ _ => Except SyncError Node
  | walk _ => List Visit
  | read _ => Except SyncError Bytes
  | create _ | update _ | delete _ | move _ _ | write _ _ => Except SyncError Unit

/-- What is done for a request. -/
def serve (e : Endpoint) : (request : Request) → Program Bytes Key request.Answer
  | load path knownLeaf => (loadNode path knownLeaf).run
  | walk starts => Endpoint.walk e starts
  | create n => (createNode n).run
  | update n => (updateNode n).run
  | delete path => (deleteNode path).run
  | move source target => (moveNode e source target).run
  | read path => (readAll path).run
  | write path content => (writeAll path content).run

/-- The paths that a request names. -/
def paths : Request → List String
  | load path _ | delete path | read path | write path _ => [path]
  | walk starts => starts
  | create n | update n => [n.path]
  | move source target => [source, target]

/-- Where the tree may change for a request that is answered so: at what it names and below, at what
is missing above a node that is made or moved, and at the markers of what is loaded or visited. -/
def region : (request : Request) → request.Answer → Region
  | load path _, _ => .file (markerKey (clean path))
  | walk _, visits => markersOf visits
  | create n, _ | update n, _ => ofCollection n.path
  | delete path, _ => { free := (key path <+: ·) }
  | move source target, _ => ofMove source target
  | read _, _ => .nowhere
  | write path _, _ => .file (key path)

end Request

section Serve

-- Paths count by what is known of their segments; to compute these is of no use here.
attribute [local irreducible] CanonicalPath.segments clean

/-- Whatever calls fail, before they take effect or in the middle of a write, a request leaves a tree
in which nothing has changed but what lies in its region. -/
theorem serve_changes_only (e : Endpoint) {request : Request}
    (hpaths : ∀ path ∈ request.paths, NoDotDot path) {w w' : World Memory}
    (h : w.storage.WellFormed) (ht : w.storage.Textual) {answer : request.Answer}
    (hruns : (request.serve e).Runs (unreliable Memory.backend .all) w answer w') :
    w.storage.ChangedIn (request.region answer) w'.storage := by
  cases request with
  | load path knownLeaf => exact (staysIn_loadNode rfl).of_runs h ht hruns
  | walk starts => exact ((marksVisited_walk e starts w h ht).of_runs hruns).2
  | create n | update n =>
    have hstays : StaysIn (ofCollection n.path) w.storage (createNode n) fun _ => True :=
      staysIn_createNode (fun _ => id) rfl
    exact hstays.of_runs h ht hruns
  | delete path => exact (staysIn_deleteNode (fun _ => id)).of_runs h ht hruns
  | move source target =>
    have hsource := hpaths source (by simp [Request.paths])
    have htarget := hpaths target (by simp [Request.paths])
    have hcovers : CoversMove (ofMove source target) (key source) (key target) :=
      ⟨fun _ => Or.inl, fun _ => Or.inr, fun _ => id⟩
    exact (staysIn_moveNode hsource htarget hcovers).of_runs h ht hruns
  | read path => exact StaysIn.of_runs keeps_readAll h ht hruns
  | write path content => exact (staysIn_writeAll rfl).of_runs h ht hruns

end Serve

/-- The storage in memory, in which each write finds room for one byte only. -/
def almostFull : Backend Memory Bytes Key
  | .write writer data, m =>
    let (written, m') := Memory.backend (.write writer (data.take 1)) m
    ((.error ⟨.storageFull, "no space left"⟩, written.2), m')
  | c, m => Memory.backend c m

theorem runs_almostFull {α : Type} (p : Program Bytes Key α) (w : World Memory) :
    p.Runs (unreliable Memory.backend .all) w (p.run almostFull w).1 (p.run almostFull w).2 := by
  refine p.runs_run_of_answers (fun c m => ?_) w
  cases c with
  | write writer data => exact Or.inr ⟨_, trivial, rfl, Or.inr ⟨1, _, rfl⟩⟩
  | _ => exact unreliable_backend Memory.backend .all _ m

theorem key_a_f : key "/a/f" = [encode "a", encode "f"] := by
  rw [key_eq]
  decide

/-- A file of which the first byte is replaced only. -/
theorem serve_changes_only_almostFull :
    let request := Request.write "/a/f" (encode "yz")
    let after := (request.serve inMemory).run almostFull ⟨oneFile, 0⟩
    oneFile.ChangedIn (request.region after.1) after.2.storage ∧
      after.2.storage.get? (key "/a/f") = some (.file (encode "y") ⟨3, 0⟩) := by
  refine ⟨?_, ?_⟩
  · exact serve_changes_only inMemory (by decide) oneFile_wellFormed oneFile_textual
      (runs_almostFull _ _)
  · rw [Request.serve, key_a_f]
    rfl

end SyncEndpoint.Endpoint
