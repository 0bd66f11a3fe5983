import SyncEndpoint.Endpoint.Basic

set_option autoImplicit false

/-! # Changing the tree

Making, deleting and moving nodes. Where the storage cannot move a directory as a whole, it is
moved entry by entry, the deepest first; what a failure leaves behind can be moved by moving
again. -/

namespace SyncEndpoint.Endpoint

open Storage

variable {R W : Type}

/-! ## Making and deleting -/

/-- Makes a collection, with all that is missing above it, and gives it the identifier that is
asked for. One that is there stays as it is. -/
def createNode (n : Node) : Attempt R W SyncError Unit := do
  if n.isLeaf then
    throw (.invalidInput (n.path ++ " is a leaf; leaves are written through get_writer_on"))
  let canonical := CanonicalPath.clean n.path
  match ← ExceptT.lift (statNode canonical).run with
  | .ok md =>
    if md.isDir then pure ()
    else throw (.invalidInput (canonical ++ " exists and is not a collection"))
  | .error x =>
    if x.isNotFound then
      let native := nativePath canonical
      about canonical (createDirAll native)
      if n.identifier.isEmpty then pure ()
      else about canonical (Identity.writeMarker native n.identifier)
    else throw x

/-- Makes sure that a collection is there. -/
def updateNode (n : Node) : Attempt R W SyncError Unit :=
  createNode n

/-- Deletes a node with everything below it. Nothing is wrong with one that is missing. -/
def deleteNode (path : String) : Attempt R W SyncError Unit := do
  let canonical := CanonicalPath.clean path
  if CanonicalPath.isRoot canonical then throw (.invalidInput "cannot delete the endpoint root")
  match ← ExceptT.lift (removeAll (nativePath canonical)).run with
  | .ok () => pure ()
  | .error x => if x.kind = .notFound then pure () else throw (SyncError.ofStorage canonical x)

/-! ## Moving -/

/-- Makes the collection that a path lies in. -/
def ensureParent (canonical : String) : Attempt R W SyncError Unit :=
  match CanonicalPath.parent canonical with
  | some parent => about parent (createDirAll (nativePath parent))
  | none => pure ()

/-- A path of a subtree, and whether it is that of a directory. -/
abbrev Branch := String × Bool

/-- A path and all below it, parents before what is in them, at most `depth` levels down. What
cannot be looked at counts as a single entry. -/
def subtreeFrom : Nat → Branch → Attempt R W SyncError (List Branch)
  | 0, _ => pure []
  | _ + 1, (path, false) => pure [(path, false)]
  | depth + 1, (path, true) => do
    let entries ← about path (readDir (nativePath path))
    let below ← (entries.map fun entry =>
      (CanonicalPath.join path entry.name, entry.isDir)).mapM (subtreeFrom depth)
    pure ((path, true) :: below.flatten)

/-- A directory and all below it. -/
def subtree (canonical : String) : Attempt R W SyncError (List Branch) := do
  let depth ← ExceptT.lift depthBound
  subtreeFrom (depth + 2) (canonical, true)

/-- The order in which a subtree is moved: the deepest paths first. -/
def moveOrder (branches : List Branch) : List Branch :=
  branches.reverse.mergeSort fun a b =>
    decide (CanonicalPath.depth b.1 ≤ CanonicalPath.depth a.1)

/-- Moves one entry of a subtree. A directory, which is empty by then, is made anew. -/
def moveBranch (source target : String) (branch : Branch) : Attempt R W SyncError Unit := do
  let (current, isDir) := branch
  match CanonicalPath.rebase current source target with
  | none => throw (.invalidInput (current ++ " is not under " ++ source))
  | some moved =>
    if isDir then
      about moved (createDirAll (nativePath moved))
      about current (removeAll (nativePath current))
    else
      ensureParent moved
      about current (rename (nativePath current) (nativePath moved))

/-- Moves a list of entries, one after the other. -/
def moveBranches (source target : String) : List Branch → Attempt R W SyncError Unit
  | [] => pure ()
  | b :: bs => do
    moveBranch source target b
    moveBranches source target bs

/-- Moves a directory entry by entry. -/
def moveRecursively (source target : String) : Attempt R W SyncError Unit := do
  let branches ← subtree source
  moveBranches source target (moveOrder branches)

/-- Moves a node with everything below it. Nothing is wrong with one that is missing. -/
def moveNode (e : Endpoint) (source target : String) : Attempt R W SyncError Unit := do
  let source := CanonicalPath.clean source
  let target := CanonicalPath.clean target
  if CanonicalPath.isRoot source || CanonicalPath.isRoot target then
    throw (.invalidInput "cannot move the endpoint root")
  if source = target then pure ()
  else if CanonicalPath.startsWith target source then
    throw (.invalidInput ("cannot move " ++ source ++ " into itself"))
  else
    match ← ExceptT.lift (statNode source).run with
    | .error x => if x.isNotFound then pure () else throw x
    | .ok md =>
      ensureParent target
      if md.isDir && !e.capabilities.atomicRename then moveRecursively source target
      else about source (rename (nativePath source) (nativePath target))

end SyncEndpoint.Endpoint
