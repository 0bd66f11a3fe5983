import SyncEndpoint.Identity.Marker
import SyncEndpoint.Node
import SyncEndpoint.Path.Canonical
import SyncEndpoint.Path.Platform

set_option autoImplicit false

/-! # Endpoints

A tree of nodes over a storage. All paths that an endpoint takes and gives are canonical; what it
does is a program over its storage. -/

namespace SyncEndpoint

open Storage

/-- A pattern that cannot be read, as an error of an endpoint. -/
def IgnoreList.BadPattern.toSyncError (b : IgnoreList.BadPattern) : SyncError :=
  .config ("Invalid ignore pattern '" ++ b.line ++ "': " ++ b.error.message)

/-- An endpoint: what it knows besides its storage. -/
structure Endpoint where
  /-- The directory that it exposes. -/
  root : NativePath
  capabilities : Capabilities
  /-- The directory on disk behind the storage, if there is one. -/
  physicalRoot : Option NativePath
  ignored : IgnoreList
  /-- The capacities of the buffer and of the sessions of its watches. -/
  bufferCapacity : UInt64
  eventChannelCapacity : UInt64

namespace Endpoint

variable {R W : Type}

def nativePath (canonical : String) : NativePath :=
  NativePath.ofString (Platform.native.toNative canonical)

/-- An error of the storage on a node, as an error of the endpoint. -/
def about {α : Type} (canonical : String) (x : Attempt R W IoError α) : Attempt R W SyncError α :=
  withError (SyncError.ofStorage canonical) x

def rootNotDirectory : IoError :=
  ⟨.notADirectory, "root is not a directory"⟩

/-- Opens an endpoint on a storage whose root is a directory. -/
def withStorage (root : NativePath) (capabilities : Capabilities)
    (physicalRoot : Option NativePath) (patterns : List String)
    (bufferCapacity eventChannelCapacity : UInt64) : Attempt R W SyncError Endpoint := do
  let md ← withError (SyncError.unreachable root) (stat (nativePath CanonicalPath.root))
  if !md.isDir then throw (.unreachable root rootNotDirectory)
  match IgnoreList.ofLines patterns with
  | .error bad => throw bad.toSyncError
  | .ok ignored =>
    pure ⟨root, capabilities, physicalRoot, ignored, bufferCapacity, eventChannelCapacity⟩

/-- What an endpoint says of itself. -/
def info : EndpointInfo :=
  ⟨true, Platform.native.decomposed⟩

/-! ## Loading nodes -/

/-- Looks at a node. -/
def statNode (canonical : String) : Attempt R W SyncError Metadata :=
  about canonical (stat (nativePath canonical))

/-- The identity of a node that is known to be a leaf or not to be one. -/
def identify (canonical : String) (isLeaf : Bool) : Attempt R W SyncError Node :=
  if isLeaf then
    Node.leaf canonical <$> about canonical (Identity.contentHash (nativePath canonical))
  else
    Node.collection canonical <$> about canonical (Identity.folderId (nativePath canonical))

/-- A node with what its storage says of it. -/
def withStat (md : Metadata) (n : Node) : Node :=
  n.withMetadata md.length md.modified md.mode

/-- The node at a path. If it is known to be a leaf or not to be one, nothing else is found out. -/
def loadNode (path : String) (knownLeaf : Option Bool) : Attempt R W SyncError Node := do
  let canonical := CanonicalPath.clean path
  match knownLeaf with
  | some isLeaf => identify canonical isLeaf
  | none =>
    let md ← statNode canonical
    withStat md <$> identify canonical (!md.isDir)

/-! ## Content -/

/-- Opens a leaf for reading. -/
def openReader (path : String) : Attempt R W SyncError R :=
  let canonical := CanonicalPath.clean path
  about canonical (openRead (nativePath canonical))

/-- Opens a leaf for writing. It is made if it is missing, and emptied if not. -/
def openWriter (path : String) : Attempt R W SyncError W := do
  let canonical := CanonicalPath.clean path
  let native := nativePath canonical
  match ← ExceptT.lift (statNode canonical).run with
  | .ok md =>
    if md.isDir then throw (.invalidInput (canonical ++ " is a collection"))
    about canonical (openWrite native)
  | .error e => if e.isNotFound then about canonical (create native) else throw e

/-- The content of a leaf. -/
def readAll (path : String) : Attempt R W SyncError Bytes := do
  let reader ← openReader path
  about path (readToEnd reader)

/-- Replaces the content of a leaf, which is made if it is missing. -/
def writeAll (path : String) (content : Bytes) : Attempt R W SyncError Unit := do
  let writer ← openWriter path
  about path (writeOnce writer content)
  about path (shutdown writer)

end Endpoint

end SyncEndpoint
