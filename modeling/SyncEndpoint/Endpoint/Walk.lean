import SyncEndpoint.Endpoint.Basic

set_option autoImplicit false

/-! # Walks

A walk visits nodes, parents before what is in them, and what is in a collection in the order of
the names. A node that cannot be looked at is visited with its error, and the walk goes on. -/

namespace SyncEndpoint.Endpoint

open Storage

variable {R W : Type}

/-- What a walk has to say of a path. -/
structure Visit where
  path : String
  node : Except SyncError Node

/-- What is known of a path before it is visited. -/
structure Found where
  path : String
  metadata : Except SyncError Metadata

/-- What a listed entry of a collection is, unless it is ignored. An entry that cannot be looked at
is ignored if it would be as a leaf or as a collection. -/
def foundIn? (e : Endpoint) (parent : String) (entry : Listed) : Option Found :=
  let path := CanonicalPath.join parent (Platform.native.toCanonical entry.name)
  match entry.metadata with
  | .ok md => if e.ignored.isIgnored path md.isDir then none else some ⟨path, .ok md⟩
  | .error x =>
    if e.ignored.isIgnoredAny path then none else some ⟨path, .error (SyncError.ofStorage path x)⟩

/-- The visit of a node itself; the root is not visited. -/
def visitNode (path : String) (md : Metadata) : Program R W (List Visit) :=
  if CanonicalPath.isRoot path then pure []
  else do
    let node ← (identify path (!md.isDir)).run
    pure [⟨path, node.map (withStat md)⟩]

/-- The visits of a path and of everything below it, at most `depth` levels down. -/
def walkFrom (e : Endpoint) : Nat → Found → Program R W (List Visit)
  | 0, _ => pure []
  | depth + 1, ⟨path, metadata⟩ =>
    match metadata with
    | .error x => pure [⟨path, .error x⟩]
    | .ok md => do
      let own ← visitNode path md
      if md.isDir then
        match ← (readDir (nativePath path)).run with
        | .error x => pure (own ++ [⟨path, .error (SyncError.ofStorage path x)⟩])
        | .ok entries =>
          let below ← (entries.filterMap (e.foundIn? path)).mapM (walkFrom e depth)
          pure (own ++ below.flatten)
      else pure own

/-- The visits of a path and of everything below it. -/
def walkTree (e : Endpoint) (start : String) : Program R W (List Visit) := do
  let path := CanonicalPath.clean start
  let metadata ← (statNode path).run
  let depth ← depthBound
  walkFrom e (depth + 2) ⟨path, metadata⟩

/-- The visits of the given paths and of everything below them, one after the other; without a
path, of everything. -/
def walk (e : Endpoint) (starts : List String) : Program R W (List Visit) := do
  let starts := if starts.isEmpty then [CanonicalPath.root] else starts
  let visits ← starts.mapM (walkTree e)
  pure visits.flatten

end SyncEndpoint.Endpoint
