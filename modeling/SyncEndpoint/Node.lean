import SyncEndpoint.Json.Record
import SyncEndpoint.Time.Reader

set_option autoImplicit false

/-! # Nodes

What an endpoint says of one place in its tree: a leaf is identified by the digest of its content,
a collection by the identifier that its marker file holds. A node has a JSON form, and
`Node.ofJson?` reads it back. -/

namespace SyncEndpoint

/-- Whether a node has content or other nodes. -/
inductive NodeType where
  | leaf
  | collection
  deriving DecidableEq

namespace NodeType

def name : NodeType → String
  | .leaf => "leaf"
  | .collection => "collection"

def ofName? : String → Option NodeType
  | "leaf" => some .leaf
  | "collection" => some .collection
  | _ => none

end NodeType

/-- A file or directory at a canonical path. -/
structure Node where
  path : String
  nodeType : NodeType
  identifier : String
  contentSignature : Option String
  mtime : Option Timestamp
  size : Option UInt64
  mode : Option UInt32
  deriving DecidableEq

namespace Node

/-- A leaf, identified by the digest of its content. -/
def leaf (path digest : String) : Node :=
  ⟨path, .leaf, digest, some digest, none, none, none⟩

/-- A collection. An empty identifier asks for none to be stored. -/
def collection (path identifier : String) : Node :=
  ⟨path, .collection, identifier, none, none, none, none⟩

/-- A node with what a stat call said of it. -/
def withMetadata (n : Node) (size : UInt64) (mtime : Option Timestamp) (mode : UInt32) : Node :=
  { n with size := some size, mtime := mtime, mode := some mode }

def isLeaf (n : Node) : Bool := n.nodeType = .leaf

def isCollection (n : Node) : Bool := n.nodeType = .collection

/-- The names of the fields, in order. -/
def fieldNames : List String :=
  ["path", "node_type", "identifier", "content_signature", "mtime", "size", "mode"]

def toJson (n : Node) : Json :=
  .ofMembers
    [("path", .ofString n.path), ("node_type", .ofString n.nodeType.name),
      ("identifier", .ofString n.identifier),
      ("content_signature", .ofOption .ofString n.contentSignature),
      ("mtime", .ofOption (fun t => .ofString t.toRfc3339) n.mtime),
      ("size", .ofOption (fun s => .ofNat s.toNat) n.size),
      ("mode", .ofOption (fun m => .ofNat m.toNat) n.mode)]

def ofJson? (v : Json) : Option Node := do
  match ← Json.fieldValues? fieldNames v with
  | [path, nodeType, identifier, signature, mtime, size, mode] =>
    pure
      { path := ← Json.required? Json.string? path
        nodeType := ← Json.required? (Json.name? NodeType.ofName?) nodeType
        identifier := ← Json.required? Json.string? identifier
        contentSignature := ← Json.optional? Json.string? signature
        mtime := ← Json.optional? (fun v => v.string?.bind Timestamp.ofRfc3339?) mtime
        size := (← Json.optional? (Json.natBelow? UInt64.size) size).map UInt64.ofNat
        mode := (← Json.optional? (Json.natBelow? UInt32.size) mode).map UInt32.ofNat }
  | _ => none

end Node

/-- What an endpoint can do, for those that work with it. -/
structure EndpointInfo where
  /-- A moved directory is reported as removed and created, so it has to be looked through again. -/
  requiresFoldersRescan : Bool
  /-- Reported paths go through Unicode normalization. -/
  requiresNormalization : Bool
  deriving DecidableEq

namespace EndpointInfo

/-- The names of the fields, in order. -/
def fieldNames : List String :=
  ["requires_folders_rescan", "requires_normalization"]

/-- The JSON form of the capabilities. -/
def toJson (i : EndpointInfo) : Json :=
  .ofMembers
    [("requires_folders_rescan", .bool i.requiresFoldersRescan),
      ("requires_normalization", .bool i.requiresNormalization)]

/-- The capabilities that a JSON value holds. -/
def ofJson? (v : Json) : Option EndpointInfo := do
  match ← Json.fieldValues? fieldNames v with
  | [rescan, normalization] =>
    pure ⟨← Json.required? Json.bool? rescan, ← Json.required? Json.bool? normalization⟩
  | _ => none

end EndpointInfo

end SyncEndpoint
