import SyncEndpoint.Json.Value
import SyncEndpoint.Time.Timestamp

set_option autoImplicit false

/-! # Change events

One detected change of the tree. An event on something that is still there says how large it is
and whether it is a directory; a removal says neither. -/

namespace SyncEndpoint

/-- The kind of a change. -/
inductive ChangeType where
  | create
  | write
  | rename
  | remove
  deriving DecidableEq

namespace ChangeType

def name : ChangeType → String
  | .create => "create"
  | .write => "write"
  | .rename => "rename"
  | .remove => "remove"

def ofName? : String → Option ChangeType
  | "create" => some .create
  | "write" => some .write
  | "rename" => some .rename
  | "remove" => some .remove
  | _ => none

end ChangeType

/-- A reference to the endpoint that reported an event, which does not keep it alive. -/
abbrev EndpointRef := Nat

/-- A reference as it is shown to a developer. -/
def EndpointRef.debugText (alive : Bool) : String :=
  "SourceRef \x7b alive: " ++ (if alive then "true" else "false") ++ " \x7d"

/-- One detected change. -/
structure ChangeEvent where
  time : Timestamp
  path : String
  changeType : ChangeType
  size : Option UInt64
  isFolder : Option Bool
  source : Option EndpointRef
  deriving DecidableEq

namespace ChangeEvent

/-- A change of something that is still there. -/
def present (time : Timestamp) (changeType : ChangeType) (path : String) (size : UInt64)
    (isFolder : Bool) : ChangeEvent :=
  ⟨time, path, changeType, some size, some isFolder, none⟩

def removed (time : Timestamp) (path : String) : ChangeEvent :=
  ⟨time, path, .remove, none, none, none⟩

/-- An event with the endpoint that reports it. -/
def withSource (e : ChangeEvent) (source : EndpointRef) : ChangeEvent :=
  { e with source := some source }

/-- The time of an event with three digits of the fraction. -/
def timestamp (e : ChangeEvent) : String :=
  e.time.toMillisText

/-- The members of the JSON form that are there whatever the event, in the order of the names, and
those that are not. -/
def toJsonWith (e : ChangeEvent) (time : String) : Json :=
  .ofMembers <|
    [("time", .ofString time), ("path", .ofString e.path),
      ("type", .ofString e.changeType.name)] ++
    (e.size.map fun s => ("size", Json.ofNat s.toNat)).toList ++
    (e.isFolder.map fun b => ("is_folder", Json.bool b)).toList

/-- The JSON form of an event; what it does not say is left out. -/
def toJson (e : ChangeEvent) : Json :=
  e.toJsonWith e.time.toRfc3339

end ChangeEvent

end SyncEndpoint
