import SyncEndpoint.Endpoint.Basic
import SyncEndpoint.Event
import SyncEndpoint.Watch.Notification

set_option autoImplicit false

/-! # From notifications to events

A notification that something was made or written is confirmed by looking: what is gone again gives
no event. A rename whose target is gone is reported as a removal. Removals are believed. -/

namespace SyncEndpoint.Watch

open Storage

/-- What an interpretation needs to know. -/
structure Interpreter where
  /-- The directory on disk that notifications are about. -/
  root : NativePath
  ignored : IgnoreList
  /-- The endpoint that the events come from. -/
  source : EndpointRef

namespace Interpreter

variable {R W : Type}

/-- What a mask asks for. -/
inductive Change where
  /-- An event of this type on something that is there. -/
  | seen (type : ChangeType)
  | removed
  | nothing
  deriving DecidableEq

/-- What a mask asks for. -/
def changeOf (m : RawMask) : Change :=
  if m.create then .seen .create
  else if m.write then .seen .write
  else if m.rename then .seen .rename
  else if m.remove then .removed
  else .nothing

/-- The event of a removal, unless the path would be ignored as a leaf or as a collection. -/
def removal? (t : Interpreter) (now : Timestamp) (canonical : String) : Option ChangeEvent :=
  if t.ignored.isIgnoredAny canonical then none
  else some ((ChangeEvent.removed now canonical).withSource t.source)

/-- The event, if any, that something is there, or the error that this could not be found out. -/
def confirm (t : Interpreter) (now : Timestamp) (type : ChangeType) (below : NativePath)
    (canonical : String) : Attempt R W SyncError (Option ChangeEvent) := do
  match ← ExceptT.lift (stat below).run with
  | .ok md =>
    if t.ignored.isIgnored canonical md.isDir then pure none
    else pure (some ((ChangeEvent.present now type canonical md.length md.isDir).withSource
      t.source))
  | .error x =>
    if x.kind = .notFound then
      pure (if type = .rename then t.removal? now canonical else none)
    else if t.ignored.isIgnoredAny canonical then pure none
    else throw (SyncError.ofStorage canonical x)

/-- The event that a notification gives, if any. -/
def interpret (t : Interpreter) (now : Timestamp) (raw : RawEvent) :
    Attempt R W SyncError (Option ChangeEvent) :=
  match NativePath.below? raw.path t.root with
  | none => pure none
  | some below =>
    let canonical := Platform.native.toCanonical (NativePath.display below)
    match changeOf raw.mask with
    | .seen type => t.confirm now type below canonical
    | .removed => pure (t.removal? now canonical)
    | .nothing => pure none

end Interpreter

end SyncEndpoint.Watch
