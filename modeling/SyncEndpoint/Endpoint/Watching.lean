import SyncEndpoint.Endpoint.Basic
import SyncEndpoint.Text.Quoted
import SyncEndpoint.Watch.Registry
import SyncEndpoint.Watch.Interpreter

set_option autoImplicit false

/-! # Watching

A watch takes its path, and then registers it with the source of notifications. Where the storage
has no such source the session rests, and nothing will ever be delivered. -/

namespace SyncEndpoint.Endpoint

open Watch

/-- The directory on disk that a source of notifications can tell about, if there is one. -/
def watchableRoot? (e : Endpoint) : Option NativePath :=
  if e.capabilities.nativeNotifications then e.physicalRoot else none

def pathOnDisk (root : NativePath) (canonical : String) : NativePath :=
  NativePath.join root (NativePath.ofNames (NativePath.names (nativePath canonical)))

/-- The interpreter of an endpoint that is known by `source`. -/
def interpreter (e : Endpoint) (root : NativePath) (source : EndpointRef) : Interpreter :=
  ⟨root, e.ignored, source⟩

/-- Watches a path. `register` registers a path on disk with the source of notifications, or says
why it cannot; what it gives back is handed on. -/
def watch {α : Type} (e : Endpoint) (register : NativePath → Except String α) (subPath : String)
    (r : Registry) : Except SyncError (Nat × Option α) × Registry :=
  match r.begin subPath with
  | .error x => (.error x, r)
  | .ok (id, r) =>
    let eventCapacity := e.eventChannelCapacity.toNat
    match e.watchableRoot? with
    | none => (.ok (id, none), r.succeed id (.resting eventCapacity))
    | some root =>
      let path := CanonicalPath.clean subPath
      match register (pathOnDisk root path) with
      | .error reason => (.error (.subscription path reason), r.fail id)
      | .ok a =>
        (.ok (id, some a), r.succeed id (.subscribed e.bufferCapacity.toNat eventCapacity))

/-- An endpoint as it is shown to a developer, with the name of its storage. -/
def debugText (e : Endpoint) (storage : String) (r : Registry) : String :=
  "FsEndpoint \x7b root: " ++ Text.Quoted.ofBytes e.root ++ ", storage: " ++ storage ++
    ", active_watches: " ++ toString r.size ++ " \x7d"

end SyncEndpoint.Endpoint
