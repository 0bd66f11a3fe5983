import SyncEndpoint.Endpoint.Basic
import SyncEndpoint.Settings.Basic
import SyncEndpoint.Storage.OnDisk
import SyncEndpoint.Storage.Program

set_option autoImplicit false

/-! # Endpoints on disk

An endpoint on a directory of a disk. The root is spelled without links, since that is how the
source of notifications spells it. -/

namespace SyncEndpoint

open Storage

/-- The spelling of a root without links, if it leads to something. -/
def Disk.resolveRoot (d : Disk) (root : NativePath) : NativePath :=
  (d.canonicalize root).toOption.getD root

/-- Runs a program below a root of a disk. -/
def Disk.run {α : Type} (d : Disk) (root : NativePath) (minted : Nat)
    (p : Program (Nat × Nat) (Nat × Nat) α) : α × World Disk :=
  p.run (OnDisk.backend root) ⟨d, minted⟩

namespace Endpoint

/-- Opens an endpoint on a directory of the disk that it is run on. -/
def openOnDisk {R W : Type} (root : NativePath) (patterns : List String)
    (bufferCapacity eventChannelCapacity : UInt64) : Attempt R W SyncError Endpoint :=
  withStorage root OnDisk.capabilities (some root) patterns bufferCapacity eventChannelCapacity

end Endpoint

end SyncEndpoint
