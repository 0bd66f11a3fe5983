import SyncEndpoint.Disk.Operations

set_option autoImplicit false

/-! # Actions on a disk

What some other program may do on a disk, one action at a time. -/

namespace SyncEndpoint.Disk

inductive Action where
  /-- Write a whole file, made if it is missing. -/
  | write (path : NativePath) (data : Bytes)
  | makeDirectory (path : NativePath)
  | makeLink (path target : NativePath)
  | removeFile (path : NativePath)
  | removeDirectory (path : NativePath)
  | rename (source target : NativePath)
  | setPermissions (path : NativePath) (permissions : Nat)

def perform (d : Disk) : Action → Except Failure Disk
  | .write path data => d.putContent path data
  | .makeDirectory path => d.makeDirectory path
  | .makeLink path target => d.makeLink path target
  | .removeFile path => d.removeFile path
  | .removeDirectory path => d.removeDirectory path
  | .rename source target => d.rename source target
  | .setPermissions path permissions => d.setPermissions path permissions

end SyncEndpoint.Disk
