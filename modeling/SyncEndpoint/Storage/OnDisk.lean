import SyncEndpoint.Disk.Operations
import SyncEndpoint.Storage.Call

set_option autoImplicit false

/-! # Storage on disk

The tree below a directory of a disk. Of a path only the names count, so none leads out of that
directory, except by way of a link. An open file is a node of the disk with a position in it. -/

namespace SyncEndpoint.Storage.OnDisk

/-- The path on disk of a path in a storage with the given root. -/
def resolve (root path : NativePath) : NativePath :=
  NativePath.join root (NativePath.ofNames (keyOf path))

/-- What a storage says of a node of a disk. -/
def ofDisk (md : Disk.Metadata) : Metadata :=
  ⟨md.isDirectory, UInt64.ofNat md.length, some md.modified, UInt32.ofNat md.mode⟩

/-- The answer to a call that may fail on the disk. -/
def answer {α : Type} : Except Disk.Failure α → Except IoError α :=
  Except.mapError Disk.Failure.toIoError

/-- The answer to a call that changes the disk unless it fails. -/
def change {α : Type} (d : Disk) : Except Disk.Failure (α × Disk) → Except IoError α × Disk
  | .ok (a, d) => (.ok a, d)
  | .error f => (.error f.toIoError, d)

/-- An entry of a listed directory: none if it is gone. A link that leads to nothing keeps its
error. -/
def listed? (d : Disk) (dir : NativePath) (name : Bytes) : Option Listed :=
  let path := NativePath.join dir name
  match d.metadata path with
  | .ok md => some ⟨NativePath.display name, .ok (ofDisk md)⟩
  | .error f =>
    if f = .noEntry && !(d.linkMetadata path).isOk then none
    else some ⟨NativePath.display name, .error f.toIoError⟩

/-- The entries of a directory, in the order of the names as they are shown. -/
def readDir (d : Disk) (dir : NativePath) : Except IoError (List Listed) :=
  (answer (d.list dir)).map fun names =>
    (names.filterMap (listed? d dir)).mergeSort fun a b => decide (a.name ≤ b.name)

/-- What a storage on disk can do by itself. -/
def capabilities : Capabilities :=
  ⟨true, true⟩

/-- A storage on disk, below a root, as a storage. -/
def backend (root : NativePath) : Backend Disk (Nat × Nat) (Nat × Nat)
  | .stat path, d => ((answer (d.metadata (resolve root path))).map ofDisk, d)
  | .openRead path, d => ((answer (d.openRead (resolve root path))).map fun i => (i, 0), d)
  | .create path, d =>
    change d ((d.create (resolve root path)).map fun (i, d) => ((i, 0), d))
  | .openWrite path, d =>
    change d ((d.openWrite (resolve root path)).map fun (i, d) => ((i, 0), d))
  | .createDirAll path, d =>
    let (result, d) := d.makeDirectories (resolve root path)
    (answer result, d)
  | .removeAll path, d => change d ((d.removeAll (resolve root path)).map fun d => ((), d))
  | .rename source target, d =>
    change d ((d.rename (resolve root source) (resolve root target)).map fun d => ((), d))
  | .readDir path, d => (readDir d (resolve root path), d)
  | .read (i, offset) n, d =>
    ((answer (d.readAt i offset n)).map fun bytes => (bytes, (i, offset + bytes.length)), d)
  | .write (i, offset) data, d =>
    ((.ok (), (i, offset + data.length)), d.writeAt i offset data)
  | .flush _, d => (.ok (), d)
  | .shutdown _, d => (.ok (), d)
  | .bytesLeft (i, offset), d => (((d.fileData? i).map (·.length - offset)).getD 0, d)
  | .depthBound, d => (Disk.pathBytesLimit, d)

end SyncEndpoint.Storage.OnDisk
