import SyncEndpoint.Disk.Failure
import SyncEndpoint.Time.Timestamp

set_option autoImplicit false

/-! # Disks

A disk is a set of numbered nodes. A directory names the nodes in it, a link holds a path, and a
file its content; a file that is open keeps its number when its name goes. All operations are
those of a user who may do everything. -/

namespace SyncEndpoint

namespace Disk

/-- What a node holds. -/
inductive Content where
  | file (data : Bytes)
  | directory (entries : List (Bytes × Nat))
  | link (target : NativePath)

/-- Whether a node is a directory. -/
def Content.isDirectory : Content → Bool
  | .directory _ => true
  | _ => false

/-- A node of a disk. -/
structure Inode where
  content : Content
  /-- The permission bits. -/
  permissions : Nat
  modified : Timestamp

end Disk

structure Disk where
  inodes : List (Nat × Disk.Inode)
  /-- The number of the next node. -/
  next : Nat
  /-- The time that new content is stamped with. -/
  now : Timestamp
  /-- The directory that relative paths start from. -/
  workingDirectory : NativePath

namespace Disk

/-- The number of the root directory. -/
def rootInode : Nat := 0

/-- The permission bits of a new file and of a new directory. -/
def filePermissions : Nat := 0o644
def directoryPermissions : Nat := 0o755

/-- A disk with nothing but a root directory. -/
def empty (now : Timestamp) (workingDirectory : NativePath) : Disk :=
  { inodes := [(rootInode, ⟨.directory [], directoryPermissions, now⟩)], next := 1, now
    workingDirectory }

/-! ## Nodes -/

/-- The node of a number. -/
def inode? (d : Disk) (i : Nat) : Option Inode :=
  (d.inodes.find? (·.1 == i)).map (·.2)

/-- Replaces the node of a number. -/
def setInode (d : Disk) (i : Nat) (node : Inode) : Disk :=
  { d with inodes := d.inodes.map fun (j, old) => if j == i then (j, node) else (j, old) }

/-- Adds a node: its number, and the disk with it. -/
def addInode (d : Disk) (content : Content) (permissions : Nat) : Nat × Disk :=
  (d.next,
    { d with inodes := (d.next, ⟨content, permissions, d.now⟩) :: d.inodes, next := d.next + 1 })

/-- The entries of a directory; other nodes have none. -/
def entries (d : Disk) (i : Nat) : List (Bytes × Nat) :=
  match d.inode? i with
  | some ⟨.directory entries, _, _⟩ => entries
  | _ => []

def isDirectory (d : Disk) (i : Nat) : Bool :=
  match d.inode? i with
  | some ⟨.directory _, _, _⟩ => true
  | _ => false

/-- The path that a link holds, if the number is that of one. -/
def linkTarget? (d : Disk) (i : Nat) : Option NativePath :=
  match d.inode? i with
  | some ⟨.link target, _, _⟩ => some target
  | _ => none

/-- The content of a file, if the number is that of one. -/
def fileData? (d : Disk) (i : Nat) : Option Bytes :=
  match d.inode? i with
  | some ⟨.file data, _, _⟩ => some data
  | _ => none

/-! ## Entries of a directory -/

/-- The number of a name in a directory. -/
def entry? (d : Disk) (dir : Nat) (name : Bytes) : Option Nat :=
  ((d.entries dir).find? (·.1 == name)).map (·.2)

/-- Changes the entries of a directory, which stamps it. -/
def changeEntries (d : Disk) (dir : Nat)
    (change : List (Bytes × Nat) → List (Bytes × Nat)) : Disk :=
  match d.inode? dir with
  | some ⟨.directory entries, permissions, _⟩ =>
    d.setInode dir ⟨.directory (change entries), permissions, d.now⟩
  | _ => d

/-- Gives a node a name in a directory, in place of what had it. -/
def link (d : Disk) (dir : Nat) (name : Bytes) (i : Nat) : Disk :=
  d.changeEntries dir fun entries => entries.filter (·.1 != name) ++ [(name, i)]

/-- Takes a name out of a directory. -/
def unlink (d : Disk) (dir : Nat) (name : Bytes) : Disk :=
  d.changeEntries dir (·.filter (·.1 != name))

end Disk

end SyncEndpoint
