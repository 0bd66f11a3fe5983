import SyncEndpoint.Disk.Lookup

set_option autoImplicit false

/-! # Operations on a disk

What a program can ask of a disk, one path at a time, and the three walks over many that are
built from it: making a directory with all above it, removing one with all below it, and spelling
a path without links. An operation on one path that fails changes nothing. -/

namespace SyncEndpoint.Disk

/-! ## Asking -/

/-- What is known of a node. -/
structure Metadata where
  isDirectory : Bool
  /-- The length of the content; of a directory it means nothing. -/
  length : Nat
  modified : Timestamp
  /-- The type and the permission bits. -/
  mode : Nat

/-- The mode bits of a type. -/
def Content.typeBits : Content → Nat
  | .file _ => 0o100000
  | .directory _ => 0o040000
  | .link _ => 0o120000

/-- The length of what a node holds; that of a directory is the length of one block. -/
def Content.length : Content → Nat
  | .file data => data.length
  | .directory _ => 4096
  | .link target => target.length

/-- What is known of a node. -/
def metadataOf (d : Disk) (i : Nat) : Except Failure Metadata :=
  match d.inode? i with
  | some node =>
    .ok ⟨d.isDirectory i, node.content.length, node.modified,
      node.content.typeBits + node.permissions⟩
  | none => .error .noEntry

/-- What is known of the node that a path leads to. -/
def metadata (d : Disk) (p : NativePath) : Except Failure Metadata := do
  d.metadataOf (← d.find true p)

/-- What is known of the node at a path, which may be a link. -/
def linkMetadata (d : Disk) (p : NativePath) : Except Failure Metadata := do
  d.metadataOf (← d.find false p)

/-- Whether a path leads to something. -/
def has (d : Disk) (p : NativePath) : Bool :=
  (d.find true p).isOk

/-- Whether a path leads to a directory. -/
def hasDirectory (d : Disk) (p : NativePath) : Bool :=
  match d.find true p with
  | .ok i => d.isDirectory i
  | .error _ => false

/-- The names in the directory that a path leads to. -/
def list (d : Disk) (p : NativePath) : Except Failure (List Bytes) := do
  let i ← d.find true p
  if d.isDirectory i then pure ((d.entries i).map (·.1)) else .error .notDirectory

/-! ## Files -/

/-- Opens what a path leads to for reading. A directory can be opened, but not read. -/
def openRead (d : Disk) (p : NativePath) : Except Failure Nat :=
  d.find true p

/-- At most `n` bytes of a node from a position on. -/
def readAt (d : Disk) (i offset n : Nat) : Except Failure Bytes :=
  match d.fileData? i with
  | some data => .ok ((data.drop offset).take n)
  | none => .error .isDirectory

/-- Replaces the content of a file. -/
def setData (d : Disk) (i : Nat) (data : Bytes) : Disk :=
  match d.inode? i with
  | some node => d.setInode i { node with content := .file data, modified := d.now }
  | none => d

/-- Puts bytes into a file from a position on; a gap is filled with zeros. -/
def writeAt (d : Disk) (i offset : Nat) (bytes : Bytes) : Disk :=
  match d.fileData? i with
  | some data =>
    let front := data.take offset ++ List.replicate (offset - data.length) 0
    d.setData i (front ++ bytes ++ data.drop (offset + bytes.length))
  | none => d

/-- Opens a file that is there for writing, and empties it. -/
def openWrite (d : Disk) (p : NativePath) : Except Failure (Nat × Disk) := do
  let i ← d.find true p
  if d.isDirectory i then .error .isDirectory else pure (i, d.setData i [])

/-- Opens a file for writing, and makes it if it is missing. -/
def create (d : Disk) (p : NativePath) : Except Failure (Nat × Disk) := do
  let place ← d.locate true p
  if place.slash then .error .isDirectory
  match place.name?, place.inode? with
  | some name, none =>
    let (i, d) := d.addInode (.file []) filePermissions
    pure (i, d.link place.directory name i)
  | _, some i => if d.isDirectory i then .error .isDirectory else pure (i, d.setData i [])
  | none, none => .error .noEntry

/-- The whole content of a file. -/
def contentOf (d : Disk) (p : NativePath) : Except Failure Bytes := do
  let i ← d.openRead p
  match d.fileData? i with
  | some data => pure data
  | none => .error .isDirectory

/-- Makes a file with the given content, or replaces the content of one. -/
def putContent (d : Disk) (p : NativePath) (data : Bytes) : Except Failure Disk := do
  let (i, d) ← d.create p
  pure (d.writeAt i 0 data)

/-! ## Names -/

/-- Puts a new node at a path where nothing is. Only a directory may have a slash behind it. -/
def make (d : Disk) (p : NativePath) (content : Content) (permissions : Nat) :
    Except Failure Disk := do
  let place ← d.locate false p
  match place.name?, place.inode? with
  | some name, none =>
    if place.slash && !content.isDirectory then .error .noEntry
    else
      let (i, d) := d.addInode content permissions
      pure (d.link place.directory name i)
  | _, _ => .error .taken

def makeDirectory (d : Disk) (p : NativePath) : Except Failure Disk :=
  d.make p (.directory []) directoryPermissions

def makeLink (d : Disk) (p target : NativePath) : Except Failure Disk :=
  d.make p (.link target) 0o777

/-- Removes a file or a link. -/
def removeFile (d : Disk) (p : NativePath) : Except Failure Disk := do
  let i ← d.find false p
  let place ← d.locate false p
  match place.name? with
  | some name => if d.isDirectory i then .error .isDirectory else pure (d.unlink place.directory name)
  | none => .error .isDirectory

/-- Removes an empty directory. -/
def removeDirectory (d : Disk) (p : NativePath) : Except Failure Disk := do
  let place ← d.locate false p
  match place.name?, place.inode? with
  | some name, some i =>
    if !d.isDirectory i then .error .notDirectory
    else if !(d.entries i).isEmpty then .error .notEmpty
    else pure (d.unlink place.directory name)
  | some _, none => .error .noEntry
  | none, _ => .error .invalid

/-- A path without the slashes at its end. -/
def withoutEnd (p : NativePath) : NativePath :=
  Text.trimEnd (· == NativePath.slash) p

/-- Gives a node another path. What is at the new path goes, if it is of the same type and no
directory with something in it. -/
def rename (d : Disk) (source target : NativePath) : Except Failure Disk := do
  checkPath source
  checkPath target
  let old ← d.approach false (withoutEnd source)
  let new ← d.approach false (withoutEnd target)
  match old.name?, new.name? with
  | some oldName, some newName =>
    old.check
    match old.inode? with
    | none => .error .noEntry
    | some i =>
      new.check
      let isDir := d.isDirectory i
      let moved := (d.unlink old.directory oldName).link new.directory newName i
      if !isDir && (asksDirectory source || asksDirectory target) then .error .notDirectory
      else if isDir && new.directories.contains i then .error .invalid
      else
        match new.inode? with
        | some j =>
          if old.directories.contains j then .error .notEmpty
          else if i = j then pure d
          else if isDir && !d.isDirectory j then .error .notDirectory
          else if !isDir && d.isDirectory j then .error .isDirectory
          else if !(d.entries j).isEmpty then .error .notEmpty
          else pure moved
        | none => pure moved
  | _, _ => .error .invalid

/-- Sets the permission bits of what a path leads to. -/
def setPermissions (d : Disk) (p : NativePath) (permissions : Nat) : Except Failure Disk := do
  let i ← d.find true p
  match d.inode? i with
  | some node => pure (d.setInode i { node with permissions })
  | none => .error .noEntry

/-- Sets the time of what a path leads to. -/
def setModified (d : Disk) (p : NativePath) (modified : Timestamp) : Except Failure Disk := do
  let i ← d.find true p
  match d.inode? i with
  | some node => pure (d.setInode i { node with modified })
  | none => .error .noEntry

/-! ## Many paths -/

/-- Makes a directory, which may be there. -/
def ensureDirectory (d : Disk) (p : NativePath) : Except Failure Unit × Disk :=
  match d.makeDirectory p with
  | .ok d => (.ok (), d)
  | .error e => (if d.hasDirectory p then .ok () else .error e, d)

/-- Makes a directory with all that is missing above it; the list goes up from it. Directories
that could be made stay if a later one cannot. -/
def ensureUpward (d : Disk) : List NativePath → Except Failure Unit × Disk
  | [] => (.ok (), d)
  | p :: above =>
    if p.isEmpty then (.ok (), d)
    else
      match d.makeDirectory p with
      | .error .noEntry =>
        match d.ensureUpward above with
        | (.ok (), d) => d.ensureDirectory p
        | failed => failed
      | _ => d.ensureDirectory p

/-- Makes a directory with all that is missing above it. -/
def makeDirectories (d : Disk) (p : NativePath) : Except Failure Unit × Disk :=
  d.ensureUpward (p :: NativePath.ancestors p)

/-- Removes a file, a link, or a directory with everything below it. -/
def removeAll (d : Disk) (p : NativePath) : Except Failure Disk := do
  let place ← d.locate false p
  let _ ← d.find false p
  match place.name? with
  | some name => pure (d.unlink place.directory name)
  | none => .error .invalid

/-- The names from the root to the nodes of a list, which goes up to the root. -/
def namesOf (d : Disk) : List Nat → List Bytes
  | i :: dir :: rest =>
    (((d.entries dir).find? (·.2 == i)).map (·.1)).toList ++ namesOf d (dir :: rest)
  | _ => []

/-- The spelling of a path from the root without links, dots and double dots. -/
def canonicalize (d : Disk) (p : NativePath) : Except Failure NativePath := do
  let _ ← d.find true p
  let place ← d.locate true p
  let names := (place.name?.toList ++ d.namesOf place.directories).reverse
  pure (NativePath.slash :: NativePath.ofNames names)

end SyncEndpoint.Disk
