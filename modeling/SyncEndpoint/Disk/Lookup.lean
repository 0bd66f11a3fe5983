import SyncEndpoint.Disk.Basic

set_option autoImplicit false

/-! # Looking paths up

A path is followed from directory to directory, through the links on the way. The place that a
path leads to is the directory of its last name, that name, and what has it. -/

namespace SyncEndpoint.Disk

/-- The greatest length of a name, and the length that a path has to stay below. -/
def mostNameBytes : Nat := 255
def pathBytesLimit : Nat := 4096

/-- The number of links that are followed for one path. -/
def mostLinks : Nat := 40

/-- Where a path leads. -/
structure Place where
  /-- The directories from the one that the last name is looked for in up to the root. -/
  directories : List Nat
  /-- The last name; none if the path ends with the root, a dot or two. -/
  name? : Option Bytes
  /-- What the path stands for. -/
  inode? : Option Nat
  /-- Whether the path, or the link at its end, asks for a directory by a slash at its end. -/
  slash : Bool

namespace Place

/-- The directory of the last name. -/
def directory (p : Place) : Nat :=
  p.directories.head?.getD rootInode

end Place

/-- The names in a path, with dots and double dots. -/
def nameParts (p : NativePath) : List Bytes :=
  (p.splitOn NativePath.slash).filter (!·.isEmpty)

/-- The directories that a path starts in: the root, or else `here`. -/
def startOf (p : NativePath) (here : List Nat) : List Nat :=
  if NativePath.isAbsolute p then [rootInode] else here

/-- The directories above, with those of the root ending in itself. -/
def up : List Nat → List Nat
  | _ :: dir :: rest => dir :: rest
  | dirs => dirs

/-- Whether a name is longer than names may be. -/
def isTooLong (name : Bytes) : Bool :=
  name.length > mostNameBytes

/-- Whether a path ends with a slash, by which it asks for a directory. -/
def asksDirectory (p : NativePath) : Bool :=
  p.getLast? == some NativePath.slash

/-- Follows the names of a path. `links` more links may be followed; the last name is followed
through links if `follow` is set, or if a slash comes behind it. Nothing has a last name that is too
long. -/
def followParts (d : Disk) (follow : Bool) :
    Nat → List Nat → List Bytes → Bool → Except Failure Place
  | _, dirs, [], slash => .ok ⟨dirs, none, dirs.head?, slash⟩
  | links, dirs, name :: rest, slash =>
    if name = NativePath.dot then followParts d follow links dirs rest slash
    else if name = NativePath.dotDot then followParts d follow links (up dirs) rest slash
    else if isTooLong name && !rest.isEmpty then .error .nameTooLong
    else
      let found := d.entry? (dirs.head?.getD rootInode) name
      match found, found.bind d.linkTarget? with
      | none, _ => if rest.isEmpty then .ok ⟨dirs, some name, none, slash⟩ else .error .noEntry
      | some i, none =>
        if rest.isEmpty then .ok ⟨dirs, some name, some i, slash⟩
        else if d.isDirectory i then followParts d follow links (i :: dirs) rest slash
        else .error .notDirectory
      | some i, some target =>
        if rest.isEmpty && !follow && !slash then .ok ⟨dirs, some name, some i, slash⟩
        else
          match links with
          | 0 => .error .loop
          | links + 1 =>
            if target.isEmpty then .error .noEntry
            else
              followParts d follow links (startOf target dirs) (nameParts target ++ rest)
                (slash || (rest.isEmpty && asksDirectory target))
termination_by links _ parts => (links, parts.length)

/-- Checks a path before it is looked up. -/
def checkPath (p : NativePath) : Except Failure Unit :=
  if p.contains 0 then .error .zeroByte
  else if p.isEmpty then .error .noEntry
  else if p.length ≥ pathBytesLimit then .error .nameTooLong
  else .ok ()

/-- The directories from the working directory up to the root. -/
def here (d : Disk) : List Nat :=
  match followParts d true mostLinks [rootInode] (nameParts d.workingDirectory) false with
  | .ok p =>
    match p.name?, p.inode? with
    | some _, some i => i :: p.directories
    | _, _ => p.directories
  | .error _ => [rootInode]

/-- Where a path leads, up to the look for its last name. -/
def approach (d : Disk) (follow : Bool) (p : NativePath) : Except Failure Place := do
  checkPath p
  followParts d follow mostLinks (startOf p d.here) (nameParts p) (asksDirectory p)

/-- Checks the last name of a place. -/
def Place.check (p : Place) : Except Failure Unit :=
  if p.name?.any isTooLong then .error .nameTooLong else .ok ()

/-- The place that a path leads to. A link at its end is followed if `follow` is set, or if a
slash behind it asks for a directory. -/
def locate (d : Disk) (follow : Bool) (p : NativePath) : Except Failure Place := do
  let place ← d.approach follow p
  place.check
  pure place

/-- The node that a path leads to. -/
def find (d : Disk) (follow : Bool) (p : NativePath) : Except Failure Nat := do
  let place ← d.locate follow p
  match place.inode? with
  | none => .error .noEntry
  | some i => if place.slash && !d.isDirectory i then .error .notDirectory else pure i

end SyncEndpoint.Disk
