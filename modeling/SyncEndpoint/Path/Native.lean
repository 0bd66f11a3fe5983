import SyncEndpoint.Text.Utf8

set_option autoImplicit false

/-! # Native paths

A native path is a byte string, as a file system takes it. Its components are the parts between
slashes; empty parts and dots say nothing, except a dot at the very start of a relative path. The
components are the path's meaning, but a parent keeps the spelling of what it is a part of. -/

namespace SyncEndpoint

/-- A path as a file system takes it: any bytes. -/
abbrev NativePath := Bytes

namespace NativePath

def slash : UInt8 := 0x2F
def dot : Bytes := [0x2E]
def dotDot : Bytes := [0x2E, 0x2E]

/-- The bytes of a text, as a path. -/
def ofString (s : String) : NativePath :=
  Text.Utf8.encode s

/-- A path as it is shown: a replacement character for each broken sequence. -/
def display (p : NativePath) : String :=
  Text.Utf8.decodeLossy p

/-! ## Components -/

/-- Whether a path starts at the root directory. -/
def isAbsolute (p : NativePath) : Bool :=
  p.head? == some slash

/-- Whether a relative path starts with a dot segment. -/
def startsWithDot (p : NativePath) : Bool :=
  (p.splitOn slash).head? == some dot

/-- A part that names nothing. -/
def isVoid (part : Bytes) : Bool :=
  part.isEmpty || part == dot

inductive Component where
  | root
  | current
  | parent
  | normal (name : Bytes)
  deriving DecidableEq

/-- The component that a part stands for, if it names something. -/
def Component.ofPart? (part : Bytes) : Option Component :=
  if isVoid part then none
  else if part == dotDot then some .parent
  else some (.normal part)

/-- What a path begins with before its first part: the root directory or a dot. -/
def lead (p : NativePath) : List Component :=
  if isAbsolute p then [.root] else if startsWithDot p then [.current] else []

def components (p : NativePath) : List Component :=
  lead p ++ (p.splitOn slash).filterMap Component.ofPart?

/-- The name of a normal component. -/
def Component.name? : Component → Option Bytes
  | .normal name => some name
  | _ => none

/-- The names in a path; the root, dots and double dots are dropped. -/
def names (p : NativePath) : List Bytes :=
  (components p).filterMap Component.name?

/-- The last component, if it is a name. -/
def fileName? (p : NativePath) : Option Bytes :=
  (components p).getLast?.bind Component.name?

/-! ## Parents -/

/-- A path cut behind its lead: the spelling of the lead, and the parts after it. -/
def cutLead (p : NativePath) : Bytes × List Bytes :=
  if isAbsolute p then ([slash], p.tail.splitOn slash)
  else if startsWithDot p then (dot, p.tail.splitOn slash)
  else ([], p.splitOn slash)

/-- Parts, last first, as text behind a lead. -/
def ofReversedParts (lead : Bytes) (parts : List Bytes) : NativePath :=
  lead ++ List.intercalate [slash] parts.reverse

/-- From a list of parts, last first, what remains after each removal of a part that names
something, without the void parts at its end. -/
def remainders : List Bytes → List (List Bytes)
  | [] => []
  | part :: rest => if isVoid part then remainders rest else rest.dropWhile isVoid :: remainders rest

/-- The paths that lie above a path, nearest first, each in the spelling that the path gives it.
The last one of a relative path is the empty path, of an absolute one the root. -/
def ancestors (p : NativePath) : List NativePath :=
  let (lead, parts) := cutLead p
  let above := (remainders parts.reverse).map (ofReversedParts lead)
  if !isAbsolute p && startsWithDot p then above ++ [[]] else above

/-- The path above a path: none for the root and for the empty path. -/
def parent? (p : NativePath) : Option NativePath :=
  (ancestors p).head?

/-! ## Building paths -/

/-- `q` seen from the directory `p`; an absolute `q` stands for itself. -/
def join (p q : NativePath) : NativePath :=
  if isAbsolute q then q
  else if p.isEmpty || p.getLast? == some slash then p ++ q
  else p ++ slash :: q

/-- Names with a slash between two of them. -/
def ofNames (names : List Bytes) : NativePath :=
  List.intercalate [slash] names

/-- The spelling of a component. -/
def Component.bytes : Component → Bytes
  | .root => []
  | .current => dot
  | .parent => dotDot
  | .normal name => name

/-- What a path has below `base`, if its components begin with those of `base`. -/
def below? (p base : NativePath) : Option NativePath :=
  ((components base).isPrefixOf? (components p)).map fun rest =>
    List.intercalate [slash] (rest.map Component.bytes)

/-- A file name without its extension: the part before the last dot, unless that dot is the
first byte. -/
def stem (name : Bytes) : Bytes :=
  let front := (name.reverse.dropWhile (· != 0x2E)).tail.reverse
  if front.isEmpty then name else front

/-- A path whose file name has `ext` as its extension, in place of the one it had; a path without
a file name stays as it is. -/
def withExtension (p : NativePath) (ext : Bytes) : NativePath :=
  match fileName? p with
  | none => p
  | some name =>
    let (lead, parts) := cutLead p
    let before := (parts.reverse.dropWhile isVoid).tail
    ofReversedParts lead ((stem name ++ 0x2E :: ext) :: before)

end NativePath

end SyncEndpoint
