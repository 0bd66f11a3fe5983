import SyncEndpoint.Path.Canonical
import SyncEndpoint.Unicode.NormalForm

set_option autoImplicit false

/-! # Native and canonical paths

The native spelling of a path depends on the platform: its separator, and whether its file system
keeps names decomposed. A `Platform` is that pair of decisions. Both directions are total, and an
empty path is the root. -/

namespace SyncEndpoint

open CanonicalPath (splitSegments)

/-- How a platform spells paths. -/
structure Platform where
  /-- The separator of native paths. -/
  separator : Char
  /-- Whether names are stored in Unicode normal form D. -/
  decomposed : Bool

namespace Platform

/-- File systems that take names as they are. -/
def posix : Platform := ⟨'/', false⟩

/-- File systems that hand back decomposed names. -/
def darwin : Platform := ⟨'/', true⟩

/-- File systems with the backslash as separator. -/
def windows : Platform := ⟨'\\', false⟩

/-- The platform that the endpoint runs on. -/
def native : Platform := posix

/-- The parts of a path that name something. -/
def nameParts (isSeparator : Char → Bool) (cs : List Char) : List (List Char) :=
  (splitSegments isSeparator cs).filter (· ≠ ['.'])

/-- Parts with a separator in front of the first and between any two. -/
def joinParts (separator : Char) (parts : List (List Char)) : List Char :=
  separator :: List.intercalate [separator] parts

/-- The canonical spelling of a native path: both separators separate, empty parts and dots are
dropped, and decomposed names are composed. -/
def toCanonicalChars (p : Platform) (cs : List Char) : List Char :=
  let joined := joinParts '/' (nameParts (fun c => c == '/' || c == p.separator) cs)
  if p.decomposed then Unicode.mapCodePoints Unicode.nfc joined else joined

/-- The native spelling of a canonical path. -/
def toNativeChars (p : Platform) (cs : List Char) : List Char :=
  let joined := joinParts p.separator (nameParts (· == '/') cs)
  if p.decomposed then Unicode.mapCodePoints Unicode.nfd joined else joined

/-- The canonical spelling of a native path. -/
def toCanonical (p : Platform) (nativePath : String) : String :=
  String.ofList (p.toCanonicalChars nativePath.toList)

/-- The native spelling of a canonical path. -/
def toNative (p : Platform) (canonical : String) : String :=
  String.ofList (p.toNativeChars canonical.toList)

end Platform

end SyncEndpoint
