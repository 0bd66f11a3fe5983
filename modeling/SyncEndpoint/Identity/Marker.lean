import SyncEndpoint.Ignore.List
import SyncEndpoint.Identity.Digest
import SyncEndpoint.Storage.Program

set_option autoImplicit false

/-! # The identity of nodes

A leaf is known by the digest of its content. A collection is known by an identifier in a marker
file inside of it, which is minted when it is asked for the first time. -/

namespace SyncEndpoint.Identity

open Storage

variable {R W : Type}

/-- The digest of the content of a file, read in chunks. -/
def contentHash (path : NativePath) : Attempt R W IoError String := do
  let reader ← openRead path
  let hasher ← foldReader Digest.Hasher.update {} reader
  pure (Text.Hex.encode hasher.finish)

/-- The path of the marker of a directory. -/
def markerPath (dir : NativePath) : NativePath :=
  NativePath.join dir (NativePath.ofString markerName)

/-- The identifier that the content of a marker stands for, if it is not blank. -/
def identifierOf? (content : Bytes) : Option String :=
  let id := Text.trimBlanks (Text.Utf8.decodeLossy content)
  if id.isEmpty then none else some id

/-- The identifier in the marker of a directory: none if there is no marker, or a blank one. -/
def readMarker (dir : NativePath) : Attempt R W IoError (Option String) :=
  Program.bind (contentOf (markerPath dir)) fun
    | .ok content => .done (.ok (identifierOf? content))
    | .error e => .done (if e.kind = .notFound then .ok none else .error e)

/-- Writes the marker of a directory. -/
def writeMarker (dir : NativePath) (id : String) : Attempt R W IoError Unit :=
  putContent (markerPath dir) (Text.Utf8.encode id)

/-- The identifier of a directory, minted and written down if it has none. -/
def folderId (dir : NativePath) : Attempt R W IoError String := do
  match ← readMarker dir with
  | some id => pure id
  | none =>
    let id ← ExceptT.lift mint
    writeMarker dir id
    pure id

end SyncEndpoint.Identity
