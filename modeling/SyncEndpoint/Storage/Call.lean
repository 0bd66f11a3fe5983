import SyncEndpoint.Error
import SyncEndpoint.Time.Timestamp

set_option autoImplicit false

/-! # Calls on a storage

What an endpoint asks of a storage, one call at a time, and what a storage answers. An open file is
a value, of the type `R` for reading and `W` for writing, that each storage chooses: a call that
moves on in a file answers with the value to go on with. -/

namespace SyncEndpoint.Storage

/-- What a storage can do by itself. -/
structure Capabilities where
  /-- A rename moves a directory with everything below it. -/
  atomicRename : Bool
  /-- The operating system notices what changes in the storage. -/
  nativeNotifications : Bool
  deriving DecidableEq

/-- What a storage says of a file or a directory. -/
structure Metadata where
  isDir : Bool
  length : UInt64
  modified : Option Timestamp
  mode : UInt32
  deriving DecidableEq

/-- An entry of a directory. One that is listed but cannot be looked at keeps its error. -/
structure Listed where
  name : String
  metadata : Except IoError Metadata

/-- Whether an entry is known to be a directory. -/
def Listed.isDir (l : Listed) : Bool :=
  match l.metadata with
  | .ok md => md.isDir
  | .error _ => false

/-- A call on a storage. Of a path only the names count. -/
inductive Call (R W : Type) where
  /-- Look at a file or directory. -/
  | stat (path : NativePath)
  /-- Open a file for reading. -/
  | openRead (path : NativePath)
  /-- Open a file for writing, made if it is missing and emptied if not. -/
  | create (path : NativePath)
  /-- Open a file that is there for writing, and empty it. -/
  | openWrite (path : NativePath)
  /-- Make a directory with all above it. -/
  | createDirAll (path : NativePath)
  /-- Remove a file, or a directory with all below it. -/
  | removeAll (path : NativePath)
  | rename (source target : NativePath)
  /-- List a directory, in the order of the names. -/
  | readDir (path : NativePath)
  /-- Read at most `n` bytes; none are read only at the end. -/
  | read (reader : R) (n : Nat)
  /-- Write all the bytes, or as many as can be. -/
  | write (writer : W) (data : Bytes)
  | flush (writer : W)
  /-- Finish writing. -/
  | shutdown (writer : W)
  /-- How many bytes an open file may still give, at most. -/
  | bytesLeft (reader : R)
  /-- How many names a path of the storage may have, at most. -/
  | depthBound

/-- The type of the answer to a call. -/
abbrev Call.Reply {R W : Type} : Call R W → Type
  | .stat _ => Except IoError Metadata
  | .openRead _ => Except IoError R
  | .create _ => Except IoError W
  | .openWrite _ => Except IoError W
  | .createDirAll _ => Except IoError Unit
  | .removeAll _ => Except IoError Unit
  | .rename _ _ => Except IoError Unit
  | .readDir _ => Except IoError (List Listed)
  | .read _ _ => Except IoError (Bytes × R)
  | .write _ _ => Except IoError Unit × W
  | .flush _ => Except IoError Unit
  | .shutdown _ => Except IoError Unit
  | .bytesLeft _ => Nat
  | .depthBound => Nat

/-- A storage with the state `σ`: how it answers calls. -/
abbrev Backend (σ R W : Type) : Type :=
  (c : Call R W) → σ → c.Reply × σ

/-- The names of a path, which are what a storage knows an entry by. -/
abbrev Key : Type := List Bytes

def keyOf (path : NativePath) : Key :=
  NativePath.names path

end SyncEndpoint.Storage
