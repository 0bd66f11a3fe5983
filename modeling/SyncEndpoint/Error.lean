import SyncEndpoint.Path.Native

set_option autoImplicit false

/-! # Errors

An `IoError` is what a storage answers; a `SyncError` is what an endpoint answers, which says what
the error concerns. Causes are constructors, and the wording is in one place for each type. -/

namespace SyncEndpoint

/-! ## Errors of a storage -/

/-- What kind of failure an input or output operation met. -/
inductive ErrorKind where
  | notFound
  | permissionDenied
  | connectionRefused
  | connectionReset
  | hostUnreachable
  | networkUnreachable
  | connectionAborted
  | notConnected
  | addrInUse
  | addrNotAvailable
  | networkDown
  | brokenPipe
  | alreadyExists
  | wouldBlock
  | notADirectory
  | isADirectory
  | directoryNotEmpty
  | readOnlyFilesystem
  | filesystemLoop
  | staleNetworkFileHandle
  | invalidInput
  | invalidData
  | timedOut
  | writeZero
  | storageFull
  | notSeekable
  | quotaExceeded
  | fileTooLarge
  | resourceBusy
  | executableFileBusy
  | deadlock
  | crossesDevices
  | tooManyLinks
  | invalidFilename
  | argumentListTooLong
  | interrupted
  | unsupported
  | unexpectedEof
  | outOfMemory
  | other
  deriving DecidableEq

namespace ErrorKind

/-- The kinds with their names. -/
def names : List (ErrorKind × String) :=
  [(notFound, "NotFound"), (permissionDenied, "PermissionDenied"),
    (connectionRefused, "ConnectionRefused"), (connectionReset, "ConnectionReset"),
    (hostUnreachable, "HostUnreachable"), (networkUnreachable, "NetworkUnreachable"),
    (connectionAborted, "ConnectionAborted"), (notConnected, "NotConnected"),
    (addrInUse, "AddrInUse"), (addrNotAvailable, "AddrNotAvailable"),
    (networkDown, "NetworkDown"), (brokenPipe, "BrokenPipe"), (alreadyExists, "AlreadyExists"),
    (wouldBlock, "WouldBlock"), (notADirectory, "NotADirectory"), (isADirectory, "IsADirectory"),
    (directoryNotEmpty, "DirectoryNotEmpty"), (readOnlyFilesystem, "ReadOnlyFilesystem"),
    (filesystemLoop, "FilesystemLoop"), (staleNetworkFileHandle, "StaleNetworkFileHandle"),
    (invalidInput, "InvalidInput"), (invalidData, "InvalidData"), (timedOut, "TimedOut"),
    (writeZero, "WriteZero"), (storageFull, "StorageFull"), (notSeekable, "NotSeekable"),
    (quotaExceeded, "QuotaExceeded"), (fileTooLarge, "FileTooLarge"),
    (resourceBusy, "ResourceBusy"), (executableFileBusy, "ExecutableFileBusy"),
    (deadlock, "Deadlock"), (crossesDevices, "CrossesDevices"), (tooManyLinks, "TooManyLinks"),
    (invalidFilename, "InvalidFilename"), (argumentListTooLong, "ArgumentListTooLong"),
    (interrupted, "Interrupted"), (unsupported, "Unsupported"), (unexpectedEof, "UnexpectedEof"),
    (outOfMemory, "OutOfMemory"), (other, "Other")]

def name (k : ErrorKind) : String :=
  ((names.find? (·.1 = k)).map (·.2)).getD "Other"

/-- The kind of a name; every other name is of the kind `other`. -/
def ofName (s : String) : ErrorKind :=
  ((names.find? (·.2 = s)).map (·.1)).getD .other

end ErrorKind

/-- A failed input or output operation: its kind and what is said of it. -/
structure IoError where
  kind : ErrorKind
  message : String
  deriving DecidableEq

/-! ## Errors of an endpoint -/

/-- Why an endpoint operation failed. -/
inductive SyncError where
  /-- An operation of the storage failed on the node at a canonical path. -/
  | storage (path : String) (source : IoError)
  /-- There is no node. -/
  | notFound (path : String)
  /-- The operation does not make sense for its arguments. -/
  | invalidInput (message : String)
  /-- The storage of an endpoint could not be reached when the endpoint was opened. -/
  | unreachable (root : NativePath) (source : IoError)
  /-- Notifications for a path could not be had. -/
  | subscription (path reason : String)
  /-- The source of notifications failed while it ran. -/
  | notification (message : String)
  /-- The path has a live session already. -/
  | alreadyWatching (path : String)
  /-- Settings or patterns are wrong. -/
  | config (message : String)
  /-- A value could not be read or written in its format. -/
  | serialization (message : String)
  deriving DecidableEq

namespace SyncError

/-- A failure of the storage on a node; that a node is missing is an error of its own. -/
def ofStorage (path : String) (source : IoError) : SyncError :=
  if source.kind = .notFound then .notFound path else .storage path source

/-- Whether a node was missing. -/
def isNotFound : SyncError → Bool
  | .notFound _ => true
  | _ => false

/-- The name of the case. -/
def name : SyncError → String
  | .storage _ _ => "Storage"
  | .notFound _ => "NotFound"
  | .invalidInput _ => "InvalidInput"
  | .unreachable _ _ => "Unreachable"
  | .subscription _ _ => "Subscription"
  | .notification _ => "Notification"
  | .alreadyWatching _ => "AlreadyWatching"
  | .config _ => "Config"
  | .serialization _ => "Serialization"

def message : SyncError → String
  | .storage path source => "Storage error on " ++ path ++ ": " ++ source.message
  | .notFound path => "Not found: " ++ path
  | .invalidInput message => "Invalid input: " ++ message
  | .unreachable root source =>
    "Unreachable block storage " ++ root.display ++ ": " ++ source.message
  | .subscription path reason => "Failed to subscribe to " ++ path ++ ": " ++ reason
  | .notification message => "Notification error: " ++ message
  | .alreadyWatching path => "Already watching " ++ path
  | .config message => "Configuration error: " ++ message
  | .serialization message => "Serialization error: " ++ message

/-- The wording of the error below an error, if there is one. -/
def source? : SyncError → Option String
  | .storage _ source => some source.message
  | .unreachable _ source => some source.message
  | .serialization message => some message
  | _ => none

/-- The wording of an error and of the one below it. -/
def chain (e : SyncError) : String :=
  match e.source? with
  | none => e.message
  | some s => e.message ++ ": " ++ s

end SyncError

end SyncEndpoint
