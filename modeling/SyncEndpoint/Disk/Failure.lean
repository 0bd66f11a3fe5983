import SyncEndpoint.Error

set_option autoImplicit false

/-! # Failures of a disk

The ways in which an operation on a disk fails. Each has a number, a wording and a kind. -/

namespace SyncEndpoint.Disk

/-- Why an operation on a disk failed. -/
inductive Failure where
  | noEntry
  | taken
  | notDirectory
  | isDirectory
  | invalid
  | nameTooLong
  | notEmpty
  | loop
  /-- A path holds a zero byte; no number stands for it. -/
  | zeroByte
  deriving DecidableEq

namespace Failure

def kind : Failure → ErrorKind
  | .noEntry => .notFound
  | .taken => .alreadyExists
  | .notDirectory => .notADirectory
  | .isDirectory => .isADirectory
  | .invalid => .invalidInput
  | .nameTooLong => .invalidFilename
  | .notEmpty => .directoryNotEmpty
  | .loop => .filesystemLoop
  | .zeroByte => .invalidInput

def numbered (text : String) (number : Nat) : String :=
  text ++ " (os error " ++ toString number ++ ")"

def message : Failure → String
  | .noEntry => numbered "No such file or directory" 2
  | .taken => numbered "File exists" 17
  | .notDirectory => numbered "Not a directory" 20
  | .isDirectory => numbered "Is a directory" 21
  | .invalid => numbered "Invalid argument" 22
  | .nameTooLong => numbered "File name too long" 36
  | .notEmpty => numbered "Directory not empty" 39
  | .loop => numbered "Too many levels of symbolic links" 40
  | .zeroByte => "file name contained an unexpected NUL byte"

/-- A failure as an error of input and output. -/
def toIoError (f : Failure) : IoError :=
  ⟨f.kind, f.message⟩

end Failure

end SyncEndpoint.Disk
