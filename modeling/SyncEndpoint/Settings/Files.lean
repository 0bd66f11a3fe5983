import SyncEndpoint.Disk.Operations
import SyncEndpoint.Settings.Document
import SyncEndpoint.Settings.Environment

set_option autoImplicit false

/-! # Settings on disk

Loading settings from a file, saving them by way of a second file, and finding the ones in force:
those of the file where there is one, and those of the environment on top. -/

namespace SyncEndpoint.Settings

/-- Why settings cannot be had or kept. -/
inductive Problem where
  | defect (d : Defect)
  | notDocument
  | rootNotText
  | badCapacity (e : Text.NumeralError)
  | unreadable (path : NativePath) (reason : String)
  | directoryNotMade (f : Disk.Failure)
  | notWritten (f : Disk.Failure)
  | notRenamed (f : Disk.Failure)

namespace Problem

/-- The wording of a problem. What the reader of documents has to say is left out. -/
def message : Problem → String
  | .defect d => d.message
  | .notDocument => "Failed to parse config: "
  | .rootNotText => "Failed to serialize config: path contains invalid UTF-8 characters"
  | .badCapacity e => "Invalid buffer capacity in environment: " ++ e.message
  | .unreadable path reason => "Failed to read " ++ path.display ++ ": " ++ reason
  | .directoryNotMade f => "Failed to create config directory: " ++ f.message
  | .notWritten f => "Failed to write config file: " ++ f.message
  | .notRenamed f => "Failed to rename config file: " ++ f.message

/-- A problem as an error of the library. -/
def toSyncError (p : Problem) : SyncError :=
  .config p.message

end Problem

/-- Checks that settings are fit for use. -/
def validate (s : Settings) : Except Problem Unit :=
  match s.defect? with
  | some d => .error (.defect d)
  | none => .ok ()

def toDocument (s : Settings) : Except Problem String :=
  match s.toText? with
  | some text => .ok text
  | none => .error .rootNotText

def ofDocument (text : String) : Except Problem Settings :=
  match ofText? text with
  | some s => .ok s
  | none => .error .notDocument

/-- Loads settings that are fit for use. -/
def load (d : Disk) (path : NativePath) : Except Problem Settings := do
  let bytes ← (d.contentOf path).mapError fun f => .unreadable path f.message
  match Text.Utf8.decode? bytes with
  | none => .error (.unreadable path "stream did not contain valid UTF-8")
  | some text =>
    let s ← ofDocument text
    s.validate
    pure s

/-- The name of the file that is written first. -/
def temporaryPath (path : NativePath) : NativePath :=
  NativePath.withExtension path (NativePath.ofString "toml.tmp")

/-- Makes the directory of a file, if it is missing. -/
def ensureParent (d : Disk) (path : NativePath) : Except Disk.Failure Unit × Disk :=
  match NativePath.parent? path with
  | some (b :: bs) => if d.has (b :: bs) then (.ok (), d) else d.makeDirectories (b :: bs)
  | _ => (.ok (), d)

/-- Saves settings: writes them beside the file, and then puts that in its place. -/
def save (s : Settings) (d : Disk) (path : NativePath) : Except Problem Unit × Disk :=
  match s.validate with
  | .error p => (.error p, d)
  | .ok () =>
    match ensureParent d path with
    | (.error f, d) => (.error (.directoryNotMade f), d)
    | (.ok (), d) =>
      match s.toDocument with
      | .error p => (.error p, d)
      | .ok text =>
        match d.putContent (temporaryPath path) (Text.Utf8.encode text) with
        | .error f => (.error (.notWritten f), d)
        | .ok d =>
          match d.rename (temporaryPath path) path with
          | .error f => (.error (.notRenamed f), d)
          | .ok d => (.ok (), d)

/-- Settings with those of the environment on top, which have to be fit for use. -/
def complete (s : Settings) (e : Environment) : Except Problem Settings :=
  match s.merge e with
  | (.error problem, _) => .error (.badCapacity problem)
  | (.ok (), s) => do
    s.validate
    pure s

/-- The settings in force. -/
def loadOrDefault (d : Disk) (e : Environment) : Except Problem Settings := do
  let s ← if d.has e.configPath then load d e.configPath else pure default
  s.complete e

end SyncEndpoint.Settings
