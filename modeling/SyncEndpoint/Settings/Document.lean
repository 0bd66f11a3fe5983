import SyncEndpoint.Settings.Basic
import SyncEndpoint.Toml.Document
import SyncEndpoint.Toml.Printer

set_option autoImplicit false

/-! # Settings as a document

Settings are written as three sections, and read from any document that has the right values in
the right places. A section that is left out has its default values; so has a key, except for the
log level. A section may be written as a table or as an array of its values in order. -/

namespace SyncEndpoint.Settings

open Toml (Value Members Section)

/-! ## Writing -/

/-- The sections of settings, if the root is text. -/
def sections? (s : Settings) : Option (List Section) := do
  let root ← match s.root with
    | none => some []
    | some path => (Text.Utf8.decode? path).map fun text => [("root", Toml.Plain.text text)]
  pure
    [⟨"general", [("log_level", .text s.logLevel)]⟩,
      ⟨"endpoint", root⟩,
      ⟨"watch",
        [("buffer_capacity", .number s.bufferCapacity.toNat),
          ("event_channel_capacity", .number s.eventChannelCapacity.toNat),
          ("ignore_patterns", .texts s.ignorePatterns)]⟩]

/-- The document of settings, if the root is text. -/
def toText? (s : Settings) : Option String :=
  s.sections?.map Toml.writeSections

/-! ## Reading -/

/-- Whether an integer fits into 128 bits, with or without a sign. -/
def isIntegerReadable (n : Int) : Bool :=
  -Int.ofNat (Nat.pow 2 127) ≤ n && n < Int.ofNat (Nat.pow 2 128)

mutual

/-- Whether a value that is passed over is one that could be taken: its numbers are not too
large. -/
def isReadable : Value → Bool
  | .integer n => isIntegerReadable n
  | .float literal => Toml.Scalar.fitsDouble literal
  | .array items => areReadable items
  | .table _ members => areMembersReadable members
  | .tables items => areTablesReadable items
  | _ => true

def areReadable : List Value → Bool
  | [] => true
  | v :: vs => isReadable v && areReadable vs

def areMembersReadable : List (String × Value) → Bool
  | [] => true
  | (_, v) :: ms => isReadable v && areMembersReadable ms

def areTablesReadable : List (List (String × Value)) → Bool
  | [] => true
  | ms :: rest => areMembersReadable ms && areTablesReadable rest

end

/-- The values of a section's keys, as far as they are given. -/
def sectionValues? (keys : List String) : Value → Option (List (Option Value))
  | .table _ members =>
    if (members.filter fun m => !keys.contains m.1).all (isReadable ·.2) then
      some (keys.map (Members.get? members))
    else none
  | .array items => some ((List.range keys.length).map (items[·]?))
  | .tables items =>
    some ((List.range keys.length).map fun i => items[i]?.map (Value.table .header))
  | .time _ => some (keys.map fun _ => none)
  | _ => none

def text? : Value → Option String
  | .text s => some s
  | _ => none

def capacity? : Value → Option UInt64
  | .integer n => if 0 ≤ n ∧ n < UInt64.size then some (UInt64.ofNat n.toNat) else none
  | _ => none

def texts? : Value → Option (List String)
  | .array items => items.mapM text?
  | _ => none

def orDefault {α : Type} (read : Value → Option α) (default : α) : Option Value → Option α
  | none => some default
  | some v => read v

/-- Reads the section of the log level. -/
def readGeneral? (v : Value) (s : Settings) : Option Settings := do
  match ← sectionValues? ["log_level"] v with
  | [some level] => pure { s with logLevel := ← text? level }
  | _ => none

/-- Reads the section of the root. -/
def readEndpoint? (v : Value) (s : Settings) : Option Settings := do
  match ← sectionValues? ["root"] v with
  | [root] =>
    let root ← orDefault (fun v => (text? v).map some) none root
    pure { s with root := root.map NativePath.ofString }
  | _ => none

/-- Reads the section of the watch. -/
def readWatch? (v : Value) (s : Settings) : Option Settings := do
  match ← sectionValues? ["buffer_capacity", "event_channel_capacity", "ignore_patterns"] v with
  | [buffer, events, patterns] =>
    pure
      { s with
        bufferCapacity := ← orDefault capacity? default.bufferCapacity buffer
        eventChannelCapacity := ← orDefault capacity? default.eventChannelCapacity events
        ignorePatterns := ← orDefault texts? default.ignorePatterns patterns }
  | _ => none

/-- Reads a section with a given reader; a section that is left out changes nothing. -/
def readSection? (ms : Members) (name : String) (read : Value → Settings → Option Settings)
    (s : Settings) : Option Settings :=
  match ms.get? name with
  | none => some s
  | some v => read v s

def sectionNames : List String := ["general", "endpoint", "watch"]

def ofMembers? (ms : Members) : Option Settings := do
  if (ms.filter fun m => !sectionNames.contains m.1).all (isReadable ·.2) then
    let s ← readSection? ms "general" readGeneral? default
    let s ← readSection? ms "endpoint" readEndpoint? s
    readSection? ms "watch" readWatch? s
  else none

def ofText? (text : String) : Option Settings :=
  (Toml.Document.parse? text).bind ofMembers?

end SyncEndpoint.Settings
