import SyncEndpoint.Cli.Arguments
import SyncEndpoint.Endpoint.Walk
import SyncEndpoint.Json.Printer
import SyncEndpoint.Settings.Files
import SyncEndpoint.Watch.Live

set_option autoImplicit false

/-! # The program

What the program does for its arguments, on a disk and in an environment. -/

namespace SyncEndpoint.Cli

open Storage

/-- Where the program runs. -/
structure Host where
  disk : Disk
  environment : Environment
  /-- How many identifiers have been minted. -/
  minted : Nat := 0

structure Outcome where
  /-- The exit code. -/
  exit : Nat := 0
  output : Bytes := []
  /-- The lines of the error output. -/
  complaints : List String := []
  /-- The watch that goes on, if the program has started one. -/
  live : Option Watch.Live := none

/-! ## Failures -/

/-- Why the program fails. -/
inductive Failure where
  | noRoot
  | configTaken (path : NativePath)
  | sync (e : SyncError)
  | watch (subPath : String) (root : NativePath) (e : SyncError)

/-- The wording of a failure with what is below it. -/
def Failure.message : Failure → String
  | .noRoot => "No root given and endpoint.root is not configured"
  | .configTaken path =>
    "Configuration already exists at " ++ path.display ++ " (use --force to overwrite)"
  | .sync e => e.chain
  | .watch subPath root e =>
    "Failed to watch " ++ subPath ++ " under " ++ root.display ++ ": " ++ e.chain

def Failure.outcome (f : Failure) : Outcome :=
  { exit := 1, complaints := ["Error: " ++ f.message] }

def versionLine : String := "tandem 0.1.0\n"

/-- What is said of the program to those who ask. -/
def usage : String :=
  "Usage: tandem [--verbose] [--config PATH] COMMAND\n\nCommands: " ++
    String.intercalate ", " (Level.program.commands.map (·.1)) ++ "\n"

/-- The outcome of arguments for which nothing runs. -/
def Halt.outcome : Halt → Outcome
  | .help => { output := Text.Utf8.encode usage }
  | .version => { output := Text.Utf8.encode versionLine }
  | .misuse => { exit := 2 }

/-! ## Settings -/

/-- The settings in force: those of the named file, if it is there. -/
def settings (h : Host) (config : Option NativePath) : Except Settings.Problem Settings :=
  match config.filter h.disk.has with
  | some path => do
    let s ← Settings.load h.disk path
    s.complete h.environment
  | none => Settings.loadOrDefault h.disk h.environment

/-- The root that is given or set. -/
def rootOf (root : Option NativePath) (s : Settings) : Except Failure NativePath :=
  match root <|> s.root with
  | some root => .ok root
  | none => .error .noRoot

/-! ## Commands on an endpoint -/

/-- Opens the endpoint and goes on with it. -/
def withEndpoint {α : Type} (h : Host) (root : NativePath) (s : Settings)
    (f : NativePath → Endpoint → Program (Nat × Nat) (Nat × Nat) (Except SyncError α)) :
    Except Failure α × Host :=
  let root := h.disk.resolveRoot root
  let program : Attempt (Nat × Nat) (Nat × Nat) SyncError α := do
    let e ← Endpoint.openOnDisk root s.ignorePatterns s.bufferCapacity s.eventChannelCapacity
    f root e
  let (result, w) := h.disk.run root h.minted program.run
  (result.mapError .sync, { h with disk := w.storage, minted := w.minted })

/-- The line of a visit, or what is to be said of its failure. -/
def lineOf (v : Endpoint.Visit) : Except String String :=
  match v.node with
  | .ok node => .ok node.toJson.compact
  | .error e => .error (v.path ++ ": " ++ e.message)

/-- The outcome of a walk: a line for each node, and one on the error output for each failure. -/
def walkOutcome (visits : List Endpoint.Visit) : Outcome :=
  let lines := visits.map lineOf
  { output := Text.Utf8.encode (String.join (lines.filterMap fun
      | .ok line => some (line ++ "\n")
      | .error _ => none))
    complaints := lines.filterMap fun
      | .ok _ => none
      | .error line => some line }

/-- The line of an event. The members are in the order of their names. -/
def eventLine (e : ChangeEvent) : String :=
  (Json.ofMembers <|
    (e.isFolder.map fun b => ("is_folder", Json.bool b)).toList ++
    [("path", .ofString e.path)] ++
    (e.size.map fun n => ("size", Json.ofNat n.toNat)).toList ++
    [("time", .ofString e.timestamp), ("type", .ofString e.changeType.name)]).compact

/-- What is said of an error of a watch. -/
def errorLine (e : SyncError) : String :=
  "error: " ++ e.message

/-- The number of the only endpoint of a run. -/
def onlyEndpoint : EndpointRef := 1

def startWatch (h : Host) (root : NativePath) (subPath : String) (s : Settings) :
    Except Failure Outcome × Host :=
  match withEndpoint h root s (fun _ e => pure (.ok e)) with
  | (.error x, h) => (.error x, h)
  | (.ok e, h) =>
    match (Watch.Live.start h.disk e onlyEndpoint subPath {}).1 with
    | .error x => (.error (.watch subPath root x), h)
    | .ok live => (.ok { live }, h)

/-! ## Commands on settings -/

/-- Writes the settings that hold where nothing is set. -/
def initConfig (h : Host) (path : NativePath) (force : Bool) : Except Failure Outcome × Host :=
  if h.disk.has path && !force then (.error (.configTaken path), h)
  else
    match Settings.default.save h.disk path with
    | (.error p, disk) => (.error (.sync p.toSyncError), { h with disk })
    | (.ok (), disk) =>
      (.ok { output := Text.Utf8.encode ("Configuration written to " ++ path.display ++ "\n") },
        { h with disk })

/-! ## Running -/

/-- Does a command. -/
def perform (h : Host) (i : Invocation) (s : Settings) : Except Failure Outcome × Host :=
  let output (bytes : Bytes) : Outcome := { output := bytes }
  let on (root : Option NativePath)
      (f : NativePath → Except Failure Outcome × Host) : Except Failure Outcome × Host :=
    match rootOf root s with
    | .ok root => f root
    | .error x => (.error x, h)
  match i.command with
  | .watch root subPath => on root fun root => startWatch h root subPath s
  | .walk root paths => on root fun root =>
    let (result, h) := withEndpoint h root s fun _ e => .ok <$> e.walk paths
    (result.map walkOutcome, h)
  | .cat root path =>
    let (result, h) := withEndpoint h root s fun _ _ => (Endpoint.readAll path).run
    (result.map output, h)
  | .info root => on root fun root =>
    let (result, h) := withEndpoint h root s fun _ _ => pure (.ok Endpoint.info)
    (result.map fun info => output (Text.Utf8.encode (info.toJson.indented ++ "\n")), h)
  | .configShow =>
    (((s.toDocument).mapError fun p => .sync p.toSyncError).map fun text =>
      output (Text.Utf8.encode text), h)
  | .configInit force => initConfig h (i.config.getD h.environment.configPath) force

/-- Runs the program. -/
def run (h : Host) (args : List Bytes) : Outcome × Host :=
  match Invocation.ofArguments args (h.environment.get? Environment.configPathVariable) with
  | .error halt => (halt.outcome, h)
  | .ok i =>
    match settings h i.config with
    | .error p => ((Failure.sync p.toSyncError).outcome, h)
    | .ok s =>
      match perform h i s with
      | (.ok outcome, h) => (outcome, h)
      | (.error f, h) => (f.outcome, h)

end SyncEndpoint.Cli
