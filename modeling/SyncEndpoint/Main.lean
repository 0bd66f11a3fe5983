import SyncEndpoint.Cli.Run

set_option autoImplicit false

/-! # The executable

Reads the part of the file system that a command works on into a disk, runs the command on it, and
writes back what the command has changed. A watch looks again and again. -/

namespace SyncEndpoint.Main

/-- How many levels of directories are read. -/
def mostLevels : Nat := 255

/-- A time of the file system. -/
def timeOf (t : IO.FS.SystemTime) : Timestamp :=
  (Timestamp.make? t.sec t.nsec.toNat).getD ⟨0, 0⟩

/-- Reads what stands at a path into a disk. -/
def readTree : Nat → Disk → String → IO Disk
  | 0, d, _ => pure d
  | level + 1, d, path => do
    let at? ← (IO.FS.realPath path).toBaseIO
    match at? with
    | .error _ => pure d
    | .ok real =>
      match ← real.metadata.toBaseIO with
      | .error _ => pure d
      | .ok md =>
        let p := NativePath.ofString path
        let d ← match md.type with
          | .dir =>
            (← real.readDir).foldlM (fun d entry => readTree level d (path ++ "/" ++ entry.fileName))
              (d.makeDirectories p).2
          | .file => do
            let bytes ← IO.FS.readBinFile path
            let d := (d.makeDirectories ((NativePath.parent? p).getD [])).2
            pure ((d.putContent p bytes.toList).toOption.getD d)
          | _ => pure d
        pure ((d.setModified p (timeOf md.modified)).toOption.getD d)

/-- The files below a directory of a disk. -/
def filesBelow (d : Disk) : Nat → NativePath → List (NativePath × Disk.Metadata)
  | 0, _ => []
  | level + 1, path =>
    ((d.list path).toOption.getD []).flatMap fun name =>
      let inner := NativePath.join path name
      ((d.metadata inner).toOption.map (inner, ·)).toList ++ filesBelow d level inner

/-- Writes the files that have changed between two disks. -/
def writeBack (old new : Disk) : IO Unit := do
  for (path, md) in filesBelow new mostLevels [NativePath.slash] do
    if !md.isDirectory then
      match new.contentOf path with
      | .error _ => pure ()
      | .ok bytes =>
        if (old.contentOf path).toOption != some bytes then
          if let some dir := NativePath.parent? path then
            IO.FS.createDirAll (NativePath.display dir)
          IO.FS.writeBinFile (NativePath.display path) ⟨bytes.toArray⟩

/-- The raw events that lead from one disk to another, below a directory. -/
def changesBelow (old new : Disk) (root : NativePath) : List Watch.RawEvent :=
  let before := filesBelow old mostLevels root
  let after := filesBelow new mostLevels root
  let gone := before.filter fun (path, _) => !(new.linkMetadata path).isOk
  let changed := after.flatMap fun (path, md) =>
    match old.linkMetadata path with
    | .error _ => Watch.rawEvents .create [path]
    | .ok previous =>
      if !md.isDirectory && (md.modified != previous.modified || md.length != previous.length) then
        Watch.rawEvents .modify [path]
      else []
  gone.flatMap (fun (path, _) => Watch.rawEvents .remove [path]) ++ changed

/-- The variables that the program looks at. -/
def readEnvironment : IO Environment := do
  let names := ["HOME", Environment.configPathVariable, Environment.logLevelVariable,
    Environment.rootVariable, Environment.bufferCapacityVariable]
  let bindings ← names.filterMapM fun name => do
    pure ((← IO.getEnv name).map fun value => (name, NativePath.ofString value))
  pure { bindings }

/-- The paths that arguments are about: the files of the settings, and the root. -/
def pathsOf (environment : Environment) (d : Disk) (i : Cli.Invocation) : List NativePath :=
  let root := match i.command with
    | .watch root _ | .walk root _ | .info root => root
    | .cat root _ => some root
    | _ => none
  let set := (Cli.settings ⟨d, environment, 0⟩ i.config).toOption.bind Settings.root
  [i.config.getD environment.configPath, environment.configPath] ++ (root <|> set).toList

/-- A disk whose time is that of the newest file on it. -/
def stamped (d : Disk) : Disk :=
  let newest := (filesBelow d mostLevels [NativePath.slash]).foldl (fun t (_, md) =>
    if t.seconds < md.modified.seconds then md.modified else t) d.now
  { d with now := newest }

/-- Reads the paths that arguments are about, those of the settings first. -/
def readFor (environment : Environment) (empty : Disk) (args : List Bytes) : IO Disk := do
  match Cli.Invocation.ofArguments args (environment.get? Environment.configPathVariable) with
  | .error _ => pure empty
  | .ok i =>
    let readAll (d : Disk) : IO Disk :=
      (pathsOf environment d i).foldlM (fun d p => readTree mostLevels d (NativePath.display p)) d
    stamped <$> readAll (← readAll empty)

/-- Prints the errors of a watch that have come since the last look, and forgets them. -/
def printErrors (live : Watch.Live) : IO Watch.Live := do
  for error in (live.pipeline?.map (·.session.errors)).getD [] do
    IO.eprintln (Cli.errorLine error)
  pure (live.update fun p => { p with session := { p.session with errors := [] } })

/-- Prints the events of a watch that have come since the last look, and goes on looking. -/
def follow (environment : Environment) (empty : Disk) (args : List Bytes) (start : Watch.Live) :
    IO Unit := do
  let mut live := start
  repeat
    IO.sleep 500
    let disk ← readFor environment empty args
    let raw := changesBelow live.disk disk (live.endpoint.physicalRoot.getD [])
    let (events, next) := ({ live with disk }.send raw).takeEvents
    for event in events do
      IO.println (Cli.eventLine event)
    (← IO.getStdout).flush
    live ← printErrors next

end SyncEndpoint.Main

open SyncEndpoint in
/-- Runs the program on its arguments. -/
def main (arguments : List String) : IO UInt32 := do
  let environment ← Main.readEnvironment
  let here ← IO.currentDir
  let directory := NativePath.ofString here.toString
  let empty := ((Disk.empty ⟨0, 0⟩ directory).makeDirectories directory).2
  let args := arguments.map NativePath.ofString
  let disk ← Main.readFor environment empty args
  let seed ← IO.rand 0 (Nat.pow 2 122 - 1)
  let (outcome, host) := Cli.run ⟨disk, environment, seed⟩ args
  Main.writeBack disk host.disk
  let output ← IO.getStdout
  output.write ⟨outcome.output.toArray⟩
  output.flush
  outcome.complaints.forM IO.eprintln
  if let some live := outcome.live then
    Main.follow environment empty args live
  pure (UInt32.ofNat outcome.exit)
