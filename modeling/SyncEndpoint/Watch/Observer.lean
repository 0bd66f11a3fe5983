import SyncEndpoint.Disk.Action
import SyncEndpoint.Watch.Notification

set_option autoImplicit false

/-! # Observers

A source of notifications for a disk. An observer watches nodes of the disk, each under the path it
was found by: a single file, or a directory with all directories below it. What happens to an entry
of a watched directory is reported under the directory's path, and so is what happens to a watched
node itself. Directories that arrive are watched after the actions of a batch, and those that go are
forgotten then. -/

namespace SyncEndpoint.Watch

structure Observer where
  /-- The numbers of the watched nodes, each with the path that it is known by. -/
  watched : List (Nat × NativePath) := []
  /-- The node that the watch was asked for. Its own moves are reported, too. -/
  top : Option Nat := none

/-- What an observer reports of an action. -/
structure Report where
  kind : NotificationKind
  paths : List NativePath
  /-- A path from which a directory has gone. -/
  departed : Option NativePath := none
  /-- A path at which a directory has arrived. -/
  arrived : Option NativePath := none

namespace Observer

/-- Watches a node, under the path it was found by last. -/
def add (o : Observer) (inode : Nat) (path : NativePath) : Observer :=
  { o with watched := o.watched.filter (·.1 != inode) ++ [(inode, path)] }

/-- The path of a watched node. -/
def pathOf? (o : Observer) (inode : Nat) : Option NativePath :=
  (o.watched.find? (·.1 == inode)).map (·.2)

/-! ## Registering -/

/-- The directories at and below a path, through links, at most `depth` levels down. A directory
that is entered from inside of itself is left out. -/
def directories (d : Disk) : Nat → List Nat → NativePath → List (Nat × NativePath)
  | 0, _, _ => []
  | depth + 1, inside, path =>
    match d.find true path with
    | .error _ => []
    | .ok i =>
      if !d.isDirectory i || inside.contains i then []
      else
        (i, path) :: (d.entries i).flatMap fun (name, _) =>
          directories d depth (i :: inside) (NativePath.join path name)

/-- Watches a directory with all directories below it. -/
def addTree (o : Observer) (d : Disk) (path : NativePath) : Observer :=
  (directories d (d.inodes.length + 1) [] path).foldl (fun o (i, path) => o.add i path) o

/-- The wording of the failure to look at the path that is to be watched. -/
def reasonOf : Disk.Failure → String
  | .noEntry => "No path was found."
  | f => f.message

/-- An observer of a path, or why there can be none. -/
def register (d : Disk) (path : NativePath) : Except String Observer :=
  match d.find true path with
  | .error f => .error (reasonOf f)
  | .ok i =>
    let o : Observer := { top := some i }
    .ok (if d.isDirectory i then o.addTree d path else o.add i path)

/-! ## Reporting -/

/-- The path of an entry of a watched directory. -/
def entryPath? (o : Observer) (p : Disk.Place) : Option NativePath := do
  pure (NativePath.join (← o.pathOf? p.directory) (← p.name?))

/-- The path of an entry, if a directory stands there. -/
def directoryPath? (o : Observer) (d : Disk) (p : Disk.Place) : Option NativePath := do
  if d.isDirectory (← p.inode?) then o.entryPath? p else none

/-- Reports something of a path, if it is seen. -/
def reportOf (kind : NotificationKind) (path : Option NativePath) : List Report :=
  path.toList.map fun path => { kind, paths := [path] }

/-- Reports a change of content or of attributes, for the entry and for the node itself. -/
def modified (o : Observer) (p : Disk.Place) : List Report :=
  reportOf .modify (o.entryPath? p) ++ reportOf .modify (p.inode?.bind o.pathOf?)

/-- Reports that the node that the watch was asked for has moved. -/
def topMoved (o : Observer) (p : Disk.Place) : List Report :=
  if o.top.isSome && p.inode? = o.top then reportOf .modifyName (o.top.bind o.pathOf?) else []

def renamed (o : Observer) (d : Disk) (old new : Disk.Place) : List Report :=
  let departed := o.directoryPath? d old
  let arrived := if departed.isSome || (old.inode?.map d.isDirectory).getD false then
    o.entryPath? new else none
  o.topMoved old ++ match o.entryPath? old, o.entryPath? new with
  | some source, some target =>
    [{ kind := .modifyName, paths := [source], departed },
      { kind := .modifyName, paths := [target], arrived },
      { kind := .modifyName, paths := [source, target] }]
  | some source, none => [{ kind := .modifyName, paths := [source], departed }]
  | none, some target => [{ kind := .modifyName, paths := [target], arrived }]
  | none, none => []

/-- What is reported of an action that the disk `d` lets happen. -/
def reportsOf (o : Observer) (d : Disk) (a : Disk.Action) : Except Disk.Failure (List Report) :=
  match a with
  | .write path data => do
    let p ← d.locate true path
    pure <| match p.inode? with
      | some _ => o.modified p
      | none =>
        reportOf .create (o.entryPath? p) ++
          (if data.isEmpty then [] else reportOf .modify (o.entryPath? p))
  | .makeDirectory path => do
    let p ← d.locate false path
    pure ((o.entryPath? p).toList.map fun path =>
      { kind := .create, paths := [path], arrived := some path })
  | .makeLink path _ => do
    pure (reportOf .create (o.entryPath? (← d.locate false path)))
  | .removeFile path => do
    pure (reportOf .remove (o.entryPath? (← d.locate false path)))
  | .removeDirectory path => do
    let p ← d.locate false path
    pure ((o.entryPath? p).toList.map fun path =>
      { kind := .remove, paths := [path], departed := some path })
  | .rename source target => do
    let old ← d.locate false (Disk.withoutEnd source)
    let new ← d.locate false (Disk.withoutEnd target)
    pure (if old.inode? = new.inode? then [] else o.renamed d old new)
  | .setPermissions path _ => do
    pure (o.modified (← d.locate true path))

/-- Does an action: what is reported of it, and the disk after it. One that fails does nothing. -/
def watchAction (o : Observer) (d : Disk) (a : Disk.Action) : List Report × Disk :=
  match d.perform a, o.reportsOf d a with
  | .ok d', .ok reports => (reports, d')
  | .ok d', .error _ => ([], d')
  | .error _, _ => ([], d)

/-- Does actions one after the other. -/
def watchActions (o : Observer) (d : Disk) : List Disk.Action → List Report × Disk
  | [] => ([], d)
  | a :: as =>
    let (reports, d) := o.watchAction d a
    let (more, d) := watchActions o d as
    (reports ++ more, d)

/-! ## Following directories -/

/-- Forgets a path and all below it. -/
def forget (o : Observer) (path : NativePath) : Observer :=
  { o with watched := o.watched.filter fun (_, p) => (NativePath.below? p path).isNone }

/-- Forgets the directories that have gone, and then watches those that have arrived. -/
def follow (o : Observer) (d : Disk) (reports : List Report) : Observer :=
  let o := (reports.filterMap (·.departed)).foldl forget o
  (reports.filterMap (·.arrived)).foldl (fun o path => o.addTree d path) o

end Observer

def rawEventsOf (reports : List Report) : List RawEvent :=
  reports.flatMap fun r => rawEvents r.kind r.paths

end SyncEndpoint.Watch
