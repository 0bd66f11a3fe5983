import SyncEndpoint.Storage.Call

set_option autoImplicit false

/-! # Storage in memory

A flat map from keys to entries; the empty key is the root. What is new is stamped with the time, for
which the clock is looked at once. A rename moves the one entry it names, so a directory that has
something in it cannot be renamed. An open file for reading is the content
it had when it was opened; one for writing is its key, and what is written goes to the file that
has this key then. -/

namespace SyncEndpoint.Storage

/-- What a key stands for. -/
inductive Entry where
  | dir (modified : Timestamp)
  | file (data : Bytes) (modified : Timestamp)
  deriving DecidableEq

namespace Entry

def isDir : Entry → Bool
  | .dir _ => true
  | .file _ _ => false

def fileMode : UInt32 := 0o644
def dirMode : UInt32 := 0o755

def metadata : Entry → Metadata
  | .dir modified => ⟨true, 0, some modified, dirMode⟩
  | .file data modified => ⟨false, UInt64.ofNat data.length, some modified, fileMode⟩

end Entry

structure Memory where
  /-- The entries; each key has one at most. -/
  entries : List (Key × Entry)
  /-- What the clock shows at each look at it. -/
  clock : Nat → Timestamp
  /-- How often the clock was looked at. -/
  looks : Nat := 0

namespace Memory

/-- A storage with nothing but its root, which is new. -/
def new (clock : Nat → Timestamp) : Memory where
  entries := [([], .dir (clock 0))]
  clock := clock
  looks := 1

/-- A new storage whose clock stands still. -/
def empty (now : Timestamp) : Memory :=
  new fun _ => now

/-- What the clock shows. -/
def now (m : Memory) : Timestamp :=
  m.clock m.looks

/-! ## The map -/

def get? (m : Memory) (key : Key) : Option Entry :=
  (m.entries.find? (·.1 == key)).map (·.2)

/-- Takes an entry out. -/
def erase (m : Memory) (key : Key) : Memory :=
  { m with entries := m.entries.filter (·.1 != key) }

/-- Puts an entry in, in place of the one that has its key. -/
def insert (m : Memory) (key : Key) (entry : Entry) : Memory :=
  { m with entries := (key, entry) :: (m.erase key).entries }

/-- Puts in an entry that is stamped with the time; the clock goes on. -/
def stamp (m : Memory) (key : Key) (entry : Timestamp → Entry) : Memory :=
  { m.insert key (entry m.now) with looks := m.looks + 1 }

/-- The number of entries, the root included. -/
def size (m : Memory) : Nat :=
  m.entries.length

/-- Whether there is nothing besides the root. -/
def isEmpty (m : Memory) : Bool :=
  m.size ≤ 1

/-- The key of the directory that a key is in; the root is in none. -/
def parentKey? : Key → Option Key
  | [] => none
  | name :: names => some (name :: names).dropLast

/-- Whether something lies below a key. -/
def hasChildren (m : Memory) (key : Key) : Bool :=
  m.entries.any fun (k, _) => k != key && key.isPrefixOf k

/-! ## Errors -/

/-- The name of a key, as it is shown. -/
def display (key : Key) : String :=
  "/" ++ NativePath.display (NativePath.ofNames key)

def notFound (key : Key) : IoError :=
  ⟨.notFound, "no such entry: " ++ display key⟩

def notADirectory (key : Key) : IoError :=
  ⟨.notADirectory, "not a directory: " ++ display key⟩

def isADirectory (key : Key) : IoError :=
  ⟨.isADirectory, "is a directory: " ++ display key⟩

def rootHasNoParent : IoError :=
  ⟨.invalidInput, "root has no parent"⟩

def fileExists (key : Key) : IoError :=
  ⟨.alreadyExists, "file exists: " ++ display key⟩

def sourceNotEmpty (key : Key) : IoError :=
  ⟨.directoryNotEmpty, "cannot rename non-empty directory " ++ display key⟩

def targetNotEmpty (key : Key) : IoError :=
  ⟨.directoryNotEmpty, "destination not empty: " ++ display key⟩

def otherType (key : Key) : IoError :=
  ⟨.alreadyExists, "destination has another type: " ++ display key⟩

/-! ## Looking -/

def stat (m : Memory) (key : Key) : Except IoError Metadata :=
  match m.get? key with
  | some entry => .ok entry.metadata
  | none => .error (notFound key)

/-- Checks that a key is that of a directory. -/
def requireDir (m : Memory) (key : Key) : Except IoError Unit :=
  match m.get? key with
  | some (.dir _) => .ok ()
  | some (.file _ _) => .error (notADirectory key)
  | none => .error (notFound key)

/-- Checks that a key lies in a directory. -/
def requireParent (m : Memory) (key : Key) : Except IoError Unit :=
  match parentKey? key with
  | some parent => m.requireDir parent
  | none => .error rootHasNoParent

def openRead (m : Memory) (key : Key) : Except IoError Bytes :=
  match m.get? key with
  | some (.file data _) => .ok data
  | some (.dir _) => .error (isADirectory key)
  | none => .error (notFound key)

/-- The order of byte strings. -/
def bytesLe (a b : Bytes) : Bool :=
  decide (a ≤ b)

/-- What stands directly in a directory, in the order of the names as they are stored. -/
def children (m : Memory) (key : Key) : List (Bytes × Entry) :=
  let inside := m.entries.filterMap fun (k, entry) =>
    match k.getLast? with
    | some name => if parentKey? k == some key then some (name, entry) else none
    | none => none
  inside.mergeSort fun a b => bytesLe a.1 b.1

/-- The entries of a directory, in the order of the names as they are shown. -/
def readDir (m : Memory) (key : Key) : Except IoError (List Listed) := do
  m.requireDir key
  let listed := (m.children key).map fun (name, entry) =>
    (⟨NativePath.display name, .ok entry.metadata⟩ : Listed)
  pure (listed.mergeSort fun a b => decide (a.name ≤ b.name))

/-! ## Changing -/

/-- Puts an empty file at a key. -/
def create (m : Memory) (key : Key) : Except IoError Memory := do
  m.requireParent key
  match m.get? key with
  | some (.dir _) => .error (isADirectory key)
  | _ => pure (m.stamp key (.file []))

/-- Empties the file at a key. -/
def openWrite (m : Memory) (key : Key) : Except IoError Memory :=
  match m.get? key with
  | some (.file _ _) => .ok (m.stamp key (.file []))
  | some (.dir _) => .error (isADirectory key)
  | none => .error (notFound key)

/-- Adds bytes to the end of the file at a key. -/
def append (m : Memory) (key : Key) (data : Bytes) : Except IoError Memory :=
  match m.get? key with
  | some (.file old _) => .ok (m.stamp key (.file (old ++ data)))
  | _ => .error (notFound key)

/-- Makes the directories below `above` that the names lead through. What was made before a file
is in the way stays. -/
def createDirs (above : Key) : List Bytes → Memory → Except IoError Unit × Memory
  | [], m => (.ok (), m)
  | name :: names, m =>
    let key := above ++ [name]
    match m.get? key with
    | some (.dir _) => createDirs key names m
    | some (.file _ _) => (.error (fileExists key), m)
    | none => createDirs key names (m.stamp key .dir)

/-- Makes a directory with all that is missing above it. -/
def createDirAll (m : Memory) (key : Key) : Except IoError Unit × Memory :=
  createDirs [] key m

/-- Removes an entry with everything below it. The root comes back empty. -/
def removeAll (m : Memory) (key : Key) : Except IoError Memory :=
  match m.get? key with
  | none => .error (notFound key)
  | some _ =>
    let rest : Memory := { m with entries := m.entries.filter fun (k, _) => !key.isPrefixOf k }
    match rest.get? [] with
    | some _ => .ok rest
    | none => .ok (rest.stamp [] .dir)

/-- Gives an entry another key. -/
def rename (m : Memory) (source target : Key) : Except IoError Memory :=
  if source = target then .ok m
  else
    match m.get? source with
    | none => .error (notFound source)
    | some entry => do
      m.requireParent target
      if entry.isDir && m.hasChildren source then .error (sourceNotEmpty source)
      match m.get? target with
      | some old =>
        if old.isDir && m.hasChildren target then .error (targetNotEmpty target)
        if old.isDir != entry.isDir then .error (otherType target)
        pure ((m.erase source).insert target entry)
      | none => pure ((m.erase source).insert target entry)

/-! ## Answering calls -/

/-- Keeps the storage as it was if a change fails. -/
def change {α : Type} (m : Memory) (a : α) :
    Except IoError Memory → Except IoError α × Memory
  | .ok m' => (.ok a, m')
  | .error e => (.error e, m)

/-- The length of the longest key. -/
def longestKey (m : Memory) : Nat :=
  m.entries.foldl (fun n (k, _) => max n k.length) 0

/-- What the storage can do by itself. -/
def capabilities : Capabilities :=
  ⟨false, false⟩

def backend : Backend Memory Bytes Key
  | .stat path, m => (m.stat (keyOf path), m)
  | .openRead path, m => (m.openRead (keyOf path), m)
  | .create path, m => m.change (keyOf path) (m.create (keyOf path))
  | .openWrite path, m => m.change (keyOf path) (m.openWrite (keyOf path))
  | .createDirAll path, m => m.createDirAll (keyOf path)
  | .removeAll path, m => m.change () (m.removeAll (keyOf path))
  | .rename source target, m => m.change () (m.rename (keyOf source) (keyOf target))
  | .readDir path, m => (m.readDir (keyOf path), m)
  | .read reader n, m => (.ok (reader.take n, reader.drop n), m)
  | .write key data, m =>
    let (result, m) := m.change () (m.append key data)
    ((result, key), m)
  | .flush _, m => (.ok (), m)
  | .shutdown _, m => (.ok (), m)
  | .bytesLeft reader, m => (reader.length, m)
  | .depthBound, m => (m.longestKey, m)

end Memory

end SyncEndpoint.Storage
