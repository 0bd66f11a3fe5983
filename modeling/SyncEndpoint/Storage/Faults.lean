import SyncEndpoint.Storage.Call

set_option autoImplicit false

/-! # Faults

A storage on which chosen calls fail. A fault says which calls it meets, by their name and their
path; it lets some of them pass, and then has some fail before they take effect. A fault of reading
or writing is looked for once, when a file has been opened, and cuts the file short. -/

namespace SyncEndpoint.Storage

/-- What a fault can meet. -/
inductive Operation where
  | stat
  | openRead
  | create
  | openWrite
  | createDirAll
  | removeAll
  | rename
  | readDir
  /-- Looking at an entry that is listed. -/
  | entry
  | read
  | write
  | shutdown
  deriving DecidableEq

namespace Operation

/-- Whether an operation is one on an open file. -/
def isOnStream : Operation → Bool
  | .read | .write | .shutdown => true
  | _ => false

end Operation

/-- Calls that fail. -/
structure Fault where
  /-- The operation that is met; none for all but those on open files. -/
  operation : Option Operation
  key : Key
  /-- Whether only the key itself is met, and not what lies below it. -/
  exact : Bool
  error : IoError
  /-- How many calls pass. -/
  skip : Nat
  /-- How many calls then fail; none for all. -/
  times : Option Nat
  /-- How many bytes an open file still takes or gives. -/
  bytes : Nat
  /-- How many calls have been met. -/
  met : Nat := 0

namespace Fault

def meets (f : Fault) (op : Operation) (key : Key) : Bool :=
  (match f.operation with
    | some wanted => wanted == op
    | none => !op.isOnStream) &&
  (if f.exact then f.key == key else f.key.isPrefixOf key)

/-- Whether the next call that is met fails. -/
def isDue (f : Fault) : Bool :=
  f.skip ≤ f.met && match f.times with
    | some times => f.met < f.skip + times
    | none => true

/-- A fault with one more call met. -/
def count (f : Fault) : Fault :=
  { f with met := f.met + 1 }

/-- The first fault that makes an operation fail; those up to it count the call. -/
def fire (op : Operation) (key : Key) : List Fault → Option Fault × List Fault
  | [] => (none, [])
  | f :: fs =>
    if f.meets op key then
      if f.isDue then (some f, f.count :: fs)
      else
        let (fired, fs) := fire op key fs
        (fired, f.count :: fs)
    else
      let (fired, fs) := fire op key fs
      (fired, f :: fs)

end Fault

/-! ## Open files that fail -/

/-- Where an open file fails, and with what. -/
structure Cut where
  bytes : Nat
  error : IoError

/-- A file that is open for reading. -/
structure CutReader (R : Type) where
  reader : R
  cut : Option Cut

/-- A file that is open for writing. -/
structure CutWriter (W : Type) where
  writer : W
  cut : Option Cut
  /-- The error that finishing gives. -/
  atShutdown : Option IoError

/-- The place where a fault cuts a file. -/
def Fault.toCut (f : Fault) : Cut :=
  ⟨f.bytes, f.error⟩

/-! ## The storage -/

structure Faulty (σ : Type) where
  storage : σ
  faults : List Fault

namespace Faulty

variable {σ R W : Type}

/-- Looks for a fault. -/
def fire (s : Faulty σ) (op : Operation) (key : Key) : Option Fault × Faulty σ :=
  let (fired, faults) := Fault.fire op key s.faults
  (fired, { s with faults })

/-- Makes a call on the storage below. -/
def pass (backend : Backend σ R W) (c : Call R W) (s : Faulty σ) : c.Reply × Faulty σ :=
  let (reply, storage) := backend c s.storage
  (reply, { s with storage })

/-- Goes on if no fault meets an operation. -/
def guarded {α : Type} (op : Operation) (path : NativePath) (s : Faulty σ)
    (go : Faulty σ → Except IoError α × Faulty σ) : Except IoError α × Faulty σ :=
  match s.fire op (keyOf path) with
  | (some f, s) => (.error f.error, s)
  | (none, s) => go s

/-- Wraps a file that has been opened for reading. -/
def wrapReader (path : NativePath) :
    Except IoError R × Faulty σ → Except IoError (CutReader R) × Faulty σ
  | (.error e, s) => (.error e, s)
  | (.ok reader, s) =>
    let (cut, s) := s.fire .read (keyOf path)
    (.ok ⟨reader, cut.map Fault.toCut⟩, s)

/-- Wraps a file that has been opened for writing. -/
def wrapWriter (path : NativePath) :
    Except IoError W × Faulty σ → Except IoError (CutWriter W) × Faulty σ
  | (.error e, s) => (.error e, s)
  | (.ok writer, s) =>
    let (cut, s) := s.fire .write (keyOf path)
    let (atShutdown, s) := s.fire .shutdown (keyOf path)
    (.ok ⟨writer, cut.map Fault.toCut, atShutdown.map Fault.error⟩, s)

/-- Puts errors into the place of what is said of listed entries. -/
def checkEntries (dir : Key) : List Listed → Faulty σ → List Listed × Faulty σ
  | [], s => ([], s)
  | l :: ls, s =>
    let (fired, s) := s.fire .entry (dir ++ [NativePath.ofString l.name])
    let (ls, s) := checkEntries dir ls s
    match fired with
    | some f => ({ l with metadata := .error f.error } :: ls, s)
    | none => (l :: ls, s)

/-- Reads from a file up to where it is cut. -/
def read (backend : Backend σ R W) (r : CutReader R) (n : Nat) (s : Faulty σ) :
    Except IoError (Bytes × CutReader R) × Faulty σ :=
  match r.cut with
  | none =>
    match pass backend (.read r.reader n) s with
    | (.ok (bytes, reader), s) => (.ok (bytes, { r with reader }), s)
    | (.error e, s) => (.error e, s)
  | some cut =>
    if cut.bytes = 0 then (.error cut.error, s)
    else
      match pass backend (.read r.reader (min n cut.bytes)) s with
      | (.ok (bytes, reader), s) =>
        (.ok (bytes, ⟨reader, some { cut with bytes := cut.bytes - bytes.length }⟩), s)
      | (.error e, s) => (.error e, s)

/-- Writes bytes, if there are any. -/
def writeSome (backend : Backend σ R W) (writer : W) (data : Bytes) (s : Faulty σ) :
    (Except IoError Unit × W) × Faulty σ :=
  if data.isEmpty then ((.ok (), writer), s) else pass backend (.write writer data) s

/-- Writes to a file up to where it is cut. -/
def write (backend : Backend σ R W) (w : CutWriter W) (data : Bytes) (s : Faulty σ) :
    (Except IoError Unit × CutWriter W) × Faulty σ :=
  match w.cut with
  | none =>
    let ((result, writer), s) := pass backend (.write w.writer data) s
    ((result, { w with writer }), s)
  | some cut =>
    let ((result, writer), s) := writeSome backend w.writer (data.take cut.bytes) s
    let w := { w with writer, cut := some { cut with bytes := cut.bytes - data.length } }
    match result with
    | .error e => ((.error e, w), s)
    | .ok () => ((if data.length ≤ cut.bytes then .ok () else .error cut.error, w), s)

def backend (below : Backend σ R W) : Backend (Faulty σ) (CutReader R) (CutWriter W)
  | .stat path, s => s.guarded .stat path (pass below (.stat path))
  | .openRead path, s =>
    s.guarded .openRead path fun s => wrapReader path (pass below (.openRead path) s)
  | .create path, s =>
    s.guarded .create path fun s => wrapWriter path (pass below (.create path) s)
  | .openWrite path, s =>
    s.guarded .openWrite path fun s => wrapWriter path (pass below (.openWrite path) s)
  | .createDirAll path, s => s.guarded .createDirAll path (pass below (.createDirAll path))
  | .removeAll path, s => s.guarded .removeAll path (pass below (.removeAll path))
  | .rename source target, s =>
    s.guarded .rename source fun s =>
      s.guarded .rename target (pass below (.rename source target))
  | .readDir path, s =>
    s.guarded .readDir path fun s =>
      match pass below (.readDir path) s with
      | (.ok listed, s) =>
        let (listed, s) := s.checkEntries (keyOf path) listed
        (.ok listed, s)
      | (.error e, s) => (.error e, s)
  | .read reader n, s => s.read below reader n
  | .write writer data, s => s.write below writer data
  | .flush writer, s => pass below (.flush writer.writer) s
  | .shutdown writer, s =>
    match writer.atShutdown with
    | some e => (.error e, s)
    | none => pass below (.shutdown writer.writer) s
  | .bytesLeft reader, s => pass below (.bytesLeft reader.reader) s
  | .depthBound, s => pass below .depthBound s

end Faulty

end SyncEndpoint.Storage
