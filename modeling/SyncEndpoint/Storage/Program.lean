import SyncEndpoint.Storage.Call
import SyncEndpoint.Identity.Uuid

set_option autoImplicit false

/-! # Programs over a storage

What an endpoint does is a program: a tree of calls, each with what follows for every answer. So
the same program can be run on any storage, with failures wherever one likes, or one call at a
time beside another program. Besides calls a program may ask for a fresh identifier. -/

namespace SyncEndpoint.Storage

/-- A program that ends with a result of the type `α`. -/
inductive Program (R W α : Type) where
  | done (result : α)
  | call (c : Call R W) (next : c.Reply → Program R W α)
  | mint (next : String → Program R W α)

namespace Program

variable {R W α β : Type}

/-- Goes on with another program. -/
def bind : Program R W α → (α → Program R W β) → Program R W β
  | .done a, f => f a
  | .call c next, f => .call c fun reply => bind (next reply) f
  | .mint next, f => .mint fun id => bind (next id) f

instance : Monad (Program R W) where
  pure := .done
  bind := bind

end Program

/-- A program that may fail with an error of a storage, or with another one. -/
abbrev Attempt (R W : Type) (ε α : Type) : Type :=
  ExceptT ε (Program R W) α

/-! ## One call -/

section Calls

variable {R W : Type}

def stat (path : NativePath) : Attempt R W IoError Metadata :=
  Program.call (.stat path) .done

def openRead (path : NativePath) : Attempt R W IoError R :=
  Program.call (.openRead path) .done

def create (path : NativePath) : Attempt R W IoError W :=
  Program.call (.create path) .done

def openWrite (path : NativePath) : Attempt R W IoError W :=
  Program.call (.openWrite path) .done

def createDirAll (path : NativePath) : Attempt R W IoError Unit :=
  Program.call (.createDirAll path) .done

def removeAll (path : NativePath) : Attempt R W IoError Unit :=
  Program.call (.removeAll path) .done

def rename (source target : NativePath) : Attempt R W IoError Unit :=
  Program.call (.rename source target) .done

def readDir (path : NativePath) : Attempt R W IoError (List Listed) :=
  Program.call (.readDir path) .done

def read (reader : R) (n : Nat) : Attempt R W IoError (Bytes × R) :=
  Program.call (.read reader n) .done

def shutdown (writer : W) : Attempt R W IoError Unit :=
  Program.call (.shutdown writer) .done

/-- Writes bytes; for none there is no call. -/
def write (writer : W) (data : Bytes) : Program R W (Except IoError Unit × W) :=
  if data.isEmpty then .done (.ok (), writer) else .call (.write writer data) .done

def flush (writer : W) : Attempt R W IoError Unit :=
  Program.call (.flush writer) .done

def bytesLeft (reader : R) : Program R W Nat :=
  .call (.bytesLeft reader) .done

def depthBound : Program R W Nat :=
  .call .depthBound .done

/-- A fresh identifier. -/
def mint : Program R W String :=
  .mint .done

/-- Writes bytes, and forgets where the writer then stands. -/
def writeOnce (writer : W) (data : Bytes) : Attempt R W IoError Unit :=
  Program.bind (write writer data) fun (result, _) => .done result

/-- An attempt with another kind of error. -/
def withError {ε δ α : Type} (f : ε → δ) (x : Attempt R W ε α) : Attempt R W δ α :=
  Program.bind x fun
    | .ok a => .done (.ok a)
    | .error e => .done (.error (f e))

end Calls

/-! ## Whole files -/

section Files

variable {R W : Type}

/-- How many bytes are read at once. -/
def chunkSize : Nat := 64 * 1024

/-- Feeds the chunks of an open file to `f`, with at most `n` calls. -/
def foldChunks {β : Type} (f : β → Bytes → β) : Nat → β → R → Attempt R W IoError β
  | 0, b, _ => pure b
  | n + 1, b, reader => do
    let (bytes, reader) ← read reader chunkSize
    if bytes.isEmpty then pure b else foldChunks f n (f b bytes) reader

/-- Feeds the rest of an open file to `f`. -/
def foldReader {β : Type} (f : β → Bytes → β) (b : β) (reader : R) : Attempt R W IoError β := do
  let n ← ExceptT.lift (bytesLeft reader)
  foldChunks f (n + 1) b reader

/-- The rest of an open file. -/
def readToEnd (reader : R) : Attempt R W IoError Bytes :=
  foldReader (· ++ ·) [] reader

/-- The content of a file. -/
def contentOf (path : NativePath) : Attempt R W IoError Bytes := do
  readToEnd (← openRead path)

/-- Makes a file with the given content, or replaces the content of one. -/
def putContent (path : NativePath) (data : Bytes) : Attempt R W IoError Unit := do
  let writer ← create path
  writeOnce writer data
  shutdown writer

end Files

/-! ## Running -/

/-- A storage with a count of the identifiers that were minted. -/
structure World (σ : Type) where
  storage : σ
  minted : Nat

namespace Program

variable {σ R W α : Type}

/-- Runs a program on a storage. -/
def run (backend : Backend σ R W) : Program R W α → World σ → α × World σ
  | .done a, w => (a, w)
  | .call c next, w =>
    let (reply, storage) := backend c w.storage
    (next reply).run backend { w with storage }
  | .mint next, w => (next (Uuid.ofNat w.minted)).run backend { w with minted := w.minted + 1 }

end Program

end SyncEndpoint.Storage
