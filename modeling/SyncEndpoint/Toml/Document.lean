import SyncEndpoint.Toml.Reader

set_option autoImplicit false

/-! # TOML documents

The tree that the statements of a document make, one after the other. A header opens a table, once,
and the keys below it belong to that table. -/

namespace SyncEndpoint.Toml

/-- A document as far as it has been read. -/
structure Document where
  root : Members
  /-- The path of the table that the last header opened. -/
  current : List String

namespace Document

/-- A document without a statement. -/
def empty : Document := ⟨[], []⟩

/-- Opens a table under a header. It may be there as a part of a longer header. -/
def openTable? (key : String) (ms : Members) : Option Members :=
  match ms.get? key with
  | none => some (ms ++ [(key, .table .header [])])
  | some (.table .implied inner) => some (ms.replace key (.table .header inner))
  | some _ => none

/-- Opens one more table of an array. -/
def openItem? (key : String) (ms : Members) : Option Members :=
  match ms.get? key with
  | none => some (ms ++ [(key, .tables [[]])])
  | some (.tables items) => some (ms.replace key (.tables (items ++ [[]])))
  | some _ => none

def add? (d : Document) : Statement → Option Document
  | .pair path key v =>
    (Members.updateAt .implied (fun _ ms => ms.addPair? path key v) d.current .header d.root).map
      fun root => { d with root }
  | .table path key =>
    (Members.updateAt .implied (fun _ => openTable? key) path .header d.root).map
      fun root => ⟨root, path ++ [key]⟩
  | .tables path key =>
    (Members.updateAt .implied (fun _ => openItem? key) path .header d.root).map
      fun root => ⟨root, path ++ [key]⟩

/-- The members of the document that a text holds. -/
def parse? (s : String) : Option Members := do
  let statements ← statements? s.toList
  let d ← statements.foldlM add? empty
  pure d.root

end Document

end SyncEndpoint.Toml
