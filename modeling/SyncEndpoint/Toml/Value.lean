set_option autoImplicit false

/-! # TOML values

A table remembers how it was written, because that decides how the rest of a document may add to
it. `updateAt` is the one way to reach a table inside another; `addPair` puts a value behind a
dotted key by it. -/

namespace SyncEndpoint.Toml

/-- How a table was written. -/
inductive Origin where
  /-- Under a header of its own. -/
  | header
  /-- As a part of a longer header. -/
  | implied
  /-- As a part of a dotted key. -/
  | dotted
  /-- In braces, which is final. -/
  | braces
  deriving DecidableEq

/-- A TOML value. Numbers that are not integers and points in time are kept as they are written. -/
inductive Value where
  | text (s : String)
  | integer (n : Int)
  | float (literal : List Char)
  | boolean (b : Bool)
  | time (literal : List Char)
  /-- An array in brackets. -/
  | array (items : List Value)
  | table (origin : Origin) (members : List (String × Value))
  /-- An array of tables, each under a header. -/
  | tables (items : List (List (String × Value)))

/-- The members of a table, in the order they were written. -/
abbrev Members := List (String × Value)

namespace Members

def get? (ms : Members) (key : String) : Option Value :=
  (ms.find? (·.1 == key)).map (·.2)

/-- Members with another value for a key that is there. -/
def replace (ms : Members) (key : String) (v : Value) : Members :=
  ms.map fun m => if m.1 == key then (key, v) else m

/-- Members with one more; the key must be new. -/
def add? (ms : Members) (key : String) (v : Value) : Option Members :=
  if (ms.get? key).isSome then none else some (ms ++ [(key, v)])

/-- Whether what is written by way of `made` tables may add to a table. A header may add to all
that braces do not close; a dotted key only to what no header has opened. -/
def mayExtend (made : Origin) : Origin → Bool
  | .header => made != .dotted
  | .implied => true
  | .dotted => true
  | .braces => false

/-- Changes the table at a path below a table. Tables that are missing on the way are made; of an
array of tables the last one counts. -/
def updateAt (made : Origin) (change : Origin → Members → Option Members) :
    List String → Origin → Members → Option Members
  | [], origin, ms => change origin ms
  | key :: path, _, ms =>
    match ms.get? key with
    | none => (updateAt made change path made []).map fun inner => ms ++ [(key, .table made inner)]
    | some (.table origin inner) =>
      if mayExtend made origin then
        (updateAt made change path origin inner).map fun inner =>
          ms.replace key (.table origin inner)
      else none
    | some (.tables items) =>
      match items.getLast? with
      | some last =>
        (updateAt made change path .header last).map fun last =>
          ms.replace key (.tables (items.dropLast ++ [last]))
      | none => none
    | some _ => none

/-- Puts a value behind a dotted key, `path` and then `key`. A table on the way has to come from
dotted keys. -/
def addPair? (ms : Members) (path : List String) (key : String) (v : Value) : Option Members :=
  let place (origin : Origin) (ms : Members) : Option Members :=
    if (origin == .dotted) == path.isEmpty then none else ms.add? key v
  updateAt .dotted place path .header ms

end Members

end SyncEndpoint.Toml
