import SyncEndpoint.Json.Value

set_option autoImplicit false

/-! # Records in JSON

A record is written as an object, and read from an object in any order of members or from an array
of its fields in order. Members that are no field are passed over; a field that comes twice is an
error, and so is one that is missing, unless it may be null. -/

namespace SyncEndpoint.Json

/-- The values of a record's fields, one for each name, as far as they are given. -/
def fieldValues? (names : List String) : Json → Option (List (Option Json))
  | .arr items => if items.length = names.length then some (items.map some) else none
  | .obj members => do
    let keyed ← members.mapM fun (k, v) => (unescape? k).map fun k => (String.ofList k, v)
    names.mapM fun name =>
      match keyed.filter (·.1 == name) with
      | [] => some none
      | [(_, v)] => some (some v)
      | _ => none
  | _ => none

/-- Reads a field that has to be there. -/
def required? {α : Type} (read : Json → Option α) (v : Option Json) : Option α :=
  v.bind read

/-- Reads a field that may be null or missing. -/
def optional? {α : Type} (read : Json → Option α) : Option Json → Option (Option α)
  | none => some none
  | some v => option? read v

/-- Reads one of several names: a string, or an object with the name as key and null as value. -/
def name? {α : Type} (ofName : String → Option α) : Json → Option α
  | .obj [(k, .null)] => (unescape? k).bind fun k => ofName (String.ofList k)
  | v => v.string?.bind ofName

end SyncEndpoint.Json
