import SyncEndpoint.Json.Value

set_option autoImplicit false

/-! # Writing JSON

The compact form has no blanks at all. The indented form puts each item and member on a line of
its own, two blanks further in than its container; an empty container stays on one line. -/

namespace SyncEndpoint.Json

/-- A string with its quotes. -/
def quoted (body : List Char) : List Char :=
  '"' :: body ++ ['"']

/-- The characters of a truth value. -/
def boolChars (b : Bool) : List Char :=
  if b then ['t', 'r', 'u', 'e'] else ['f', 'a', 'l', 's', 'e']

mutual

def compactChars : Json → List Char
  | .null => ['n', 'u', 'l', 'l']
  | .bool b => boolChars b
  | .num literal => literal
  | .str body => quoted body
  | .arr items => '[' :: compactItems items ++ [']']
  | .obj members => '{' :: compactMembers members ++ ['}']

/-- Items with a comma between two of them. -/
def compactItems : List Json → List Char
  | [] => []
  | [v] => compactChars v
  | v :: vs => compactChars v ++ ',' :: compactItems vs

/-- Members with a comma between two of them. -/
def compactMembers : List (List Char × Json) → List Char
  | [] => []
  | [(k, v)] => quoted k ++ ':' :: compactChars v
  | (k, v) :: ms => quoted k ++ ':' :: compactChars v ++ ',' :: compactMembers ms

end

def compact (v : Json) : String :=
  String.ofList (compactChars v)

/-- A new line that is indented `depth` times. -/
def newLine (depth : Nat) : List Char :=
  '\n' :: List.replicate (2 * depth) ' '

mutual

/-- The indented form of a value that stands `depth` levels deep. -/
def indentedChars (depth : Nat) : Json → List Char
  | .arr [] => ['[', ']']
  | .arr items => '[' :: indentedItems (depth + 1) items ++ newLine depth ++ [']']
  | .obj [] => ['{', '}']
  | .obj members => '{' :: indentedMembers (depth + 1) members ++ newLine depth ++ ['}']
  | .null => ['n', 'u', 'l', 'l']
  | .bool b => boolChars b
  | .num literal => literal
  | .str body => quoted body

/-- Items, each on a line of its own. -/
def indentedItems (depth : Nat) : List Json → List Char
  | [] => []
  | [v] => newLine depth ++ indentedChars depth v
  | v :: vs => newLine depth ++ indentedChars depth v ++ ',' :: indentedItems depth vs

/-- Members, each on a line of its own. -/
def indentedMembers (depth : Nat) : List (List Char × Json) → List Char
  | [] => []
  | [(k, v)] => newLine depth ++ quoted k ++ [':', ' '] ++ indentedChars depth v
  | (k, v) :: ms =>
    newLine depth ++ quoted k ++ [':', ' '] ++ indentedChars depth v ++
      ',' :: indentedMembers depth ms

end

def indented (v : Json) : String :=
  String.ofList (indentedChars 0 v)

end SyncEndpoint.Json
