import SyncEndpoint.Toml.Quoted

set_option autoImplicit false

/-! # Writing TOML

A document of sections, each a header with keys below it, and a blank line between two sections.
An array of two items or more has each of them on a line of its own. -/

namespace SyncEndpoint.Toml

/-- What a key of a section can hold. -/
inductive Plain where
  | text (s : String)
  | number (n : Nat)
  | texts (ss : List String)
  deriving DecidableEq

/-- A header with the keys below it. -/
structure Section where
  name : String
  entries : List (String × Plain)

namespace Plain

/-- An item of a long array, on its line. -/
def itemLine (s : String) : List Char :=
  [' ', ' ', ' ', ' '] ++ Quoted.write s.toList ++ [',', '\n']

def write : Plain → List Char
  | .text s => Quoted.write s.toList
  | .number n => Nat.toDigits 10 n
  | .texts [] => ['[', ']']
  | .texts [s] => '[' :: Quoted.write s.toList ++ [']']
  | .texts ss => '[' :: '\n' :: ss.flatMap itemLine ++ [']']

end Plain

namespace Section

/-- A key with its value, on its line. -/
def entryLine (entry : String × Plain) : List Char :=
  entry.1.toList ++ [' ', '=', ' '] ++ entry.2.write ++ ['\n']

def write (s : Section) : List Char :=
  '[' :: s.name.toList ++ [']', '\n'] ++ s.entries.flatMap entryLine

end Section

/-- Sections with a blank line between two of them. -/
def writeSections (sections : List Section) : String :=
  String.ofList (List.intercalate ['\n'] (sections.map Section.write))

end SyncEndpoint.Toml
