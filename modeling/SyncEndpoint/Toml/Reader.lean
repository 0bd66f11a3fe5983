import SyncEndpoint.Toml.Quoted
import SyncEndpoint.Toml.Scalar

set_option autoImplicit false

/-! # Reading TOML

A document is a list of statements, one a line: a header, the header of an array of tables, or a
key with its value. Reading stops at the first thing that is not TOML. Each step into a value or on
to the next one costs one unit of fuel; as it reads at least one character, the length of the text
is enough. -/

namespace SyncEndpoint.Toml

/-- A line of a document. A path is all of a dotted key but its last part. -/
inductive Statement where
  | pair (path : List String) (key : String) (v : Value)
  | table (path : List String) (key : String)
  | tables (path : List String) (key : String)

namespace Reader

/-! ## Blanks, line ends and comments -/

def isBlank (c : Char) : Bool := c == ' ' || c == '\t'

/-- Text without the blanks in front. -/
def skipBlanks (cs : List Char) : List Char :=
  cs.dropWhile isBlank

/-- Text without the blanks, line ends and comments in front; inside of a comment `inComment` is
set. -/
def skipLines? : Bool → List Char → Option (List Char)
  | _, [] => some []
  | _, '\n' :: rest => skipLines? false rest
  | _, '\r' :: '\n' :: rest => skipLines? false rest
  | true, c :: rest => if Quoted.isControl c then none else skipLines? true rest
  | false, c :: rest =>
    if isBlank c then skipLines? false rest
    else if c == '#' then skipLines? true rest
    else some (c :: rest)

/-- Text behind the end of a line, in front of which blanks and a comment may stand. -/
def lineEnd? (cs : List Char) : Option (List Char) :=
  match skipBlanks cs with
  | [] => some []
  | '\n' :: rest => some rest
  | '\r' :: '\n' :: rest => some rest
  | '#' :: rest => skipLines? true rest
  | _ => none

/-! ## Keys -/

def isBareKeyChar (c : Char) : Bool :=
  c.isAlphanum || c == '_' || c == '-'

def keyPart? (cs : List Char) : Option (String × List Char) :=
  match cs with
  | '"' :: _ | '\'' :: _ => (Quoted.line? cs).map fun (key, rest) => (String.ofList key, rest)
  | _ =>
    match cs.takeWhile isBareKeyChar with
    | [] => none
    | key => some (String.ofList key, cs.drop key.length)

/-- Reads a dotted key: its parts but the last one, and the last one. -/
def key? : Nat → List Char → Option ((List String × String) × List Char)
  | 0, _ => none
  | fuel + 1, cs => do
    let (part, rest) ← keyPart? (skipBlanks cs)
    match skipBlanks rest with
    | '.' :: rest =>
      let ((path, key), rest) ← key? fuel rest
      pure ((part :: path, key), rest)
    | rest => pure (([], part), rest)

/-! ## Values -/

/-- The characters that end an unquoted value. -/
def endsScalar (c : Char) : Bool :=
  isBlank c || c == '\r' || c == '\n' || c == ',' || c == '[' || c == ']' || c == '{' || c == '}' ||
    c == '#' || c == '=' || c == '"' || c == '\''

/-- Reads an unquoted value. A date may have a time of day behind a blank. -/
def scalar? (cs : List Char) : Option (Value × List Char) :=
  let literal := cs.takeWhile (!endsScalar ·)
  let rest := cs.drop literal.length
  match Scalar.isDate literal, rest with
  | true, ' ' :: c :: more =>
    if c.isDigit then
      let time := (c :: more).takeWhile (!endsScalar ·)
      (Scalar.ofLiteral? (literal ++ ' ' :: time)).map fun v => (v, (c :: more).drop time.length)
    else (Scalar.ofLiteral? literal).map fun v => (v, rest)
  | _, _ => (Scalar.ofLiteral? literal).map fun v => (v, rest)

/-- How many brackets and braces may stand inside each other. -/
def mostNested : Nat := 80

mutual

/-- Reads a value at the head of a text, which may hold `depth` more brackets inside each other. -/
def value? : Nat → Nat → List Char → Option (Value × List Char)
  | 0, _, _ => none
  | fuel + 1, depth, cs =>
    match cs with
    | '"' :: _ | '\'' :: _ =>
      (Quoted.string? cs).map fun (s, rest) => (.text (String.ofList s), rest)
    | '[' :: rest =>
      match depth with
      | 0 => none
      | depth + 1 => (items? fuel depth rest).map fun (vs, rest) => (.array vs, rest)
    | '{' :: rest =>
      match depth with
      | 0 => none
      | depth + 1 => (members? fuel depth [] rest).map fun (ms, rest) => (.table .braces ms, rest)
    | _ => scalar? cs

/-- Reads the rest of an array: items with commas behind them, and the closing bracket. The comma
of the last item may be left out. -/
def items? : Nat → Nat → List Char → Option (List Value × List Char)
  | 0, _, _ => none
  | fuel + 1, depth, cs => do
    match ← skipLines? false cs with
    | ']' :: rest => pure ([], rest)
    | cs =>
      let (v, rest) ← value? fuel depth cs
      match ← skipLines? false rest with
      | ',' :: rest =>
        let (vs, rest) ← items? fuel depth rest
        pure (v :: vs, rest)
      | ']' :: rest => pure ([v], rest)
      | _ => none

/-- Reads the rest of a table in braces, which has the members `ms` so far. -/
def members? : Nat → Nat → Members → List Char → Option (Members × List Char)
  | 0, _, _, _ => none
  | fuel + 1, depth, ms, cs => do
    match ← skipLines? false cs with
    | '}' :: rest => pure (ms, rest)
    | cs =>
      let ((path, key), rest) ← key? (cs.length + 1) cs
      match rest with
      | '=' :: rest =>
        let (v, rest) ← value? fuel depth (skipBlanks rest)
        let ms ← ms.addPair? path key v
        match ← skipLines? false rest with
        | ',' :: rest => members? fuel depth ms rest
        | '}' :: rest => pure (ms, rest)
        | _ => none
      | _ => none

end

/-! ## Statements -/

/-- Reads a statement up to the end of its line. -/
def statement? (cs : List Char) : Option (Statement × List Char) :=
  match cs with
  | '[' :: '[' :: rest => do
    let ((path, key), rest) ← key? (rest.length + 1) rest
    match rest with
    | ']' :: ']' :: rest => pure (.tables path key, ← lineEnd? rest)
    | _ => none
  | '[' :: rest => do
    let ((path, key), rest) ← key? (rest.length + 1) rest
    match rest with
    | ']' :: rest => pure (.table path key, ← lineEnd? rest)
    | _ => none
  | _ => do
    let ((path, key), rest) ← key? (cs.length + 1) cs
    match rest with
    | '=' :: rest =>
      let (v, rest) ← value? (rest.length + 1) mostNested (skipBlanks rest)
      pure (.pair path key v, ← lineEnd? rest)
    | _ => none

/-- Reads statements to the end. -/
def statements? : Nat → List Char → Option (List Statement)
  | 0, _ => none
  | fuel + 1, cs => do
    match ← skipLines? false cs with
    | [] => pure []
    | cs =>
      let (s, rest) ← statement? cs
      let more ← statements? fuel rest
      pure (s :: more)

end Reader

/-- Text without a byte order mark in front. -/
def trimByteOrderMark : List Char → List Char
  | c :: rest => if c.toNat = 0xFEFF then rest else c :: rest
  | [] => []

/-- The statements of a document. -/
def statements? (cs : List Char) : Option (List Statement) :=
  let cs := trimByteOrderMark cs
  Reader.statements? (cs.length + 1) cs

end SyncEndpoint.Toml
