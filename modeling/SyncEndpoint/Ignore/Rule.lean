import SyncEndpoint.Ignore.Glob

set_option autoImplicit false

/-! # Ignore rules

One line of an ignore file: a glob, whether it brings back what earlier lines hid, and whether it
speaks of directories only. A glob without a slash matches at any depth. -/

namespace SyncEndpoint.Ignore

/-- What one line says. -/
structure Rule where
  glob : Glob
  /-- Whether the rule brings paths back instead of hiding them. -/
  negated : Bool
  /-- Whether the rule speaks of directories only. -/
  directoriesOnly : Bool

/-- Why a line cannot be read: the line as it counts, and what is wrong with its glob. -/
structure RuleError where
  glob : String
  cause : GlobError

def RuleError.message (e : RuleError) : String :=
  "error parsing glob '" ++ e.glob ++ "': " ++ e.cause.message

/-- A line without the blanks at its end, unless its last blank is escaped. -/
def trimLine (line : List Char) : List Char :=
  if [' ', '\\'].isPrefixOf line.reverse then line else Text.trimEnd Text.isBlank line

/-- The marks at the start of a line: whether it is negated, whether it is anchored to the top, and
the rest. An escaped mark is a character like any other. -/
def readMarks (line : List Char) : Bool × Bool × List Char :=
  match line with
  | '\\' :: '!' :: rest => (false, false, '!' :: rest)
  | '\\' :: '#' :: rest => (false, false, '#' :: rest)
  | '!' :: '/' :: rest => (true, true, rest)
  | '!' :: rest => (true, false, rest)
  | '/' :: rest => (false, true, rest)
  | _ => (false, false, line)

/-- A text without the slash at its end, which may be escaped, and whether there was one. -/
def readDirectoryMark (line : List Char) : Bool × List Char :=
  match line.reverse with
  | '/' :: '\\' :: rest => (true, rest.reverse)
  | '/' :: rest => (true, rest.reverse)
  | _ => (false, line)

/-- The glob that a line stands for. Without a slash it matches at any depth, and a double star at
its end matches what is inside a directory, but not the directory. -/
def fullGlob (anchored : Bool) (text : List Char) : String :=
  let floating := !anchored && !text.contains '/' && text ≠ ['*', '*']
  let text := if floating then ['*', '*', '/'] ++ text else text
  let inside := ['*', '*', '/'].isPrefixOf text.reverse
  String.ofList (if inside then text ++ ['/', '*'] else text)

/-- The rule of a line. Comments and blank lines say nothing. -/
def Rule.ofLine? (line : String) : Except RuleError (Option Rule) :=
  let trimmed := trimLine line.toList
  if line.toList.head? == some '#' || trimmed.isEmpty then .ok none
  else
    let (negated, anchored, rest) := readMarks trimmed
    let (directoriesOnly, text) := readDirectoryMark rest
    match Glob.parse (fullGlob anchored text) with
    | .error cause => .error ⟨String.ofList trimmed, cause⟩
    | .ok glob => .ok (some ⟨glob, negated, directoriesOnly⟩)

/-- Whether the glob of a rule matches a path of the given type. -/
def Rule.applies (r : Rule) (path : Bytes) (isDir : Bool) : Bool :=
  (!r.directoriesOnly || isDir) && r.glob.isMatch path

end SyncEndpoint.Ignore
