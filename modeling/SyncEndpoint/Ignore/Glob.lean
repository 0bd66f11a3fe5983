import SyncEndpoint.Ignore.Regex
import SyncEndpoint.Path.Native

set_option autoImplicit false

/-! # Globs

A glob is read into tokens and matched against the bytes of a whole path. A star and a question
mark stay within one part of the path, a double star that stands alone between slashes crosses
parts, and braces hold alternatives, which may nest. A bracket that is never closed stands for
itself, and so does every bracket after it. -/

namespace SyncEndpoint.Ignore

/-- Why a glob cannot be read. -/
inductive GlobError where
  | invalidRange (first last : Char)
  | unopenedAlternatives
  | unclosedAlternatives
  | danglingEscape

def GlobError.message : GlobError → String
  | .invalidRange first last =>
    "invalid range; '" ++ String.singleton first ++ "' > '" ++ String.singleton last ++ "'"
  | .unopenedAlternatives =>
    "unopened alternate group; missing '\x7b' (maybe escape '\x7d' with '[\x7d]'?)"
  | .unclosedAlternatives =>
    "unclosed alternate group; missing '\x7d' (maybe escape '\x7b' with '[\x7b]'?)"
  | .danglingEscape => "dangling '\\'"

/-- A piece of a glob. -/
inductive Token where
  | literal (c : Char)
  /-- One byte that is no slash. -/
  | anyByte
  /-- Any bytes without a slash. -/
  | star
  /-- Any directories in front, or none. -/
  | leadingTree
  /-- Everything below. -/
  | trailingTree
  /-- A slash, or directories between two slashes. -/
  | innerTree
  | charClass (negated : Bool) (ranges : List (Char × Char))
  | choice (branches : List (List Token))

/-! ## Character classes -/

/-- Extends the last range of a class (kept first) to end at `c`. -/
def extendRange (c : Char) : List (Char × Char) → Except GlobError (List (Char × Char))
  | [] => .ok []
  | (first, _) :: ranges =>
    if c < first then .error (.invalidRange first c) else .ok ((first, c) :: ranges)

/-- A class as far as it is read: its ranges, last first; whether nothing was read yet; whether a
dash was read that may join two characters; and the number of characters read. -/
structure ClassReader where
  ranges : List (Char × Char) := []
  atStart : Bool := true
  inRange : Bool := false
  count : Nat := 0

/-- Reads the inside of a class up to its closing bracket. The answer holds the ranges and the
number of characters read, or is `none` when the class is never closed. -/
def ClassReader.run (r : ClassReader) :
    List Char → Except GlobError (Option (List (Char × Char) × Nat))
  | [] => .ok none
  | c :: cs =>
    let next (ranges : List (Char × Char)) (inRange : Bool) : ClassReader :=
      { ranges, inRange, atStart := false, count := r.count + 1 }
    if c = ']' && !r.atStart then
      let ranges := if r.inRange then ('-', '-') :: r.ranges else r.ranges
      .ok (some (ranges.reverse, r.count + 1))
    else if c = '-' && !r.atStart && !r.inRange then (next r.ranges true).run cs
    else if r.inRange then
      match extendRange c r.ranges with
      | .error e => .error e
      | .ok ranges => (next ranges false).run cs
    else (next ((c, c) :: r.ranges) false).run cs

/-- Reads what follows an opening bracket: the class and the number of characters it took. -/
def readClass? (cs : List Char) : Except GlobError (Option (Token × Nat)) :=
  let negated := match cs with
    | c :: _ => c == '!' || c == '^'
    | [] => false
  let inside := if negated then cs.tail else cs
  match ({ } : ClassReader).run inside with
  | .error e => .error e
  | .ok none => .ok none
  | .ok (some (ranges, n)) => .ok (some (.charClass negated ranges, if negated then n + 1 else n))

/-! ## Reading a glob -/

/-- A group of alternatives that is open: what stood before it and the branches that are
complete, both last first. -/
structure OpenGroup where
  before : List Token
  branches : List (List Token)

/-- A glob as far as it is read. Tokens are kept last first. -/
structure GlobReader where
  tokens : List Token := []
  groups : List OpenGroup := []
  /-- The character before the current one. -/
  previous : Option Char := none
  /-- Whether a bracket still opens a class. -/
  classes : Bool := true

namespace GlobReader

def push (r : GlobReader) (t : Token) : GlobReader :=
  { r with tokens := t :: r.tokens }

/-- Reads a star that is followed by `rest`. A second star makes a double star, which crosses
directories only if it stands alone between slashes or at an end of its branch. -/
def readStar (r : GlobReader) (rest : List Char) : GlobReader × Nat :=
  match rest with
  | '*' :: after =>
    let twoStars := ((r.push .star).push .star, 1)
    let grouped := !r.groups.isEmpty
    if r.tokens.isEmpty then
      match after with
      | [] => (r.push .leadingTree, 1)
      | '/' :: _ => (r.push .leadingTree, 2)
      | _ => twoStars
    else if r.previous ≠ some '/' &&
        !(grouped && (r.previous == some ',' || r.previous == some '{')) then twoStars
    else
      let replaceLast (t : Token) (n : Nat) : GlobReader × Nat :=
        let t := match r.tokens.head? with
          | some .leadingTree => Token.leadingTree
          | some .trailingTree => Token.trailingTree
          | _ => t
        ({ r with tokens := t :: r.tokens.tail }, n)
      match after with
      | [] => replaceLast .trailingTree 1
      | '/' :: _ => replaceLast .innerTree 2
      | c :: _ =>
        if grouped && (c == ',' || c == '}') then replaceLast .trailingTree 1 else twoStars
  | _ => (r.push .star, 0)

/-- Reads the character `c` that is followed by `rest`; the number says how many characters of
`rest` belong to it. -/
def readChar (r : GlobReader) (c : Char) (rest : List Char) :
    Except GlobError (GlobReader × Nat) :=
  match c with
  | '?' => .ok (r.push .anyByte, 0)
  | '*' => .ok (r.readStar rest)
  | '[' =>
    if r.classes then
      match readClass? rest with
      | .error e => .error e
      | .ok (some (t, n)) => .ok (r.push t, n)
      | .ok none => .ok ({ r.push (.literal '[') with classes := false }, 0)
    else .ok (r.push (.literal '['), 0)
  | '{' => .ok ({ r with tokens := [], groups := ⟨r.tokens, []⟩ :: r.groups }, 0)
  | '}' =>
    match r.groups with
    | [] => .error .unopenedAlternatives
    | g :: groups =>
      let branches := (r.tokens.reverse :: g.branches).reverse
      .ok ({ r with tokens := .choice branches :: g.before, groups }, 0)
  | ',' =>
    match r.groups with
    | [] => .ok (r.push (.literal ','), 0)
    | g :: groups =>
      let g := { g with branches := r.tokens.reverse :: g.branches }
      .ok ({ r with tokens := [], groups := g :: groups }, 0)
  | '\\' =>
    match rest with
    | [] => .error .danglingEscape
    | e :: _ => .ok (r.push (.literal e), 1)
  | c => .ok (r.push (.literal c), 0)

/-- Reads on, after passing over `skip` characters that were read ahead. -/
def run (r : GlobReader) : Nat → List Char → Except GlobError GlobReader
  | _, [] => .ok r
  | skip + 1, c :: cs => run { r with previous := some c } skip cs
  | 0, c :: cs =>
    match r.readChar c cs with
    | .error e => .error e
    | .ok (r', n) => run { r' with previous := some c } n cs

end GlobReader

def Token.parse (glob : String) : Except GlobError (List Token) :=
  match ({ } : GlobReader).run 0 glob.toList with
  | .error e => .error e
  | .ok r => if r.groups.isEmpty then .ok r.tokens.reverse else .error .unclosedAlternatives

/-! ## Globs as regular expressions -/

/-- Any bytes and then a slash. -/
def anyDirectories : Regex :=
  .seq (.star .anyByte) (.literal NativePath.slash)

/-- The bytes in the ranges of a class, each character by its UTF-8 bytes: of a range between two
characters the last byte of the first and the first byte of the last one are joined. -/
def classBytes (ranges : List (Char × Char)) : List (UInt8 × UInt8) :=
  ranges.flatMap fun (first, last) =>
    let front := String.utf8EncodeChar first
    if first = last then front.map fun b => (b, b)
    else
      match front.getLast?, String.utf8EncodeChar last with
      | some a, b :: back => (front.dropLast.map fun x => (x, x)) ++ (a, b) :: back.map fun x => (x, x)
      | _, _ => []

mutual

/-- The expression of a token; `none` for alternatives of which every branch is empty. -/
def Token.regex? : Token → Option Regex
  | .literal c => some (.bytes (String.utf8EncodeChar c))
  | .anyByte => some (.anyBut NativePath.slash)
  | .star => some (.star (.anyBut NativePath.slash))
  | .leadingTree => some (.oneOf [.empty, .literal NativePath.slash, anyDirectories])
  | .trailingTree => some (.seq (.literal NativePath.slash) (.star .anyByte))
  | .innerTree =>
    let slash := Regex.literal NativePath.slash
    some (.alt slash (.seq slash anyDirectories))
  | .charClass negated ranges => some (.byte negated (classBytes ranges))
  | .choice branches =>
    match branchRegexes branches with
    | [] => none
    | rs => some (.oneOf rs)

/-- The expressions of tokens one after the other. -/
def tokenRegexes : List Token → List Regex
  | [] => []
  | t :: ts =>
    match t.regex? with
    | none => tokenRegexes ts
    | some r => r :: tokenRegexes ts

/-- The expressions of alternatives, without the empty ones. -/
def branchRegexes : List (List Token) → List Regex
  | [] => []
  | ts :: rest =>
    match tokenRegexes ts with
    | [] => branchRegexes rest
    | rs => .concat rs :: branchRegexes rest

end

/-- The expression of a whole glob. A lone double star matches everything. -/
def globRegex : List Token → Regex
  | [.leadingTree] => .star .anyByte
  | ts => .concat (tokenRegexes ts)

/-! ## Globs that name the last part

A path that ends in a double dot has no last part that could be named. Globs that end in a fixed
name or a fixed extension, but not in a fixed path, ask for that part and never match it. -/

def literals? (ts : List Token) : Option (List Char) :=
  ts.mapM fun
    | .literal c => some c
    | _ => none

/-- Whether tokens are a leading tree and then one fixed name. -/
def isFixedName : List Token → Bool
  | .leadingTree :: ts =>
    match literals? ts with
    | some cs => !cs.isEmpty && !cs.contains '/'
    | none => false
  | _ => false

/-- Whether the text of a glob is fixed, but for a tree at one of its ends. -/
def isFixedPath (ts : List Token) : Bool :=
  let inner := match ts with
    | .leadingTree :: rest => rest
    | _ => match ts.getLast? with
      | some .trailingTree => ts.dropLast
      | _ => ts
  (literals? inner).isSome

/-- Whether tokens end in a dot and further characters of the last part. -/
def endsInExtension (ts : List Token) : Bool :=
  let tail := ts.reverse.dropWhile fun
    | .literal c => c != '.' && c != '/'
    | _ => false
  match tail with
  | .literal '.' :: _ => true
  | _ => false

/-- A glob, ready to match. -/
structure Glob where
  /-- What a whole path has to match. -/
  regex : Regex
  /-- Whether the glob names the last part of what it matches. -/
  namesLast : Bool

namespace Glob

def ofTokens (ts : List Token) : Glob :=
  ⟨globRegex ts, isFixedName ts || (!isFixedPath ts && endsInExtension ts)⟩

def parse (text : String) : Except GlobError Glob :=
  (Token.parse text).map ofTokens

/-- Whether a path ends in a double dot. -/
def endsInDotDot (path : Bytes) : Bool :=
  (path.splitOn NativePath.slash).getLast? == some NativePath.dotDot

def isMatch (g : Glob) (path : Bytes) : Bool :=
  !(g.namesLast && endsInDotDot path) && g.regex.isMatch path

end Glob

end SyncEndpoint.Ignore
