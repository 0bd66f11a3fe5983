import SyncEndpoint.Ignore.Rule

set_option autoImplicit false

/-! # The ignore list

The paths that an endpoint never reports: its own marker files, litter of operating systems and
temporary files of editors, and what the user adds. Of the rules that apply to a path the last one
decides; a path for which none applies is decided by the nearest directory above it. -/

namespace SyncEndpoint

/-- The name of the file that holds the identifier of its directory. -/
def markerName : String := ".__tandem"

namespace Ignore

/-- The lines that stand before the user's. -/
def builtinLines : List String :=
  [markerName, ".DS_Store", "Thumbs.db", "desktop.ini", "*.swp", "*.swx", "*~", "~$*", ".~lock.*#"]

/-- What the rules say of a path. -/
inductive Verdict where
  | hidden
  | kept
  deriving DecidableEq

/-- What a rule says of the paths it applies to. -/
def Rule.verdict (r : Rule) : Verdict :=
  if r.negated then .kept else .hidden

/-- What the last rule that applies says of a path. -/
def verdict? (rules : List Rule) (path : Bytes) (isDir : Bool) : Option Verdict :=
  (rules.reverse.find? (·.applies path isDir)).map Rule.verdict

/-- What the rules say of a path or else of the nearest directory above it. -/
def nearestVerdict? (rules : List Rule) (path : Bytes) (isDir : Bool) : Option Verdict :=
  match verdict? rules path isDir with
  | some v => some v
  | none => (NativePath.ancestors path).findSome? (verdict? rules · true)

/-- Text without one separator in front. -/
def dropSeparator : List Char → List Char
  | '/' :: rest => rest
  | cs => cs

/-- A path below the top: without the separators in front, and without a dot and a slash and up to
two more separators behind them. -/
def relativePath (path : String) : Bytes :=
  match path.toList.dropWhile (· == '/') with
  | '.' :: '/' :: rest => Text.Utf8.encodeChars (dropSeparator (dropSeparator rest))
  | cs => Text.Utf8.encodeChars cs

end Ignore

/-- The rules of an endpoint, the built-in ones first. -/
structure IgnoreList where
  rules : List Ignore.Rule

namespace IgnoreList

open Ignore

/-- A line that cannot be read, with the reason. -/
structure BadPattern where
  line : String
  error : RuleError

/-- The rules of some lines, in order. -/
def rulesOfLines : List String → Except BadPattern (List Rule)
  | [] => .ok []
  | line :: lines =>
    match Rule.ofLine? line with
    | .error e => .error ⟨line, e⟩
    | .ok rule =>
      match rulesOfLines lines with
      | .error e => .error e
      | .ok rules => .ok (rule.toList ++ rules)

/-- The built-in rules, and then those of the user's lines. -/
def ofLines (lines : List String) : Except BadPattern IgnoreList :=
  (rulesOfLines (builtinLines ++ lines)).map IgnoreList.mk

/-- Whether a path, or a directory above it, is hidden. The root never is. -/
def isIgnored (list : IgnoreList) (path : String) (isDir : Bool) : Bool :=
  if path.toList.all (· == '/') then false
  else nearestVerdict? list.rules (relativePath path) isDir == some .hidden

/-- Whether a path is hidden as a file or as a directory, for one whose type is not known. -/
def isIgnoredAny (list : IgnoreList) (path : String) : Bool :=
  list.isIgnored path false || list.isIgnored path true

end IgnoreList

end SyncEndpoint
