import SyncEndpoint.Text.Basic

set_option autoImplicit false

/-! # Canonical paths

A canonical path is a text: a leading separator, then segments with one separator between two of
them. Every function here takes any text and looks only at its segments, the non-empty parts
between separators; `clean` gives the canonical spelling. The empty text and the bare separator
both stand for the root, which has no segment. -/

namespace SyncEndpoint.CanonicalPath

def separator : Char := '/'

/-- The canonical spelling of the root. -/
def root : String := "/"

/-! ## Segments -/

/-- The non-empty parts of a list of characters between occurrences of a separator. -/
def splitSegments (isSeparator : Char → Bool) (cs : List Char) : List (List Char) :=
  (cs.splitOnP isSeparator).filter (!·.isEmpty)

def segments (path : String) : List String :=
  (splitSegments (· == separator) path.toList).map String.ofList

/-- Segments with a separator in front of each; the bare separator if there are none. -/
def ofSegments (names : List String) : String :=
  String.singleton separator ++ String.intercalate (String.singleton separator) names

/-- The segments that name something: all but the dot. -/
def names (path : String) : List String :=
  (segments path).filter (· ≠ ".")

/-- The canonical spelling of a path: a leading separator, no empty segment and no dot. -/
def clean (path : String) : String :=
  ofSegments (names path)

/-! ## Questions about one path -/

/-- Whether a path has no segment. -/
def isRoot (path : String) : Bool :=
  (segments path).isEmpty

/-- The number of segments. -/
def depth (path : String) : Nat :=
  (segments path).length

/-- The last segment; the root has none. -/
def fileName (path : String) : Option String :=
  (segments path).getLast?

/-- The text before the last segment; the root has none. -/
def parent (path : String) : Option String :=
  if isRoot path then none
  else
    let trimmed := Text.trimEnd (· == separator) path.toList
    let before := (trimmed.reverse.dropWhile (· != separator)).tail.reverse
    some (if before.isEmpty then root else String.ofList before)

/-! ## Two paths -/

/-- A path with a name behind it; the separators between the two become one. -/
def join (parent name : String) : String :=
  String.ofList (Text.trimEnd (· == separator) parent.toList) ++ String.singleton separator ++
    String.ofList (name.toList.dropWhile (· == separator))

/-- Whether `path` is `base` or lies below it, segment by segment. -/
def startsWith (path base : String) : Bool :=
  (segments base).isPrefixOf (segments path)

/-- The path that lies below `to` as `path` lies below `from`, if it does. -/
def rebase (path source target : String) : Option String :=
  if startsWith path source then
    match (segments path).drop (depth source) with
    | [] => some (clean target)
    | suffix => some (join (clean target) (String.intercalate (String.singleton separator) suffix))
  else none

end SyncEndpoint.CanonicalPath
