import SyncEndpoint.Proofs.Ignore.Levels
import SyncEndpoint.Proofs.Ignore.Regex
import SyncEndpoint.Proofs.Ignore.Rules

set_option autoImplicit false

/-! # The rule that hides markers

The first built-in rule is the name of the markers, which applies at every depth. So for the path of
a marker there is always a rule that applies, and only a later rule that brings paths back can keep
it from being hidden. -/

namespace SyncEndpoint

open CanonicalPath (IsSegment ofSegments segments clean)
open Ignore
open NativePath (ofNames slash dotDot)
open Text.Utf8

namespace Ignore

/-! ## Names at any depth -/

/-- The glob of a plain name, which matches at any depth. -/
def nameGlob (name : String) : Glob :=
  Glob.ofTokens (.leadingTree :: name.toList.map .literal)

theorem tokenRegexes_literals (cs : List Char) :
    tokenRegexes (cs.map .literal) = cs.map fun c => .bytes (String.utf8EncodeChar c) := by
  induction cs with
  | nil => rw [List.map_nil, List.map_nil, tokenRegexes]
  | cons c cs ih => rw [List.map_cons, List.map_cons, tokenRegexes, Token.regex?, ih]

theorem matches_literals (cs : List Char) :
    (Regex.concat (cs.map fun c => .bytes (String.utf8EncodeChar c))).Matches (encodeChars cs) := by
  induction cs with
  | nil => exact .empty
  | cons c cs ih =>
    rw [encodeChars_cons]
    exact .seq (.bytes _) ih

theorem regex_nameGlob {name : String} (hne : name ≠ "") :
    (nameGlob name).regex =
      .seq (.oneOf [.empty, .literal slash, anyDirectories])
        (.concat (name.toList.map fun c => .bytes (String.utf8EncodeChar c))) := by
  rw [ne_eq, ← String.toList_inj] at hne
  rw [nameGlob, Glob.ofTokens]
  cases hname : name.toList with
  | nil => exact absurd hname hne
  | cons c cs =>
    have hrest : tokenRegexes (.leadingTree :: (c :: cs).map .literal) =
        .oneOf [.empty, .literal slash, anyDirectories] :: tokenRegexes ((c :: cs).map .literal) := by
      rw [tokenRegexes, Token.regex?]
    rw [List.map_cons, globRegex, ← List.map_cons, hrest, tokenRegexes_literals]
    · rfl
    · simp

/-- The expression in front of the name leaves out any directories. -/
theorem matches_nameGlob {name : String} (hne : name ≠ "") {front : Bytes}
    (hfront : front = [] ∨ ∃ above, front = above ++ [slash]) :
    (nameGlob name).regex.Matches (front ++ encode name) := by
  rw [regex_nameGlob hne]
  refine .seq ?_ (matches_literals name.toList)
  rcases hfront with rfl | ⟨above, rfl⟩
  · exact .left .empty
  · exact .right (.right (.seq (.anyBytes above) (.literal slash)))

/-- A plain name applies wherever the last name is this one. -/
theorem isMatch_nameGlob {names : List Bytes} {name : String} (hnames : ∀ n ∈ names, slash ∉ n)
    (hname : NativePath.IsName (encode name)) :
    (nameGlob name).isMatch (ofNames (names ++ [encode name])) = true := by
  obtain ⟨hne, -, hdots, hslash⟩ := hname
  have hall : ∀ n ∈ names ++ [encode name], slash ∉ n := by
    rw [List.forall_mem_append, List.forall_mem_singleton]
    exact ⟨hnames, hslash⟩
  have hlast : Glob.endsInDotDot (ofNames (names ++ [encode name])) = false := by
    rw [Glob.endsInDotDot, NativePath.splitOn_ofNames hall (by simp), List.getLast?_concat]
    simpa using hdots
  have hname : name ≠ "" := by
    rintro rfl
    exact hne rfl
  rw [Glob.isMatch, hlast, Bool.and_false, Bool.not_false, Bool.true_and, Regex.isMatch_iff]
  by_cases hnil : names = []
  · subst hnil
    have hself : ofNames ([] ++ [encode name]) = [] ++ encode name := by
      simp [ofNames, List.intercalate]
    rw [hself]
    exact matches_nameGlob hname (Or.inl rfl)
  · rw [NativePath.ofNames_concat hnil, ← List.singleton_append, ← List.append_assoc]
    exact matches_nameGlob hname (Or.inr ⟨_, rfl⟩)

/-! ## The built-in rules -/

/-- The rule of the first built-in line. -/
def markerRule : Rule :=
  ⟨nameGlob markerName, false, false⟩

theorem ofLine?_markerName : Rule.ofLine? markerName = .ok (some markerRule) := rfl

theorem exists_builtin :
    ∃ builtin, IgnoreList.rulesOfLines builtinLines = .ok (markerRule :: builtin) ∧
      ∀ rule ∈ builtin, rule.negated = false := by
  have hrest : (IgnoreList.rulesOfLines builtinLines.tail).toOption.map (·.all (!·.negated)) =
      some true := by decide
  obtain ⟨builtin, hbuiltin, hall⟩ := Option.map_eq_some_iff.mp hrest
  cases hok : IgnoreList.rulesOfLines builtinLines.tail with
  | error e =>
    rw [hok] at hbuiltin
    cases hbuiltin
  | ok rules =>
    rw [hok] at hbuiltin
    cases hbuiltin
    have hmarker := IgnoreList.rulesOfLines_cons_eq_ok_iff.mpr
      ⟨some markerRule, builtin, ofLine?_markerName, hok, rfl⟩
    exact ⟨builtin, hmarker, by simpa using hall⟩

/-- The rules of a list are that of the markers, others that bring nothing back, and the user's. -/
theorem exists_rules_eq {lines : List String} {list : IgnoreList}
    (h : IgnoreList.ofLines lines = .ok list) :
    ∃ builtin user, list.rules = markerRule :: builtin ++ user ∧
      (∀ rule ∈ builtin, rule.negated = false) ∧ IgnoreList.rulesOfLines lines = .ok user := by
  obtain ⟨builtin, hbuiltin, hkept⟩ := exists_builtin
  obtain ⟨rules, user, hrules, huser, rfl⟩ := IgnoreList.ofLines_eq_ok_iff.mp h
  cases hbuiltin.symm.trans hrules
  exact ⟨builtin, user, rfl, hkept, huser⟩

/-! ## The paths of markers -/

/-- For a path that ends in the name of the markers there is always a rule. -/
theorem verdict?_marker {builtin user : List Rule} {names : List Bytes} {isDir : Bool}
    (hnames : ∀ n ∈ names, slash ∉ n) (hbuiltin : ∀ rule ∈ builtin, rule.negated = false) :
    verdict? (markerRule :: builtin ++ user) (ofNames (names ++ [encode markerName])) isDir =
      (verdict? user (ofNames (names ++ [encode markerName])) isDir).or (some .hidden) := by
  set path := ofNames (names ++ [encode markerName])
  have happlies : markerRule.applies path isDir = true := isMatch_nameGlob hnames (by decide)
  have hall : ∀ rule ∈ markerRule :: builtin, rule.negated = false :=
    List.forall_mem_cons.mpr ⟨rfl, hbuiltin⟩
  rw [verdict?_append, verdict?_eq_ite hall, if_pos ⟨markerRule, List.mem_cons_self, happlies⟩]

end Ignore

/-- A path that ends in the name of the markers. -/
def IsMarker (path : String) : Prop :=
  CanonicalPath.fileName path = some markerName

instance (path : String) : Decidable (IsMarker path) :=
  inferInstanceAs (Decidable (_ = _))

/-- The last rule that applies to a path is one that brings it back. -/
def IgnoreList.BringsBack (list : IgnoreList) (path : String) (isDir : Bool) : Prop :=
  Ignore.verdict? list.rules (Ignore.relativePath path) isDir = some .kept

/-- The clean path of a marker is the name of the markers behind other segments. -/
theorem exists_eq_ofSegments_of_isMarker {path : String} (hclean : clean path = path)
    (hmarker : IsMarker path) :
    ∃ above, path = ofSegments (above ++ [markerName]) ∧
      ∀ s ∈ above ++ [markerName], IsSegment s ∧ s ≠ "." := by
  rw [IsMarker, CanonicalPath.fileName, CanonicalPath.segments_eq_names hclean] at hmarker
  obtain ⟨above, habove⟩ := List.getLast?_eq_some_iff.mp hmarker
  refine ⟨above, ?_, fun s hs => CanonicalPath.of_mem_names (habove ▸ hs)⟩
  rw [← habove]
  exact hclean.symm

/-- The marker of a directory is hidden, unless a rule of the user brings it back. -/
theorem IgnoreList.isIgnored_marker_iff {lines : List String} {list : IgnoreList}
    (h : IgnoreList.ofLines lines = .ok list) {path : String} (hclean : clean path = path)
    (hmarker : IsMarker path) (isDir : Bool) :
    list.isIgnored path isDir = true ↔ ¬ list.BringsBack path isDir := by
  obtain ⟨builtin, user, hrules, hbuiltin, -⟩ := exists_rules_eq h
  obtain ⟨above, rfl, hsegment⟩ := exists_eq_ofSegments_of_isMarker hclean hmarker
  have hslash : ∀ n ∈ above.map encode, slash ∉ n := fun n hn =>
    (NativePath.isPart_of_mem_map (List.forall_mem_append.mp hsegment).1 n hn).2.2
  have hmap : (above ++ [markerName]).map encode = above.map encode ++ [encode markerName] := by
    rw [List.map_append, List.map_singleton]
  rw [IgnoreList.BringsBack, isIgnored_ofSegments hsegment (by simp),
    relativePath_ofSegments hsegment, hmap, hrules, nearestVerdict?,
    verdict?_marker hslash hbuiltin]
  cases verdict? user (ofNames (above.map encode ++ [encode markerName])) isDir with
  | none => simp
  | some v => cases v <;> simp

/-- Rules that bring nothing back leave all markers hidden. -/
theorem IgnoreList.not_bringsBack {list : IgnoreList}
    (h : ∀ rule ∈ list.rules, rule.negated = false) (path : String) (isDir : Bool) :
    ¬ list.BringsBack path isDir :=
  verdict?_ne_kept h

end SyncEndpoint
