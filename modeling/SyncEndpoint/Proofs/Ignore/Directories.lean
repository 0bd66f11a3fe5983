import Mathlib.Data.List.Infix
import SyncEndpoint.Proofs.Ignore.Growth

set_option autoImplicit false

/-! # Lines for directories

A line that ends in a slash speaks of directories only, so that a file is hidden by it only together
with a directory that it lies in. The verdicts are looked up as far as the top, though, which has an
empty path: where the rules hide that, as a lone star before the slash does, they hide everything
that nothing else decides. So only such lists hide files that lie in no directory which a line
matches (`hidesBelowDirectories_iff`). -/

namespace SyncEndpoint

open CanonicalPath (IsSegment ofSegments segments clean)
open Ignore
open NativePath (ofNames IsPart)
open Text.Utf8

namespace Ignore

/-! ## Lines and what they match -/

/-- A line that ends in a slash, blanks aside. -/
def EndsInSlash (line : String) : Prop :=
  ['/'] <:+ trimLine line.toList

instance (line : String) : Decidable (EndsInSlash line) :=
  inferInstanceAs (Decidable (_ <:+ _))

/-- Whether the glob of a line matches a path. -/
def lineMatches (line path : String) : Bool :=
  match Rule.ofLine? line with
  | .ok (some rule) => rule.glob.isMatch (relativePath path)
  | _ => false

theorem lineMatches_eq {line : String} {rule : Rule} (h : Rule.ofLine? line = .ok (some rule))
    (path : String) : lineMatches line path = rule.glob.isMatch (relativePath path) := by
  simp [lineMatches, h]

theorem isMatch_empty_iff {glob : Glob} (h : Glob.parse "" = .ok glob) {path : Bytes} :
    glob.isMatch path = true ↔ path = [] := by
  have hglob : glob = ⟨.empty, false⟩ := by
    cases h
    rfl
  simp [hglob, Glob.isMatch, Regex.isMatch_iff, Regex.matches_empty_iff]

/-- Behind its marks a line still ends in a slash, unless the slash is itself a mark. -/
theorem suffix_of_readMarks {line : List Char} (h : ['/'] <:+ line) :
    ['/'] <:+ (readMarks line).2.2 ∨ (readMarks line).2.1 = true ∧ (readMarks line).2.2 = [] := by
  have hcons : ∀ {c : Char} {cs : List Char}, ['/'] <:+ c :: cs → c = '/' ∧ cs = [] ∨ ['/'] <:+ cs := by
    intro c cs hsuffix
    refine (List.suffix_cons_iff.mp hsuffix).imp_left fun heq => ?_
    obtain ⟨hc, hcs⟩ := List.cons.inj heq
    exact ⟨hc.symm, hcs.symm⟩
  unfold readMarks
  split
  · exact Or.inl ((hcons h).resolve_left (by simp))
  · exact Or.inl ((hcons h).resolve_left (by simp))
  · have hrest := (hcons h).resolve_left (by simp)
    exact (hcons hrest).symm.imp_right fun hend => ⟨rfl, hend.2⟩
  · exact Or.inl ((hcons h).resolve_left (by simp))
  · exact (hcons h).symm.imp_right fun hend => ⟨rfl, hend.2⟩
  · exact Or.inl h

theorem readDirectoryMark_of_suffix {line : List Char} (h : ['/'] <:+ line) :
    (readDirectoryMark line).1 = true := by
  obtain ⟨front, rfl⟩ := h
  unfold readDirectoryMark
  split <;> simp_all

/-- A line that ends in a slash speaks of directories only, or is a lone slash, which matches the top
alone. -/
theorem eq_nil_of_isMatch {line : String} {rule : Rule} (hline : EndsInSlash line)
    (h : Rule.ofLine? line = .ok (some rule)) (hany : rule.directoriesOnly = false) {path : Bytes}
    (hmatch : rule.glob.isMatch path = true) : path = [] := by
  obtain ⟨-, hdirectories, hglob⟩ := of_ofLine?_eq_some h
  rw [hdirectories] at hany
  rcases suffix_of_readMarks hline with hsuffix | ⟨hanchored, hrest⟩
  · rw [readDirectoryMark_of_suffix hsuffix] at hany
    cases hany
  · rw [hanchored, hrest] at hglob
    exact (isMatch_empty_iff hglob).mp hmatch

/-! ## Where no rule applies -/

variable {rules : List Rule} {names : List Bytes}

theorem ofNames_ne_nil (h : ∀ name ∈ names, IsPart name) (hne : names ≠ []) : ofNames names ≠ [] := by
  intro hempty
  have hsplit := NativePath.splitOn_ofNames (NativePath.slash_not_mem_of_isPart h) hne
  rw [hempty] at hsplit
  exact (h [] (by simp [← hsplit])).1 rfl

theorem verdict?_eq_none_iff {path : Bytes} {isDir : Bool} :
    verdict? rules path isDir = none ↔ ∀ rule ∈ rules, rule.applies path isDir = false := by
  simp [verdict?]

/-- A directory for which nothing is decided on the way up is decided by the top. -/
theorem nearestVerdict?_eq_top (h : ∀ name ∈ names, IsPart name)
    (hnone : ∀ above, above <+: names → above ≠ [] → verdict? rules (ofNames above) true = none) :
    nearestVerdict? rules (ofNames names) true = verdict? rules [] true := by
  induction names using List.reverseRecOn with
  | nil =>
    show nearestVerdict? rules [] true = _
    rw [nearestVerdict?]
    cases verdict? rules [] true <;> rfl
  | append_singleton names name ih =>
    rw [List.forall_mem_append, List.forall_mem_singleton] at h
    rw [nearestVerdict?_concat h.1 h.2, hnone _ List.prefix_rfl (by simp), Option.none_or]
    exact ih h.1 fun above hpre => hnone above (hpre.trans (List.prefix_append names [name]))

/-! ## Files that only lines for directories can hide -/

variable {lines : List String} {path : String}

/-- Neither a path nor a directory that it lies in is matched by a line that does not end in a
slash. -/
def OnlyDirectoryLines (lines : List String) (path : String) : Prop :=
  ∀ ss, ss <+: segments path → ss ≠ [] → ∀ line ∈ lines, ¬ EndsInSlash line →
    lineMatches line (ofSegments ss) = false

/-- A directory that a path lies in, other than the top, is matched by a line that ends in a
slash. -/
def LiesInMatched (lines : List String) (path : String) : Prop :=
  ∃ ss, ss <+: segments path ∧ ss ≠ [] ∧ ss ≠ segments path ∧
    ∃ line ∈ lines, EndsInSlash line ∧ lineMatches line (ofSegments ss) = true

instance (lines : List String) (path : String) : Decidable (OnlyDirectoryLines lines path) :=
  decidable_of_iff (∀ ss ∈ (segments path).inits, ss ≠ [] → ∀ line ∈ lines, ¬ EndsInSlash line →
    lineMatches line (ofSegments ss) = false) (by simp [OnlyDirectoryLines, List.mem_inits])

instance (lines : List String) (path : String) : Decidable (LiesInMatched lines path) :=
  decidable_of_iff (∃ ss ∈ (segments path).inits, ss ≠ [] ∧ ss ≠ segments path ∧
    ∃ line ∈ lines, EndsInSlash line ∧ lineMatches line (ofSegments ss) = true)
    (by simp [LiesInMatched, List.mem_inits])

/-- Where no line for directories matches above a path, no rule applies to the path as a file, nor
to a directory that it lies in. -/
theorem verdict?_eq_none (h : IgnoreList.rulesOfLines lines = .ok rules)
    (honly : OnlyDirectoryLines lines path) (hnone : ¬ LiesInMatched lines path) {ss : List String}
    (hss : ∀ s ∈ ss, IsSegment s ∧ s ≠ ".") (hpre : ss <+: segments path) (hne : ss ≠ [])
    {isDir : Bool} (hdir : isDir = true → ss ≠ segments path) :
    verdict? rules (ofNames (ss.map encode)) isDir = none := by
  rw [← relativePath_ofSegments hss, verdict?_eq_none_iff]
  intro rule hmem
  obtain ⟨line, hline, hrule⟩ := (IgnoreList.mem_rulesOfLines_iff h).mp hmem
  rw [← Bool.not_eq_true, Rule.applies, Bool.and_eq_true, ← lineMatches_eq hrule]
  rintro ⟨htype, hmatch⟩
  by_cases hslash : EndsInSlash line
  · cases isDir with
    | true => exact hnone ⟨ss, hpre, hne, hdir rfl, line, hline, hslash, hmatch⟩
    | false =>
      rw [lineMatches_eq hrule, relativePath_ofSegments hss] at hmatch
      have hempty := eq_nil_of_isMatch hslash hrule (by simpa using htype) hmatch
      exact ofNames_ne_nil (NativePath.isPart_of_mem_map hss) (by simpa using hne) hempty
  · rw [honly ss hpre hne line hline hslash] at hmatch
    cases hmatch

end Ignore

namespace IgnoreList

variable {lines : List String} {list : IgnoreList} {path : String}

/-- The rules, asked about the top as about a directory, hide it. -/
def HidesTop (list : IgnoreList) : Prop :=
  verdict? list.rules (relativePath CanonicalPath.root) true = some .hidden

instance (list : IgnoreList) : Decidable list.HidesTop :=
  inferInstanceAs (Decidable (_ = _))

theorem rulesOfLines_of_ofLines (h : ofLines lines = .ok list) :
    rulesOfLines (builtinLines ++ lines) = .ok list.rules := by
  obtain ⟨builtin, user, hbuiltin, huser, rfl⟩ := ofLines_eq_ok_iff.mp h
  exact rulesOfLines_append_eq_ok_iff.mpr ⟨builtin, user, hbuiltin, huser, rfl⟩

/-- A file that no line matches, nor a directory that it lies in, is hidden if the top is. -/
theorem isIgnored_iff_hidesTop (h : ofLines lines = .ok list) (hclean : clean path = path)
    (hroot : CanonicalPath.isRoot path = false)
    (honly : OnlyDirectoryLines (builtinLines ++ lines) path)
    (hnone : ¬ LiesInMatched (builtinLines ++ lines) path) :
    list.isIgnored path false = true ↔ list.HidesTop := by
  have hrules := rulesOfLines_of_ofLines h
  have hsegments := CanonicalPath.segments_eq_names hclean
  have hss : ∀ s ∈ segments path, IsSegment s ∧ s ≠ "." := fun s hs =>
    CanonicalPath.of_mem_names (hsegments ▸ hs)
  have hne : segments path ≠ [] := by
    rwa [ne_eq, ← CanonicalPath.isRoot_iff, Bool.not_eq_true]
  obtain ⟨above, s, heq⟩ := (List.eq_nil_or_concat' (segments path)).resolve_left hne
  have hall := heq ▸ hss
  rw [List.forall_mem_append, List.forall_mem_singleton] at hall
  have hparts := NativePath.isPart_of_mem_map hall.1
  -- Neither the path nor a directory above it has a verdict of its own.
  have hself : verdict? list.rules (ofNames ((above ++ [s]).map encode)) false = none := by
    rw [← heq]
    exact verdict?_eq_none hrules honly hnone hss List.prefix_rfl hne nofun
  have habove : ∀ names, names <+: above.map encode → names ≠ [] →
      verdict? list.rules (ofNames names) true = none := by
    intro names hpre hnames
    obtain ⟨ss, hss', rfl⟩ := List.prefix_map_iff.mp hpre
    have hshort := hss'.length_le
    have hstrict : ss ≠ segments path := by
      rintro rfl
      rw [heq, List.length_append, List.length_singleton] at hshort
      omega
    exact verdict?_eq_none hrules honly hnone (fun s hs => hall.1 s (hss'.subset hs))
      (heq ▸ hss'.trans (List.prefix_append above [s])) (by simpa using hnames) fun _ => hstrict
  rw [List.map_append, List.map_singleton] at hself
  rw [← hclean, clean, ← hsegments, isIgnored_ofSegments hss hne, heq, List.map_append,
    List.map_singleton, nearestVerdict?_concat hparts (NativePath.isPart_encode hall.2), hself,
    Option.none_or, nearestVerdict?_eq_top hparts habove, beq_iff_eq]
  rfl

/-- A line for directories hides a file only together with a directory that the file lies in, as long
as the rules do not hide the top. -/
theorem hidesBelowDirectories_iff (h : ofLines lines = .ok list) (hclean : clean path = path)
    (hroot : CanonicalPath.isRoot path = false)
    (honly : OnlyDirectoryLines (builtinLines ++ lines) path) :
    (list.isIgnored path false = true → LiesInMatched (builtinLines ++ lines) path) ↔
      LiesInMatched (builtinLines ++ lines) path ∨ ¬ list.HidesTop := by
  by_cases hin : LiesInMatched (builtinLines ++ lines) path
  · simp [hin]
  · simp [hin, isIgnored_iff_hidesTop h hclean hroot honly hin]

/-- A file that lies in a directory which a line for directories matches. -/
theorem hidesBelowDirectories_build :
    OnlyDirectoryLines (builtinLines ++ ["build/"]) "/build/o" ∧
      ∃ list, ofLines ["build/"] = .ok list ∧ list.isIgnored "/build/o" false = true ∧
        LiesInMatched (builtinLines ++ ["build/"]) "/build/o" := by
  have honly : OnlyDirectoryLines (builtinLines ++ ["build/"]) "/build/o" := by decide +kernel
  have hhidden : ((ofLines ["build/"]).toOption.map fun list =>
      (list.isIgnored "/build/o" false, decide list.HidesTop)) = some (true, false) := by
    decide +kernel
  refine ⟨honly, ?_⟩
  cases h : ofLines ["build/"] with
  | error e => simp [h, Except.toOption] at hhidden
  | ok list =>
    obtain ⟨hignored, htop⟩ : list.isIgnored "/build/o" false = true ∧ ¬ list.HidesTop := by
      simpa [h, Except.toOption] using hhidden
    have hclean : clean "/build/o" = "/build/o" := by decide +kernel
    have hiff := hidesBelowDirectories_iff h hclean (by decide +kernel) honly
    exact ⟨list, rfl, hignored, hiff.mpr (Or.inr htop) hignored⟩

/-- A lone star in front of the slash matches the top as well, and so hides the files that lie in no
other directory. -/
theorem hides_files_in_top :
    OnlyDirectoryLines (builtinLines ++ ["*/"]) "/f" ∧
      ∃ list, ofLines ["*/"] = .ok list ∧ list.isIgnored "/f" false = true ∧
        ¬ LiesInMatched (builtinLines ++ ["*/"]) "/f" := by
  have hhidden : (ofLines ["*/"]).toOption.map (·.isIgnored "/f" false) = some true := by
    decide +kernel
  refine ⟨by decide +kernel, ?_⟩
  cases h : ofLines ["*/"] with
  | error e => simp [h, Except.toOption] at hhidden
  | ok list =>
    exact ⟨list, rfl, by simpa [h, Except.toOption] using hhidden, by decide +kernel⟩

end IgnoreList

end SyncEndpoint
