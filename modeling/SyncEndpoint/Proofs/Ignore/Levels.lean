import SyncEndpoint.Ignore.List
import SyncEndpoint.Proofs.Path.Names

set_option autoImplicit false

/-! # Verdicts level by level

What an ignore list says of a path goes up from it: the path itself, the directory it lies in, and
so on to the top. On a clean path these are its names with fewer and fewer at the end, so that the
verdict on a path is computed from the one on the directory above. -/

namespace SyncEndpoint

open CanonicalPath (IsSegment ofSegments separator)
open Text.Utf8

namespace Ignore

open NativePath (ofNames IsPart)

/-! ## Clean paths -/

/-- A clean path, seen from the top, is its segments as names. -/
theorem relativePath_ofSegments {ss : List String} (h : ∀ s ∈ ss, IsSegment s ∧ s ≠ ".") :
    relativePath (ofSegments ss) = ofNames (ss.map encode) := by
  cases ss with
  | nil => rfl
  | cons s ss =>
    obtain ⟨⟨hne, hsep⟩, hdot⟩ := h s List.mem_cons_self
    -- The first of these texts is what is left of the path without the separator in front.
    obtain ⟨text, htext⟩ : ∃ text, text = String.intercalate (String.singleton separator) (s :: ss) :=
      ⟨_, rfl⟩
    have hpath : (ofSegments (s :: ss)).toList = separator :: text.toList := by
      rw [ofSegments, ← htext, String.toList_append, String.toList_singleton, List.singleton_append]
    have hstart : text.toList = s.toList ++ ss.flatMap fun t => separator :: t.toList := by
      rw [CanonicalPath.toList_ofSegments (List.cons_ne_nil s ss), List.flatMap_cons] at hpath
      exact (List.cons.inj hpath).2.symm
    rw [NativePath.ofNames_map_encode, ← htext, encode, relativePath, hpath, hstart]
    rw [ne_eq, ← String.toList_inj] at hne hdot
    cases hs : s.toList with
    | nil => exact absurd hs hne
    | cons c cs =>
      rw [hs] at hsep hdot
      obtain ⟨hc, hcs⟩ : ¬ '/' = c ∧ '/' ∉ cs := by simpa [separator] using hsep
      have hdrop : (separator :: (c :: cs ++ ss.flatMap fun t => separator :: t.toList)).dropWhile
          (· == '/') = c :: cs ++ ss.flatMap fun t => separator :: t.toList := by
        simp [separator, Ne.symm hc]
      rw [hdrop]
      -- No clean path starts with a dot and a slash: its first segment would be the dot.
      split
      · next rest heq =>
        rw [List.cons_append, List.cons.injEq] at heq
        obtain ⟨rfl, heq⟩ := heq
        cases cs with
        | nil => exact absurd rfl hdot
        | cons d ds =>
          rw [List.cons_append, List.cons.injEq] at heq
          exact absurd (heq.1 ▸ List.mem_cons_self) hcs
      · rfl

/-- The verdict on a clean path is that on its segments. -/
theorem isIgnored_ofSegments {list : IgnoreList} {ss : List String} {isDir : Bool}
    (h : ∀ s ∈ ss, IsSegment s ∧ s ≠ ".") (hne : ss ≠ []) :
    list.isIgnored (ofSegments ss) isDir =
      (nearestVerdict? list.rules (ofNames (ss.map encode)) isDir == some .hidden) := by
  have hsome : (ofSegments ss).toList.all (· == '/') = false := by
    cases ss with
    | nil => exact absurd rfl hne
    | cons s ss =>
      obtain ⟨⟨hne, hsep⟩, -⟩ := h s List.mem_cons_self
      rw [ne_eq, ← String.toList_inj] at hne
      obtain ⟨c, hc⟩ := List.exists_mem_of_ne_nil _ hne
      have hne : c ≠ '/' := by
        rintro rfl
        exact hsep hc
      rw [List.all_eq_false, CanonicalPath.toList_ofSegments (List.cons_ne_nil _ _), List.flatMap_cons]
      exact ⟨c, List.mem_append_left _ (List.mem_cons_of_mem _ hc), by simpa using hne⟩
  rw [IgnoreList.isIgnored, hsome, if_neg Bool.false_ne_true, relativePath_ofSegments h]

/-! ## From a level to the next -/

variable {rules : List Rule} {names : List Bytes} {isDir : Bool}

/-- A path for which no rule applies is decided by the directory that it lies in. -/
theorem nearestVerdict?_concat (h : ∀ name ∈ names, IsPart name) {name : Bytes} (hname : IsPart name) :
    nearestVerdict? rules (ofNames (names ++ [name])) isDir =
      (verdict? rules (ofNames (names ++ [name])) isDir).or
        (nearestVerdict? rules (ofNames names) true) := by
  rw [nearestVerdict?, NativePath.ancestors_concat h hname, List.findSome?_cons, nearestVerdict?]
  cases verdict? rules (ofNames (names ++ [name])) isDir with
  | some v => rfl
  | none => cases verdict? rules (ofNames names) true <;> rfl

/-- Where nothing is decided, nothing is decided above. -/
theorem nearestVerdict?_eq_none_above (h : ∀ name ∈ names, IsPart name)
    (hnone : nearestVerdict? rules (ofNames names) true = none) {above : List Bytes}
    (hpre : above <+: names) : nearestVerdict? rules (ofNames above) true = none := by
  induction names using List.reverseRecOn with
  | nil =>
    rw [List.prefix_nil.mp hpre]
    exact hnone
  | append_singleton names name ih =>
    rw [List.forall_mem_append, List.forall_mem_singleton] at h
    rcases List.prefix_concat_iff.mp hpre with rfl | hpre
    · exact hnone
    · rw [nearestVerdict?_concat h.1 h.2, Option.or_eq_none_iff] at hnone
      exact ih h.1 hnone.2 hpre

/-- A list without rules hides nothing. -/
theorem isIgnored_nil (path : String) (isDir : Bool) :
    (⟨[]⟩ : IgnoreList).isIgnored path isDir = false := by
  have hnone : nearestVerdict? [] (relativePath path) isDir = none := by
    rw [nearestVerdict?]
    exact List.findSome?_eq_none_iff.mpr fun _ _ => rfl
  rw [IgnoreList.isIgnored, hnone]
  split <;> rfl

/-! ## Verdicts of more rules -/

/-- The later rules decide before the earlier ones. -/
theorem verdict?_append (rules rules' : List Rule) (path : Bytes) (isDir : Bool) :
    verdict? (rules ++ rules') path isDir =
      (verdict? rules' path isDir).or (verdict? rules path isDir) := by
  simp only [verdict?, List.reverse_append, List.find?_append]
  cases rules'.reverse.find? (·.applies path isDir) <;> rfl

/-! ## Rules that bring nothing back -/

theorem verdict?_ne_kept {path : Bytes} (h : ∀ rule ∈ rules, rule.negated = false) :
    verdict? rules path isDir ≠ some .kept := by
  intro hkept
  obtain ⟨rule, hfind, hverdict⟩ := Option.map_eq_some_iff.mp hkept
  have hmem := List.mem_reverse.mp (List.mem_of_find?_eq_some hfind)
  rw [Rule.verdict, h rule hmem] at hverdict
  cases hverdict

/-- Rules that bring nothing back hide what one of them applies to. -/
theorem verdict?_eq_ite {path : Bytes} (h : ∀ rule ∈ rules, rule.negated = false) :
    verdict? rules path isDir =
      if ∃ rule ∈ rules, rule.applies path isDir = true then some .hidden else none := by
  cases hverdict : verdict? rules path isDir with
  | none =>
    rw [verdict?, Option.map_eq_none_iff, List.find?_eq_none] at hverdict
    have hnone : ¬ ∃ rule ∈ rules, rule.applies path isDir = true := by
      rintro ⟨rule, hrule, happlies⟩
      exact hverdict rule (List.mem_reverse.mpr hrule) happlies
    rw [if_neg hnone]
  | some v =>
    have hv : v = .hidden := by
      cases v with
      | hidden => rfl
      | kept => exact absurd hverdict (verdict?_ne_kept h)
    obtain ⟨rule, hfind, -⟩ := Option.map_eq_some_iff.mp hverdict
    have hsome : ∃ rule ∈ rules, rule.applies path isDir = true :=
      ⟨rule, List.mem_reverse.mp (List.mem_of_find?_eq_some hfind), by
        simpa using List.find?_some hfind⟩
    rw [if_pos hsome, hv]

theorem nearestVerdict?_ne_kept {path : Bytes} (h : ∀ rule ∈ rules, rule.negated = false) :
    nearestVerdict? rules path isDir ≠ some .kept := by
  intro hkept
  unfold nearestVerdict? at hkept
  split at hkept
  · next v hv => exact verdict?_ne_kept h (hv.trans hkept)
  · obtain ⟨above, -, hv⟩ := List.exists_of_findSome?_eq_some hkept
    exact verdict?_ne_kept h hv

end Ignore

end SyncEndpoint
