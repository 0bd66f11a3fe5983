import Mathlib.Data.List.Basic
import Mathlib.Data.List.DropRight
import Mathlib.Data.List.Induction
import Mathlib.Data.List.TakeWhile
import SyncEndpoint.Path.Canonical

set_option autoImplicit false

/-! # The segments of canonical paths

What the functions on paths do is said by what they do to the segments: `segments` of a join is the
append, of a parent the list without its last element, of a cleaned path the list without dots,
and a rebased path has the segments of the new base with the rest behind them. Spelling plays no
part beyond this. -/

namespace SyncEndpoint.CanonicalPath

/-! ## Splitting -/

section Splitting

variable {isSeparator : Char → Bool}

@[simp]
theorem splitSegments_nil : splitSegments isSeparator [] = [] := rfl

theorem splitSegments_append_cons (cs ds : List Char) {c : Char} (hc : isSeparator c) :
    splitSegments isSeparator (cs ++ c :: ds) =
      splitSegments isSeparator cs ++ splitSegments isSeparator ds := by
  rw [splitSegments, List.splitOnP_append_cons cs ds hc, List.filter_append]
  rfl

theorem splitSegments_cons (cs : List Char) {c : Char} (hc : isSeparator c) :
    splitSegments isSeparator (c :: cs) = splitSegments isSeparator cs :=
  splitSegments_append_cons [] cs hc

theorem splitSegments_append_singleton (cs : List Char) {c : Char} (hc : isSeparator c) :
    splitSegments isSeparator (cs ++ [c]) = splitSegments isSeparator cs := by
  rw [splitSegments_append_cons cs [] hc, splitSegments_nil, List.append_nil]

/-- Text without a separator is one segment. -/
theorem splitSegments_eq_singleton {cs : List Char} (hne : cs ≠ [])
    (hcs : ∀ c ∈ cs, isSeparator c = false) : splitSegments isSeparator cs = [cs] := by
  simp [splitSegments, List.splitOnP_eq_singleton hcs, hne]

theorem splitSegments_dropWhile (cs : List Char) :
    splitSegments isSeparator (cs.dropWhile isSeparator) = splitSegments isSeparator cs := by
  induction cs with
  | nil => rfl
  | cons c cs ih =>
    by_cases hc : isSeparator c
    · rw [List.dropWhile_cons_of_pos hc, ih, splitSegments_cons cs hc]
    · rw [List.dropWhile_cons_of_neg hc]

theorem splitSegments_trimEnd (cs : List Char) :
    splitSegments isSeparator (Text.trimEnd isSeparator cs) = splitSegments isSeparator cs := by
  induction cs using List.reverseRecOn with
  | nil => rfl
  | append_singleton cs c ih =>
    by_cases hc : isSeparator c
    · rw [Text.trimEnd, List.reverse_append, List.reverse_singleton, List.singleton_append,
        List.dropWhile_cons_of_pos hc, ← Text.trimEnd, ih, splitSegments_append_singleton cs hc]
    · rw [Text.trimEnd, List.reverse_append, List.reverse_singleton, List.singleton_append,
        List.dropWhile_cons_of_neg hc, List.reverse_cons, List.reverse_reverse]

/-- A part is neither empty nor does it have a separator in it. -/
theorem of_mem_splitSegments {cs part : List Char} (h : part ∈ splitSegments isSeparator cs) :
    part ≠ [] ∧ ∀ c ∈ part, isSeparator c = false := by
  induction hn : cs.length using Nat.strongRecOn generalizing cs with
  | ind n ih =>
    subst hn
    by_cases hcs : ∀ c ∈ cs, isSeparator c = false
    · by_cases hne : cs = []
      · subst hne
        simp at h
      · rw [splitSegments_eq_singleton hne hcs, List.mem_singleton] at h
        subst h
        exact ⟨hne, hcs⟩
    · obtain ⟨c, hc, hsep⟩ : ∃ c ∈ cs, isSeparator c = true := by simpa using hcs
      obtain ⟨before, after, rfl⟩ := List.append_of_mem hc
      rw [splitSegments_append_cons before after hsep, List.mem_append] at h
      rcases h with h | h
      · exact ih before.length (by simp) h rfl
      · exact ih after.length (by simp; omega) h rfl

end Splitting

/-! ## Segments -/

/-- Text that is one segment: not empty, and no separator in it. -/
def IsSegment (s : String) : Prop :=
  s ≠ "" ∧ separator ∉ s.toList

theorem IsSegment.splitSegments_eq {s : String} (h : IsSegment s) :
    splitSegments (· == separator) s.toList = [s.toList] := by
  refine splitSegments_eq_singleton (by simpa using h.1) fun c hc => ?_
  rw [beq_eq_false_iff_ne]
  rintro rfl
  exact h.2 hc

theorem isSegment_of_mem_segments {path s : String} (h : s ∈ segments path) : IsSegment s := by
  rw [segments, List.mem_map] at h
  obtain ⟨part, hpart, rfl⟩ := h
  obtain ⟨hne, hsep⟩ := of_mem_splitSegments hpart
  refine ⟨by simpa using hne, fun hmem => ?_⟩
  rw [String.toList_ofList] at hmem
  simpa using hsep separator hmem

theorem segments_ofList (cs : List Char) :
    segments (String.ofList cs) = (splitSegments (· == separator) cs).map String.ofList := by
  rw [segments, String.toList_ofList]

/-- A list of segments, as text, has these segments. -/
theorem segments_intercalate {ss : List String} (h : ∀ s ∈ ss, IsSegment s) :
    segments (String.intercalate (String.singleton separator) ss) = ss := by
  rw [segments, String.toList_intercalate, String.toList_singleton]
  induction ss with
  | nil => rfl
  | cons s ss ih =>
    have hs := (h s List.mem_cons_self).splitSegments_eq
    have ih := ih fun t ht => h t (List.mem_cons_of_mem _ ht)
    cases ss with
    | nil => simp [hs]
    | cons t ts =>
      rw [List.map_cons, List.map_cons, List.intercalate_cons_cons, ← List.map_cons,
        List.append_assoc, List.singleton_append, splitSegments_append_cons _ _ (by simp), hs,
        List.map_append, ih]
      simp

theorem segments_ofSegments {ss : List String} (h : ∀ s ∈ ss, IsSegment s) :
    segments (ofSegments ss) = ss := by
  rw [ofSegments, segments, String.toList_append, String.toList_singleton, List.singleton_append,
    splitSegments_cons _ (by simp)]
  exact segments_intercalate h

@[simp]
theorem segments_clean (path : String) : segments (clean path) = names path :=
  segments_ofSegments fun _ hs => isSegment_of_mem_segments (List.mem_filter.mp hs).1

@[simp]
theorem segments_eq_names {path : String} (h : clean path = path) : segments path = names path := by
  rw [← segments_clean, h]

theorem names_clean (path : String) : names (clean path) = names path := by
  rw [names, segments_clean, names, List.filter_filter]
  simp

theorem clean_clean (path : String) : clean (clean path) = clean path := by
  rw [clean, names_clean, clean]

theorem isRoot_iff (path : String) : isRoot path = true ↔ segments path = [] := by
  rw [isRoot, List.isEmpty_iff]

theorem isRoot_clean_iff (path : String) : isRoot (clean path) = true ↔ names path = [] := by
  rw [isRoot_iff, segments_clean]

/-- A clean spelling stands for the names in it. -/
theorem clean_inj {p q : String} : clean p = clean q ↔ names p = names q := by
  refine ⟨fun h => ?_, fun h => by rw [clean, h, clean]⟩
  rw [← segments_clean, h, segments_clean]

/-- The names of a path are segments, and none of them is a dot. -/
theorem of_mem_names {path s : String} (h : s ∈ names path) : IsSegment s ∧ s ≠ "." := by
  obtain ⟨hmem, hdot⟩ := List.mem_filter.mp h
  exact ⟨isSegment_of_mem_segments hmem, by simpa using hdot⟩

/-! ## Join and parent -/

@[simp]
theorem segments_join (parent name : String) :
    segments (join parent name) = segments parent ++ segments name := by
  simp only [segments, join, String.toList_append, String.toList_ofList, String.toList_singleton,
    List.append_assoc, List.singleton_append]
  rw [splitSegments_append_cons _ _ (by simp), splitSegments_trimEnd, splitSegments_dropWhile,
    List.map_append]

theorem segments_of_isSegment {s : String} (h : IsSegment s) : segments s = [s] := by
  rw [segments, h.splitSegments_eq, List.map_singleton, String.ofList_toList]

/-- What is left of a list after its last separator is one segment more than what is before. -/
theorem splitSegments_beforeLast {cs : List Char} {c : Char} (hc : c ≠ separator) :
    splitSegments (· == separator)
        (((cs ++ [c]).reverse.dropWhile (· != separator)).tail.reverse) =
      (splitSegments (· == separator) (cs ++ [c])).dropLast := by
  set xs := cs ++ [c] with hxs
  -- The text is what goes up to its last separator, and a part without one.
  set after := (xs.reverse.takeWhile (· != separator)).reverse with hafter
  have hsplit : xs = (xs.reverse.dropWhile (· != separator)).reverse ++ after := by
    rw [hafter, ← List.reverse_append, List.takeWhile_append_dropWhile, List.reverse_reverse]
  have hne : after ≠ [] := by
    simp [hafter, hxs, hc]
  have hno : ∀ d ∈ after, (d == separator) = false := by
    intro d hd
    rw [hafter, List.mem_reverse] at hd
    simpa using List.mem_takeWhile_imp hd
  cases hrest : xs.reverse.dropWhile (· != separator) with
  | nil =>
    rw [hrest, List.reverse_nil, List.nil_append] at hsplit
    rw [hsplit, splitSegments_eq_singleton hne hno]
    rfl
  | cons d ds =>
    have hd : d = separator := by
      have := List.head_dropWhile_not (· != separator) (l := xs.reverse) (by simp [hrest])
      simpa [hrest] using this
    subst hd
    rw [hrest, List.reverse_cons, List.append_assoc, List.singleton_append] at hsplit
    rw [hsplit, splitSegments_append_cons _ _ (by simp), splitSegments_eq_singleton hne hno,
      List.dropLast_concat, List.tail_cons]

/-- The parent of a path lacks its last segment. -/
theorem parent_eq_some {path : String} (h : segments path ≠ []) :
    ∃ above, parent path = some above ∧ segments above = (segments path).dropLast := by
  have hroot : isRoot path = false := by
    rw [← Bool.not_eq_true, isRoot_iff]
    exact h
  -- Without the separators at its end the path ends with another character.
  obtain ⟨cs, c, hcs, hc⟩ : ∃ cs c, Text.trimEnd (· == separator) path.toList = cs ++ [c] ∧
      c ≠ separator := by
    have hne : path.toList.reverse.dropWhile (· == separator) ≠ [] := by
      intro hnil
      rw [segments, ← splitSegments_trimEnd, Text.trimEnd, hnil] at h
      exact h rfl
    refine ⟨(path.toList.reverse.dropWhile (· == separator)).tail.reverse,
      (path.toList.reverse.dropWhile (· == separator)).head hne, ?_, ?_⟩
    · rw [Text.trimEnd, ← List.reverse_cons, List.cons_head_tail]
    · simpa using List.head_dropWhile_not (· == separator) hne
  refine ⟨_, by rw [parent, if_neg (by simp [hroot])], ?_⟩
  have hsegments : segments path =
      (splitSegments (· == separator) (cs ++ [c])).map String.ofList := by
    rw [segments, ← splitSegments_trimEnd, hcs]
  rw [hcs, hsegments, ← List.map_dropLast, ← splitSegments_beforeLast hc]
  split
  · next hempty =>
    rw [List.isEmpty_iff] at hempty
    rw [hempty]
    rfl
  · rw [segments_ofList]

/-! ## Spellings -/

/-- Each segment has a separator in front of it. -/
theorem toList_ofSegments {ss : List String} (hne : ss ≠ []) :
    (ofSegments ss).toList = ss.flatMap fun s => separator :: s.toList := by
  rw [ofSegments, String.toList_append, String.toList_singleton, String.toList_intercalate,
    String.toList_singleton, List.singleton_append]
  induction ss with
  | nil => exact absurd rfl hne
  | cons s ss ih =>
    cases ss with
    | nil => simp
    | cons t ts =>
      rw [List.flatMap_cons, ← ih (List.cons_ne_nil t ts), List.map_cons, List.map_cons,
        List.intercalate_cons_cons]
      simp

/-- Only the spelling of the root ends with a separator. -/
theorem trimEnd_ofSegments {ss : List String} (h : ∀ s ∈ ss, IsSegment s) :
    Text.trimEnd (· == separator) (ofSegments ss).toList =
      ss.flatMap fun s => separator :: s.toList := by
  rcases List.eq_nil_or_concat' ss with rfl | ⟨above, s, rfl⟩
  · rfl
  · obtain ⟨hne, hsep⟩ := h s (List.mem_append_right _ (List.mem_singleton.mpr rfl))
    obtain ⟨cs, c, hs⟩ := (List.eq_nil_or_concat' s.toList).resolve_left (by simpa using hne)
    have hc : c ≠ separator := by
      rintro rfl
      exact hsep (by simp [hs])
    rw [toList_ofSegments (by simp), List.flatMap_append, List.flatMap_singleton, hs, Text.trimEnd]
    simp [hc]

/-- What is joined to a spelling is one more segment of it. -/
theorem join_ofSegments {ss : List String} {s : String} (h : ∀ s ∈ ss, IsSegment s)
    (hs : IsSegment s) :
    join (ofSegments ss) (String.singleton separator ++ s) = ofSegments (ss ++ [s]) := by
  have hdrop : s.toList.dropWhile (· == separator) = s.toList :=
    List.dropWhile_eq_self_iff.mpr fun hpos => by
      have hmem : s.toList[0] ∈ s.toList := List.getElem_mem hpos
      simp only [beq_iff_eq]
      exact fun heq => hs.2 (heq ▸ hmem)
  rw [← String.toList_inj, toList_ofSegments (by simp), join, trimEnd_ofSegments h]
  simp [hdrop]

/-- Spellings without dots are clean. -/
theorem clean_ofSegments {ss : List String} (h : ∀ s ∈ ss, IsSegment s ∧ s ≠ ".") :
    clean (ofSegments ss) = ofSegments ss := by
  rw [clean, names, segments_ofSegments fun s hs => (h s hs).1,
    List.filter_eq_self.mpr fun s hs => by simpa using (h s hs).2]

/-! ## Tidy paths -/

/-- A path that is spelled clean, but for separators at its end. -/
def IsTidy (path : String) : Prop :=
  Text.trimEnd (· == separator) path.toList =
    (names path).flatMap fun s => separator :: s.toList

theorem isTidy_clean (path : String) : IsTidy (clean path) := by
  rw [IsTidy, names_clean]
  exact trimEnd_ofSegments fun s hs => (of_mem_names hs).1

theorem names_join_clean (path name : String) :
    names (join path (clean name)) = names path ++ names name := by
  rw [names, segments_join, List.filter_append]
  exact congrArg (names path ++ ·) (names_clean name)

/-- Nothing but a separator is added by a name that says nothing. -/
theorem IsTidy.join_of_names_eq_nil {path name : String} (h : IsTidy path) (hname : names name = []) :
    IsTidy (join path (clean name)) := by
  have hdrop : (clean name).toList.dropWhile (· == separator) = [] := by
    rw [clean, hname]
    decide
  rw [IsTidy, names_join_clean, hname, List.append_nil, ← h, join, hdrop]
  simp [Text.trimEnd, List.dropWhile_idempotent]

/-- A clean name behind a tidy path gives a clean path. -/
theorem IsTidy.clean_join {path name : String} (h : IsTidy path) (hname : names name ≠ []) :
    clean (join path (clean name)) = join path (clean name) := by
  have hdrop : separator :: (clean name).toList.dropWhile (· == separator) =
      (names name).flatMap fun s => separator :: s.toList := by
    rw [clean, toList_ofSegments hname]
    cases hnames : names name with
    | nil => exact absurd hnames hname
    | cons s ss =>
      obtain ⟨⟨hne, hsep⟩, -⟩ := of_mem_names (hnames ▸ List.mem_cons_self : s ∈ names name)
      rw [ne_eq, ← String.toList_inj] at hne
      cases hs : s.toList with
      | nil => exact absurd hs hne
      | cons c cs =>
        rw [hs, List.mem_cons, not_or] at hsep
        simp [hs, Ne.symm hsep.1]
  rw [← String.toList_inj, clean, names_join_clean, toList_ofSegments (by simp [hname]),
    List.flatMap_append, join, ← hdrop, h]
  simp

theorem IsTidy.join {path name : String} (h : IsTidy path) : IsTidy (join path (clean name)) := by
  by_cases hname : names name = []
  · exact h.join_of_names_eq_nil hname
  · rw [← h.clean_join hname]
    exact isTidy_clean _

/-! ## Rebasing -/

theorem startsWith_iff (path base : String) :
    startsWith path base = true ↔ segments base <+: segments path := by
  rw [startsWith, List.isPrefixOf_iff_prefix]

theorem startsWith_clean_iff (path base : String) :
    startsWith (clean path) (clean base) = true ↔ names base <+: names path := by
  rw [startsWith_iff, segments_clean, segments_clean]

/-- A path below `source` is rebased to the path with the same rest below `target`. -/
theorem rebase_eq_some {path source : String} {rest : List String}
    (h : segments path = segments source ++ rest) (target : String) :
    ∃ moved, rebase path source target = some moved ∧ segments moved = names target ++ rest := by
  have hstart : startsWith path source = true := by
    rw [startsWith_iff, h]
    exact List.prefix_append _ _
  have hdrop : (segments path).drop (depth source) = rest := by
    rw [h, depth, List.drop_left]
  have hrest : ∀ s ∈ rest, IsSegment s := by
    intro s hs
    have hmem : s ∈ segments path := by
      rw [h]
      exact List.mem_append_right _ hs
    exact isSegment_of_mem_segments hmem
  rw [rebase, if_pos hstart, hdrop]
  cases rest with
  | nil => exact ⟨_, rfl, by simp⟩
  | cons s rest => exact ⟨_, rfl, by rw [segments_join, segments_clean, segments_intercalate hrest]⟩

/-- A rebased path is that of a path below `source`. -/
theorem of_rebase_eq_some {path source target moved : String}
    (h : rebase path source target = some moved) :
    ∃ rest, segments path = segments source ++ rest ∧ segments moved = names target ++ rest := by
  have hstart : startsWith path source = true := by
    rw [rebase] at h
    by_contra hno
    rw [if_neg hno] at h
    cases h
  obtain ⟨rest, hrest⟩ := (startsWith_iff path source).mp hstart
  obtain ⟨moved', hmoved, hsegments⟩ := rebase_eq_some hrest.symm target
  rw [hmoved] at h
  cases h
  exact ⟨rest, hrest.symm, hsegments⟩

/-! ## What is clean again -/

/-- Names behind a clean path give a clean path. -/
theorem clean_join_intercalate {path : String} {ss : List String} (h : clean path = path)
    (hne : ss ≠ []) (hss : ∀ s ∈ ss, IsSegment s ∧ s ≠ ".") :
    clean (join path (String.intercalate (String.singleton separator) ss)) =
      join path (String.intercalate (String.singleton separator) ss) := by
  set suffix := String.intercalate (String.singleton separator) ss with hsuffix
  have hnames : names suffix = ss := by
    rw [names, hsuffix, segments_intercalate fun s hs => (hss s hs).1,
      List.filter_eq_self.mpr fun s hs => by simpa using (hss s hs).2]
  have hclean : clean suffix = String.singleton separator ++ suffix := by
    rw [clean, hnames, ofSegments]
  have hjoin : join path (clean suffix) = join path suffix := by
    rw [hclean, join, join]
    simp
  have htidy : IsTidy path := h ▸ isTidy_clean path
  rw [← hjoin]
  exact htidy.clean_join (by rwa [hnames])

theorem clean_join_of_isSegment {path name : String} (h : clean path = path) (hname : IsSegment name)
    (hdot : name ≠ ".") : clean (join path name) = join path name := by
  have hjoin := clean_join_intercalate h (List.cons_ne_nil name [])
    (List.forall_mem_singleton.mpr ⟨hname, hdot⟩)
  rwa [String.intercalate_singleton] at hjoin

theorem parent_ofSegments {ss : List String} {s : String} (hss : ∀ s ∈ ss, IsSegment s)
    (hs : IsSegment s) : parent (ofSegments (ss ++ [s])) = some (ofSegments ss) := by
  have hall : ∀ t ∈ ss ++ [s], IsSegment t := by
    simpa [or_imp, forall_and] using ⟨hss, hs⟩
  have hroot : isRoot (ofSegments (ss ++ [s])) = false := by
    rw [isRoot, segments_ofSegments hall]
    simp
  have hlast : ∀ c ∈ s.toList.reverse, (c != separator) = true := by
    intro c hc
    rw [bne_iff_ne]
    rintro rfl
    exact hs.2 (List.mem_reverse.mp hc)
  have hbefore : (((ss.flatMap fun t => separator :: t.toList) ++
      separator :: s.toList).reverse.dropWhile (· != separator)).tail.reverse =
        ss.flatMap fun t => separator :: t.toList := by
    rw [List.reverse_append, List.reverse_cons, List.append_assoc, List.dropWhile_append_of_pos hlast]
    simp
  rw [parent, if_neg (by simp [hroot]), trimEnd_ofSegments hall, List.flatMap_append,
    List.flatMap_singleton]
  dsimp only
  rw [hbefore]
  cases ss with
  | nil => rfl
  | cons t ts =>
    rw [← toList_ofSegments (List.cons_ne_nil t ts), String.ofList_toList,
      toList_ofSegments (List.cons_ne_nil t ts)]
    rfl

theorem clean_of_parent {path above : String} (h : clean path = path)
    (hparent : parent path = some above) : clean above = above := by
  have hnames : ∀ s ∈ names path, IsSegment s ∧ s ≠ "." := fun s => of_mem_names
  rw [← h, clean] at hparent
  rcases List.eq_nil_or_concat' (names path) with hnil | ⟨ss, s, heq⟩
  · rw [hnil] at hparent
    cases hparent
  · rw [heq] at hparent hnames
    rw [List.forall_mem_append, List.forall_mem_singleton] at hnames
    rw [parent_ofSegments (fun s hs => (hnames.1 s hs).1) hnames.2.1, Option.some.injEq] at hparent
    rw [← hparent, clean_ofSegments hnames.1]

theorem clean_of_rebase {path source target moved : String} (h : clean path = path)
    (hmoved : rebase path source target = some moved) : clean moved = moved := by
  rw [rebase] at hmoved
  split at hmoved
  · split at hmoved
    · rw [← Option.some.inj hmoved, clean_clean]
    · next suffix hne =>
      rw [← Option.some.inj hmoved]
      refine clean_join_intercalate (clean_clean target) hne fun s hs => ?_
      have hmem := List.mem_of_mem_drop hs
      rw [← h, segments_clean] at hmem
      exact of_mem_names hmem
  · cases hmoved

end SyncEndpoint.CanonicalPath
