import SyncEndpoint.Proofs.Path.Native

set_option autoImplicit false

/-! # Paths made of names

A list of names with slashes between them is a relative path, and the functions on native paths are
those on the list: its components are the names, the paths above it are those of fewer names, and what
is joined to it is one name more. Of any path, `relative` keeps the names. -/

namespace SyncEndpoint

open CanonicalPath (IsSegment ofSegments separator)
open Text.Utf8

namespace NativePath

variable {names : List Bytes} {name : Bytes}

/-! ## Parts -/

theorem ofNames_cons_cons (first second : Bytes) (rest : List Bytes) :
    ofNames (first :: second :: rest) = first ++ slash :: ofNames (second :: rest) := by
  rw [ofNames, List.intercalate_cons_cons, List.append_assoc, List.singleton_append]
  rfl

theorem ofNames_concat (hne : names ≠ []) :
    ofNames (names ++ [name]) = ofNames names ++ slash :: name := by
  induction names with
  | nil => exact absurd rfl hne
  | cons first rest ih =>
    cases rest with
    | nil =>
      simp [ofNames, List.intercalate]
    | cons second rest =>
      rw [List.cons_append, List.cons_append, ofNames_cons_cons, ofNames_cons_cons,
        ← List.cons_append, ih (List.cons_ne_nil _ _), List.append_assoc, List.cons_append]

/-- A part of a path that says something: it is neither empty nor a dot. -/
def IsPart (part : Bytes) : Prop :=
  part ≠ [] ∧ part ≠ dot ∧ slash ∉ part

theorem IsName.isPart (h : IsName name) : IsPart name :=
  ⟨h.1, h.2.1, h.2.2.2⟩

theorem isPart_encode {s : String} (h : IsSegment s ∧ s ≠ ".") : IsPart (encode s) := by
  have hnil : ([] : Bytes) = encode "" := rfl
  have hdot : dot = encode "." := rfl
  rw [IsPart, hnil, hdot, ne_eq, ne_eq, encode_inj, encode_inj, slash_mem_encode_iff]
  exact ⟨h.1.1, h.2, h.1.2⟩

theorem isPart_of_mem_map {ss : List String} (h : ∀ s ∈ ss, IsSegment s ∧ s ≠ ".") :
    ∀ part ∈ ss.map encode, IsPart part := by
  intro part hpart
  obtain ⟨s, hs, rfl⟩ := List.mem_map.mp hpart
  exact isPart_encode (h s hs)

theorem IsPart.isVoid (h : IsPart name) : isVoid name = false := by
  simp [NativePath.isVoid, h.1, h.2.1]

theorem splitOn_ofNames (h : ∀ name ∈ names, slash ∉ name) (hne : names ≠ []) :
    (ofNames names).splitOn slash = names :=
  List.splitOn_intercalate slash h hne

section IsPart

variable (h : ∀ name ∈ names, IsPart name)

include h

theorem slash_not_mem_of_isPart : ∀ name ∈ names, slash ∉ name :=
  fun name hname => (h name hname).2.2

theorem isAbsolute_ofNames : isAbsolute (ofNames names) = false := by
  cases names with
  | nil => rfl
  | cons first rest =>
    obtain ⟨hne, -, hslash⟩ := h first List.mem_cons_self
    cases first with
    | nil => exact absurd rfl hne
    | cons b bs =>
      have hb : b ≠ slash := fun heq => hslash (heq ▸ List.mem_cons_self)
      cases rest with
      | nil => simp [isAbsolute, ofNames, List.intercalate, hb]
      | cons second rest => simp [isAbsolute, ofNames_cons_cons, hb]

theorem startsWithDot_ofNames : startsWithDot (ofNames names) = false := by
  cases names with
  | nil => rfl
  | cons first rest =>
    rw [startsWithDot, splitOn_ofNames (slash_not_mem_of_isPart h) (List.cons_ne_nil _ _)]
    simpa using (h first List.mem_cons_self).2.1

theorem lead_ofNames : lead (ofNames names) = [] := by
  rw [lead, if_neg (by simp [isAbsolute_ofNames h]), if_neg (by simp [startsWithDot_ofNames h])]

theorem remainders_reverse_concat (hname : IsPart name) :
    remainders (names ++ [name]).reverse = names.reverse :: remainders names.reverse := by
  have hdrop : names.reverse.dropWhile isVoid = names.reverse := by
    refine List.dropWhile_eq_self_iff.mpr fun hpos => ?_
    rw [(h _ (List.mem_reverse.mp (List.getElem_mem hpos))).isVoid]
    exact Bool.false_ne_true
  rw [List.reverse_append, List.reverse_singleton, List.singleton_append, remainders,
    if_neg (by simp [hname.isVoid]), hdrop]

/-- The paths above some names are what is left when the names at the end go, one at a time. -/
theorem ancestors_ofNames :
    ancestors (ofNames names) = (remainders names.reverse).map fun rest => ofNames rest.reverse := by
  rw [ancestors, cutLead, if_neg (by simp [isAbsolute_ofNames h]),
    if_neg (by simp [startsWithDot_ofNames h])]
  simp only [startsWithDot_ofNames h, Bool.and_false, Bool.false_eq_true, if_false]
  cases names with
  | nil => rfl
  | cons first rest =>
    rw [splitOn_ofNames (slash_not_mem_of_isPart h) (List.cons_ne_nil _ _)]
    rfl

end IsPart

/-- The nearest path above is that of all names but the last. -/
theorem ancestors_concat (h : ∀ name ∈ names, IsPart name) (hname : IsPart name) :
    ancestors (ofNames (names ++ [name])) = ofNames names :: ancestors (ofNames names) := by
  have hall : ∀ n ∈ names ++ [name], IsPart n := by
    rw [List.forall_mem_append, List.forall_mem_singleton]
    exact ⟨h, hname⟩
  rw [ancestors_ofNames hall, ancestors_ofNames h, remainders_reverse_concat h hname,
    List.map_cons, List.reverse_reverse]

/-! ## Components -/

/-- What stands in a path, as a component. -/
def Component.ofPart (part : Bytes) : Component :=
  if part == dotDot then .parent else .normal part

theorem bytes_ofPart (part : Bytes) : (Component.ofPart part).bytes = part := by
  rw [Component.ofPart]
  split
  · next h => exact (eq_of_beq h).symm
  · rfl

theorem ofPart_of_isName {name : Bytes} (h : IsName name) : Component.ofPart name = .normal name := by
  rw [Component.ofPart, if_neg]
  simpa using h.2.2.1

theorem components_ofNames (h : ∀ name ∈ names, IsPart name) :
    components (ofNames names) = names.map Component.ofPart := by
  have hpart : ∀ name ∈ names, Component.ofPart? name = some (Component.ofPart name) := by
    intro name hname
    rw [Component.ofPart?, (h name hname).isVoid, Component.ofPart]
    cases name == dotDot <;> rfl
  rw [components, lead_ofNames h, List.nil_append]
  cases names with
  | nil => rfl
  | cons first rest =>
    rw [splitOn_ofNames (slash_not_mem_of_isPart h) (List.cons_ne_nil _ _), ← List.filterMap_eq_map]
    exact List.filterMap_congr hpart

/-- The components of a list of names are the names. -/
theorem components_of_isName (h : ∀ name ∈ names, IsName name) :
    components (ofNames names) = names.map .normal := by
  rw [components_ofNames fun name hname => (h name hname).isPart]
  exact List.map_congr_left fun name hname => ofPart_of_isName (h name hname)

theorem components_eq_map_names {p : NativePath}
    (h : ∀ c ∈ components p, ∃ name, c = Component.normal name) :
    components p = (NativePath.names p).map .normal := by
  have hsome : ∀ c ∈ components p, (Component.name? c).map Component.normal = some c := by
    intro c hc
    obtain ⟨name, rfl⟩ := h c hc
    rfl
  rw [NativePath.names, List.map_filterMap, List.filterMap_congr hsome, List.filterMap_some]

/-- Of some names those count for a key that are no double dots. -/
theorem names_ofNames (h : ∀ name ∈ names, IsPart name) :
    NativePath.names (ofNames names) = names.filter (· ≠ dotDot) := by
  have hname : Component.name? ∘ Component.ofPart =
      fun name => if decide (name ≠ dotDot) = true then some name else none := by
    funext name
    rw [Function.comp_apply, Component.ofPart]
    by_cases hdots : name = dotDot <;> simp [hdots, Component.name?]
  rw [NativePath.names, components_ofNames h, List.filterMap_map, hname, ← List.filterMap_eq_filter]
  rfl

/-! ## Operations -/

theorem ofNames_singleton : ofNames [name] = name :=
  List.intercalate_singleton

theorem ofNames_ne_nil (h : ∀ name ∈ names, IsPart name) (hne : names ≠ []) : ofNames names ≠ [] := by
  intro hnil
  have hsplit := splitOn_ofNames (slash_not_mem_of_isPart h) hne
  rw [hnil, List.splitOn_nil] at hsplit
  exact (h [] (hsplit ▸ List.mem_singleton.mpr rfl)).1 rfl

theorem getLast?_ofNames_ne (h : ∀ name ∈ names, IsPart name) :
    (ofNames names).getLast? ≠ some slash := by
  rcases List.eq_nil_or_concat' names with rfl | ⟨above, name, rfl⟩
  · exact nofun
  · obtain ⟨hne, -, hslash⟩ := h name (List.mem_append_right _ (List.mem_singleton.mpr rfl))
    -- The last byte is that of the last name.
    have hsuffix : name <:+ ofNames (above ++ [name]) := by
      by_cases habove : above = []
      · subst habove
        exact ⟨[], ofNames_singleton.symm⟩
      · rw [ofNames_concat habove]
        exact (List.suffix_cons slash name).trans (List.suffix_append _ _)
    intro hlast
    obtain ⟨front, hfront⟩ := hsuffix
    rw [← hfront, List.getLast?_append_of_ne_nil _ hne] at hlast
    exact hslash (List.mem_of_getLast? hlast)

/-- What is joined to names is one more of them. -/
theorem join_ofNames (h : ∀ name ∈ names, IsPart name) (hname : IsPart name) :
    join (ofNames names) name = ofNames (names ++ [name]) := by
  have hrelative : isAbsolute name = false := by
    have := isAbsolute_ofNames (List.forall_mem_singleton.mpr hname)
    rwa [ofNames_singleton] at this
  rw [join, if_neg (by simp [hrelative])]
  by_cases hne : names = []
  · subst hne
    exact ofNames_singleton.symm
  · rw [if_neg, ofNames_concat hne]
    simp [ofNames_ne_nil h hne, getLast?_ofNames_ne h]

theorem parent?_ofNames_concat (h : ∀ name ∈ names, IsPart name) (hname : IsPart name) :
    parent? (ofNames (names ++ [name])) = some (ofNames names) := by
  rw [parent?, ancestors_concat h hname, List.head?_cons]

theorem fileName?_ofNames (h : ∀ name ∈ names, IsName name) :
    fileName? (ofNames names) = names.getLast? := by
  rw [fileName?, components_of_isName h, List.getLast?_map]
  cases names.getLast? <;> rfl

/-! ## The names of a path -/

/-- The names of a path as a path: without the root, dots and double dots. -/
def relative (p : NativePath) : NativePath :=
  ofNames (NativePath.names p)

theorem lead_relative (p : NativePath) : lead (relative p) = [] :=
  lead_ofNames fun _ hname => (isName_of_mem_names hname).isPart

theorem components_relative (p : NativePath) :
    components (relative p) = (NativePath.names p).map .normal :=
  components_of_isName fun _ => isName_of_mem_names

theorem relative_relative (p : NativePath) : relative (relative p) = relative p := by
  have hnames : NativePath.names (relative p) = NativePath.names p := by
    rw [NativePath.names, components_relative, List.filterMap_map]
    exact List.filterMap_some
  rw [relative, hnames, relative]

/-! ## Joining -/

theorem lead_append_slash {p : NativePath} (hne : p ≠ []) (q : NativePath) :
    lead (p ++ slash :: q) = lead p := by
  have habsolute : isAbsolute (p ++ slash :: q) = isAbsolute p := by
    rw [isAbsolute, List.head?_append_of_ne_nil _ hne, isAbsolute]
  have hdot : startsWithDot (p ++ slash :: q) = startsWithDot p := by
    rw [startsWithDot, splitOn_append_slash,
      List.head?_append_of_ne_nil _ (List.splitOn_ne_nil slash p), startsWithDot]
  rw [lead, habsolute, hdot, lead]

theorem isAbsolute_of_lead {p : NativePath} (h : lead p = []) : isAbsolute p = false := by
  by_contra habsolute
  rw [Bool.not_eq_false] at habsolute
  rw [lead, if_pos habsolute] at h
  cases h

theorem components_of_lead {p : NativePath} (h : lead p = []) :
    components p = (p.splitOn slash).filterMap Component.ofPart? := by
  rw [components, h, List.nil_append]

theorem components_append_slash {p q : NativePath} (hne : p ≠ []) (hq : lead q = []) :
    components (p ++ slash :: q) = components p ++ components q := by
  rw [components, lead_append_slash hne, splitOn_append_slash, List.filterMap_append,
    ← List.append_assoc, ← components, ← components_of_lead hq]

theorem components_slash_cons {q : NativePath} (hq : lead q = []) :
    components (slash :: q) = [.root] ++ components q := by
  have hsplit : (slash :: q).splitOn slash = [] :: q.splitOn slash := splitOn_append_slash [] q
  rw [components, hsplit, List.filterMap_cons_none rfl, ← components_of_lead hq]
  rfl

/-- Joining a relative path adds its components. -/
theorem components_join {p q : NativePath} (hq : lead q = []) :
    components (join p q) = components p ++ components q := by
  rw [join, if_neg (by simp [isAbsolute_of_lead hq])]
  split
  · next hlast =>
    rw [Bool.or_eq_true, List.isEmpty_iff, beq_iff_eq] at hlast
    rcases hlast with rfl | hlast
    · rfl
    · -- The slash at the end of `p` separates as well.
      obtain ⟨p', rfl⟩ := List.getLast?_eq_some_iff.mp hlast
      rw [List.append_assoc, List.singleton_append]
      by_cases hne : p' = []
      · subst hne
        exact components_slash_cons hq
      · have hslash := components_append_slash hne (rfl : lead [] = [])
        rw [components_append_slash hne hq, hslash]
        exact congrArg (· ++ components q) (List.append_nil _).symm
  · next hlast =>
    rw [Bool.or_eq_true, not_or, List.isEmpty_iff] at hlast
    exact components_append_slash hlast.1 hq

/-! ## Paths below a root -/

/-- The path `below` is what `p` has below `base`: its components from there on. -/
def LiesBelow (p base below : NativePath) : Prop :=
  ∃ rest, components p = components base ++ rest ∧
    below = List.intercalate [slash] (rest.map Component.bytes)

theorem below?_eq_some_iff {p base below : NativePath} :
    below? p base = some below ↔ LiesBelow p base below := by
  rw [below?, Option.map_eq_some_iff]
  refine exists_congr fun rest => and_congr ?_ eq_comm
  rw [List.isPrefixOf?_eq_some_iff_append_eq, eq_comm]

theorem below?_eq_none_iff {p base : NativePath} :
    below? p base = none ↔ ¬ components base <+: components p := by
  rw [below?, Option.map_eq_none_iff, ← List.isPrefixOf_iff_prefix,
    ← List.isSome_isPrefixOf?_eq_isPrefixOf, Bool.not_eq_true, Option.isSome_eq_false_iff,
    Option.isNone_iff_eq_none]

/-- What a path has below another are the components that it has more. -/
theorem below?_eq_some {p base : NativePath}
    (h : components p = components base ++ names.map Component.ofPart) :
    below? p base = some (ofNames names) := by
  have hid : Component.bytes ∘ Component.ofPart = id := funext bytes_ofPart
  refine below?_eq_some_iff.mpr ⟨_, h, ?_⟩
  rw [List.map_map, hid, List.map_id]
  rfl

/-! ## Names that are texts -/

/-- The names of segments with separators between them are the bytes of a text. -/
theorem ofNames_map_encode (ss : List String) :
    ofNames (ss.map encode) = encode (String.intercalate (String.singleton separator) ss) := by
  rw [encode, String.toList_intercalate, String.toList_singleton]
  induction ss with
  | nil => rfl
  | cons s ss ih =>
    cases ss with
    | nil => simp [ofNames, List.intercalate, encode]
    | cons t ts =>
      have hslash : String.utf8EncodeChar separator = [slash] :=
        encodeChar_of_lt separator (by decide)
      simp only [List.map_cons] at ih ⊢
      rw [ofNames_cons_cons, ih, List.intercalate_cons_cons, List.append_assoc,
        List.singleton_append]
      simp only [encode, encodeChars, List.flatMap_append, List.flatMap_cons, hslash]
      rfl

/-- What they are shown as is clean, but for the separator in front. -/
theorem clean_display_ofNames {ss : List String} (h : ∀ s ∈ ss, IsSegment s ∧ s ≠ ".") :
    CanonicalPath.clean (display (ofNames (ss.map encode))) = ofSegments ss := by
  rw [ofNames_map_encode, display, decodeLossy_encode, CanonicalPath.clean, CanonicalPath.names,
    CanonicalPath.segments_intercalate fun s hs => (h s hs).1,
    List.filter_eq_self.mpr fun s hs => by simpa using (h s hs).2]

end NativePath

end SyncEndpoint
