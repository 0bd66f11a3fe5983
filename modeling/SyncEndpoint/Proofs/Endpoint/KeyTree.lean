import Mathlib.Data.Set.Function
import SyncEndpoint.Proofs.Endpoint.Key
import SyncEndpoint.Proofs.Path.Names
import SyncEndpoint.Proofs.Path.Rebasing
import SyncEndpoint.Storage.OnDisk

set_option autoImplicit false

/-! # Canonical paths and keys as one tree

A canonical path is a text that is split at separators, and the key of it is a native path, which is
read by components. On clean paths without double dots the two are the same tree: each key belongs to
one path, and joining, the parent, the last name, the depth and lying below are the same on both sides
(`keyPath_mirrors`). The path of a key on disk is at or below the root, whatever it was made of. -/

namespace SyncEndpoint.Endpoint

open CanonicalPath (IsSegment clean ofSegments segments)
open NativePath (Component IsName components relative slash dot dotDot)
open Storage
open Text.Utf8

/-- The key of a canonical path, as a native path. -/
def keyPath (path : String) : NativePath :=
  relative (nativePath path)

/-- A clean path without double dots: all its segments are names. -/
structure IsPlainPath (path : String) : Prop where
  clean : clean path = path
  dotDot_not_mem : ".." ∉ segments path

variable {path base : String}

/-! ## Keys -/

theorem isName_of_mem_keyAt : ∀ name ∈ keyAt path, IsName name :=
  fun _ hname => (of_mem_keyAt hname).1

theorem keyPath_eq (path : String) : keyPath path = NativePath.ofNames (keyAt path) := by
  rw [← keyOf_nativePath]
  rfl

theorem components_keyPath (path : String) : components (keyPath path) = (keyAt path).map .normal := by
  rw [keyPath_eq, NativePath.components_of_isName isName_of_mem_keyAt]

theorem keyPath_join {name : String} (path : String) (h : IsName (encode name)) :
    keyPath (CanonicalPath.join path name) = NativePath.join (keyPath path) (encode name) := by
  have hparts : ∀ part ∈ keyAt path, NativePath.IsPart part :=
    fun part hpart => (isName_of_mem_keyAt part hpart).isPart
  rw [keyPath_eq, keyPath_eq, keyAt_join path h, NativePath.join_ofNames hparts h.isPart]

/-! ## Plain paths -/

theorem normal_encode_injective : Function.Injective (Component.normal ∘ encode) := by
  intro s t heq
  exact encode_injective (Component.normal.inj heq)

/-- Segments that are names make a plain path. -/
theorem isPlainPath_ofSegments {ss : List String} (h : ∀ s ∈ ss, IsSegment s ∧ IsPlain s) :
    IsPlainPath (ofSegments ss) := by
  refine ⟨CanonicalPath.clean_ofSegments fun s hs => ⟨(h s hs).1, (h s hs).2.1⟩, ?_⟩
  rw [CanonicalPath.segments_ofSegments fun s hs => (h s hs).1]
  exact fun hmem => (h _ hmem).2.2 rfl

theorem keyAt_ofSegments {ss : List String} (h : ∀ s ∈ ss, IsSegment s ∧ IsPlain s) :
    keyAt (ofSegments ss) = ss.map encode := by
  rw [keyAt_eq, CanonicalPath.segments_ofSegments fun s hs => (h s hs).1,
    keyOfSegments_eq_map fun s hs => (h s hs).2]

namespace IsPlainPath

/-- A plain path is made of segments that are names. -/
theorem exists_segments (h : IsPlainPath path) :
    ∃ ss, path = ofSegments ss ∧ ∀ s ∈ ss, IsSegment s ∧ IsPlain s := by
  refine ⟨segments path, (CanonicalPath.ofSegments_segments h.clean).symm, fun s hs => ?_⟩
  refine ⟨CanonicalPath.isSegment_of_mem_segments hs, ?_, fun heq => h.dotDot_not_mem (heq ▸ hs)⟩
  rw [CanonicalPath.segments_eq_names h.clean] at hs
  exact (CanonicalPath.of_mem_names hs).2

theorem keyAt_eq_map (h : IsPlainPath path) : keyAt path = (segments path).map encode := by
  obtain ⟨ss, rfl, hss⟩ := h.exists_segments
  rw [keyAt_ofSegments hss, CanonicalPath.segments_ofSegments fun s hs => (hss s hs).1]

theorem components_keyPath (h : IsPlainPath path) :
    components (keyPath path) = (segments path).map (Component.normal ∘ encode) := by
  rw [Endpoint.components_keyPath, h.keyAt_eq_map, List.map_map]

theorem join (h : IsPlainPath path) {name : String} (hname : IsSegment name) (hplain : IsPlain name) :
    IsPlainPath (CanonicalPath.join path name) := by
  refine ⟨CanonicalPath.clean_join_of_isSegment h.clean hname hplain.1, ?_⟩
  rw [CanonicalPath.segments_join, CanonicalPath.segments_of_isSegment hname, List.mem_append,
    List.mem_singleton, not_or]
  exact ⟨h.dotDot_not_mem, hplain.2.symm⟩

theorem segments_eq_nil_iff (h : IsPlainPath path) :
    segments path = [] ↔ path = CanonicalPath.root := by
  have hroot : segments CanonicalPath.root = [] := by decide
  rw [← hroot]
  exact CanonicalPath.segments_inj h.clean (by decide)

/-- Lying below is the same for paths and for keys. -/
theorem startsWith_iff (h : IsPlainPath path) (hbase : IsPlainPath base) :
    CanonicalPath.startsWith path base = true ↔
      components (keyPath base) <+: components (keyPath path) := by
  rw [CanonicalPath.startsWith_iff, h.components_keyPath, hbase.components_keyPath,
    List.prefix_map_iff_of_injective normal_encode_injective]

/-- The parent of a plain path, which is a plain path again, has the parent of the key. -/
theorem parent (h : IsPlainPath path) :
    (CanonicalPath.parent path).map keyPath = NativePath.parent? (keyPath path) ∧
      ∀ above, CanonicalPath.parent path = some above → IsPlainPath above := by
  obtain ⟨ss, rfl, hss⟩ := h.exists_segments
  rw [keyPath_eq, keyAt_ofSegments hss]
  rcases List.eq_nil_or_concat' ss with rfl | ⟨above, s, rfl⟩
  · exact ⟨rfl, nofun⟩
  · rw [List.forall_mem_append, List.forall_mem_singleton] at hss
    obtain ⟨habove, hs⟩ := hss
    have hname : IsName (encode s) := (NativePath.isName_encode_iff s).mpr hs
    have hparts : ∀ part ∈ above.map encode, NativePath.IsPart part :=
      NativePath.isPart_of_mem_map fun t ht => ⟨(habove t ht).1, (habove t ht).2.1⟩
    rw [CanonicalPath.parent_ofSegments (fun t ht => (habove t ht).1) hs.1, List.map_append,
      List.map_singleton, NativePath.parent?_ofNames_concat hparts hname.isPart, Option.map_some,
      keyPath_eq, keyAt_ofSegments habove]
    refine ⟨rfl, ?_⟩
    rintro _ ⟨⟩
    exact isPlainPath_ofSegments habove

theorem parent_eq_none_iff (h : IsPlainPath path) :
    CanonicalPath.parent path = none ↔ path = CanonicalPath.root := by
  rw [← h.segments_eq_nil_iff]
  constructor
  · intro hnone
    by_contra hne
    obtain ⟨above, habove, -⟩ := CanonicalPath.parent_eq_some hne
    rw [hnone] at habove
    cases habove
  · intro hnil
    rw [CanonicalPath.parent, if_pos ((CanonicalPath.isRoot_iff path).mpr hnil)]

theorem fileName (h : IsPlainPath path) :
    (CanonicalPath.fileName path).map encode = NativePath.fileName? (keyPath path) := by
  rw [keyPath_eq, NativePath.fileName?_ofNames isName_of_mem_keyAt, h.keyAt_eq_map,
    List.getLast?_map, CanonicalPath.fileName]

theorem fileName_eq_none_iff (h : IsPlainPath path) :
    CanonicalPath.fileName path = none ↔ path = CanonicalPath.root := by
  rw [CanonicalPath.fileName, List.getLast?_eq_none_iff, h.segments_eq_nil_iff]

end IsPlainPath

/-! ## One key for each path -/

/-- The components of the relative paths of which all segments are names and texts. -/
def textualComponents : Set (List Component) :=
  {cs | ∃ p, components p = cs ∧ ∀ c ∈ cs, ∃ text : String, c = .normal (encode text)}

theorem bijOn_components_keyPath :
    Set.BijOn (fun path => components (keyPath path)) {path | IsPlainPath path} textualComponents := by
  refine ⟨?mapsTo, ?injOn, ?surjOn⟩
  case mapsTo =>
    intro path hpath
    refine ⟨keyPath path, rfl, ?_⟩
    dsimp only
    rw [IsPlainPath.components_keyPath hpath, List.forall_mem_map]
    exact fun s _ => ⟨s, rfl⟩
  case injOn =>
    intro path hpath other hother heq
    dsimp only at heq
    rw [IsPlainPath.components_keyPath hpath, IsPlainPath.components_keyPath hother,
      (List.map_injective_iff.mpr normal_encode_injective).eq_iff] at heq
    exact (CanonicalPath.segments_inj hpath.clean hother.clean).mp heq
  case surjOn =>
    rintro cs ⟨p, rfl, htext⟩
    have hnormal : components p = (NativePath.names p).map .normal := by
      refine NativePath.components_eq_map_names fun c hc => ?_
      obtain ⟨text, htext⟩ := htext c hc
      exact ⟨_, htext⟩
    have hnames : ∀ name ∈ NativePath.names p, IsName name ∧ ∃ text : String, name = encode text := by
      intro name hname
      rw [hnormal, List.forall_mem_map] at htext
      obtain ⟨text, heq⟩ := htext name hname
      exact ⟨NativePath.isName_of_mem_names hname, text, Component.normal.inj heq⟩
    obtain ⟨ss, hss, hplain⟩ := exists_segments hnames
    refine ⟨ofSegments ss, isPlainPath_ofSegments hplain, ?_⟩
    dsimp only
    rw [components_keyPath, keyAt_ofSegments hplain, hnormal, hss]

/-! ## Both -/

/-- The functions on canonical paths do on a path what those on native paths do on its key. -/
structure Mirrored (path : String) : Prop where
  join : ∀ name, IsSegment name → IsPlain name →
    IsPlainPath (CanonicalPath.join path name) ∧
      keyPath (CanonicalPath.join path name) = NativePath.join (keyPath path) (encode name)
  parent : (CanonicalPath.parent path).map keyPath = NativePath.parent? (keyPath path)
  parent_plain : ∀ above, CanonicalPath.parent path = some above → IsPlainPath above
  parent_eq_none_iff : CanonicalPath.parent path = none ↔ path = CanonicalPath.root
  fileName : (CanonicalPath.fileName path).map encode = NativePath.fileName? (keyPath path)
  fileName_eq_none_iff : CanonicalPath.fileName path = none ↔ path = CanonicalPath.root
  depth : CanonicalPath.depth path = (components (keyPath path)).length
  startsWith_iff : ∀ base, IsPlainPath base →
    (CanonicalPath.startsWith path base = true ↔
      components (keyPath base) <+: components (keyPath path))

/-- What a storage takes of a path: the names in it, which lead nowhere but below its root. -/
structure Confined (p : NativePath) : Prop where
  key : keyOf p = (p.splitOn slash).filter fun part => part ≠ [] ∧ part ≠ dot ∧ part ≠ dotDot
  kept : components (relative p) = (keyOf p).map .normal
  again : relative (relative p) = relative p
  below : ∀ root, components (OnDisk.resolve root p) = components root ++ components (relative p)

theorem IsPlainPath.mirrored (h : IsPlainPath path) : Mirrored path where
  join := fun name hname hplain =>
    ⟨h.join hname hplain, keyPath_join path ((NativePath.isName_encode_iff name).mpr ⟨hname, hplain⟩)⟩
  parent := h.parent.1
  parent_plain := h.parent.2
  parent_eq_none_iff := h.parent_eq_none_iff
  fileName := h.fileName
  fileName_eq_none_iff := h.fileName_eq_none_iff
  depth := by
    rw [h.components_keyPath, List.length_map]
    rfl
  startsWith_iff := fun _ => h.startsWith_iff

theorem confined (p : NativePath) : Confined p where
  key := by
    rw [keyOf, NativePath.names_eq]
    refine List.filter_congr fun part _ => ?_
    rw [Bool.eq_iff_iff]
    simp [NativePath.isDropped, NativePath.isVoid, and_assoc]
  kept := NativePath.components_relative p
  again := NativePath.relative_relative p
  below := fun _ => NativePath.components_join (NativePath.lead_relative p)

/-- Clean paths without double dots and the keys that are texts are the same tree, one path for each
key; and a storage takes the names of any path for a key, which it finds below its root. -/
theorem keyPath_mirrors :
    Set.BijOn (fun path => components (keyPath path)) {path | IsPlainPath path} textualComponents ∧
    (∀ path, IsPlainPath path → Mirrored path) ∧ ∀ p, Confined p :=
  ⟨bijOn_components_keyPath, fun _ => IsPlainPath.mirrored, confined⟩

/-- A path in a directory whose name is no ASCII text. -/
theorem keyPath_mirrors_nested :
    IsPlainPath "/é/b" ∧ Mirrored "/é/b" ∧ keyPath "/é/b" = encode "é/b" ∧
      IsPlainPath (CanonicalPath.join "/é/b" "c") ∧
      keyPath (CanonicalPath.join "/é/b" "c") = encode "é/b/c" ∧
      components (OnDisk.resolve (encode "/mnt/") (encode "./../b//é/.")) =
        [.root, .normal (encode "mnt"), .normal (encode "b"), .normal (encode "é")] := by
  have hplain : IsPlainPath "/é/b" := ⟨by decide, by decide⟩
  obtain ⟨-, hmirrored, hconfined⟩ := keyPath_mirrors
  have hkey : keyPath "/é/b" = encode "é/b" := by decide
  obtain ⟨hjoined, hjoin⟩ := (hmirrored _ hplain).join "c" ⟨by decide, by decide⟩ (by decide)
  refine ⟨hplain, hmirrored _ hplain, hkey, hjoined, ?_, ?_⟩
  · rw [hjoin, hkey]
    decide
  · rw [(hconfined _).below]
    decide

end SyncEndpoint.Endpoint
