import SyncEndpoint.Endpoint.Basic
import SyncEndpoint.Proofs.Path.Native

set_option autoImplicit false

/-! # The keys of canonical paths

The key that a storage finds a canonical path under is made of its segments, without dots and
double dots. Where a path has no double dot, cleaned paths and keys are the same thing: one lies
below another exactly if the key does. -/

namespace SyncEndpoint.Endpoint

open CanonicalPath (segments names clean IsSegment)
open NativePath (IsName)
open Storage (Key keyOf)
open Text.Utf8

/-- The key of a canonical path. -/
@[irreducible]
def keyAt (path : String) : Key :=
  keyOf (nativePath path)

theorem keyOf_nativePath (path : String) : keyOf (nativePath path) = keyAt path := by
  rw [keyAt]

/-- The key of what a path stands for: that of its clean spelling. -/
def key (path : String) : Key :=
  keyAt (clean path)

/-- A segment that is a name in a storage. -/
def IsPlain (s : String) : Prop :=
  s ≠ "." ∧ s ≠ ".."

instance (s : String) : Decidable (IsPlain s) :=
  inferInstanceAs (Decidable (_ ∧ _))

/-- A path without a double dot among its names. -/
def NoDotDot (path : String) : Prop :=
  ".." ∉ segments (clean path)

instance (path : String) : Decidable (NoDotDot path) :=
  inferInstanceAs (Decidable (¬ _))

/-- The key of a list of segments. -/
def keyOfSegments (ss : List String) : Key :=
  (ss.filter fun s => IsPlain s).map encode

@[simp]
theorem keyOfSegments_nil : keyOfSegments [] = [] := rfl

@[simp]
theorem keyOfSegments_append (ss ts : List String) :
    keyOfSegments (ss ++ ts) = keyOfSegments ss ++ keyOfSegments ts := by
  rw [keyOfSegments, List.filter_append, List.map_append]
  rfl

/-- Where all segments are plain, the key has one name for each. -/
theorem keyOfSegments_eq_map {ss : List String} (h : ∀ s ∈ ss, IsPlain s) :
    keyOfSegments ss = ss.map encode := by
  rw [keyOfSegments, List.filter_eq_self.mpr (by simpa using h)]

/-- Dots do not count for a key. -/
theorem keyOfSegments_names (path : String) :
    keyOfSegments (names path) = keyOfSegments (segments path) := by
  rw [keyOfSegments, names, List.filter_filter, keyOfSegments]
  congr 1
  refine List.filter_congr fun s _ => ?_
  by_cases hdot : s = "." <;> simp [IsPlain, hdot]

/-- The key of a text as a native path. -/
theorem keyOf_encode (text : String) : keyOf (encode text) = keyOfSegments (segments text) :=
  NativePath.names_encode text

theorem keyAt_eq (path : String) : keyAt path = keyOfSegments (segments path) := by
  rw [keyAt, nativePath, Platform.toNative_native, NativePath.ofString, keyOf_encode,
    CanonicalPath.segments_clean, keyOfSegments_names]

theorem key_eq (path : String) : key path = keyOfSegments (names path) := by
  rw [key, keyAt_eq, CanonicalPath.segments_clean]

theorem keyAt_of_isRoot {path : String} (hroot : CanonicalPath.isRoot path = true) :
    keyAt path = [] := by
  rw [keyAt_eq, (CanonicalPath.isRoot_iff path).mp hroot, keyOfSegments_nil]

@[simp]
theorem keyAt_root : keyAt CanonicalPath.root = [] :=
  keyAt_of_isRoot (by decide)

/-- The names in the key of a path are names, and texts. -/
theorem of_mem_keyAt {path : String} {name : Bytes} (h : name ∈ keyAt path) :
    IsName name ∧ ∃ text : String, name = encode text := by
  rw [keyAt_eq, keyOfSegments, List.mem_map] at h
  obtain ⟨s, hs, rfl⟩ := h
  rw [List.mem_filter, decide_eq_true_eq] at hs
  refine ⟨(NativePath.isName_encode_iff s).mpr ⟨?_, hs.2⟩, s, rfl⟩
  exact CanonicalPath.isSegment_of_mem_segments hs.1

/-- The entry `name` of the directory at `path` is at the key with `name` behind it. -/
theorem keyAt_join {name : String} (path : String) (h : IsName (encode name)) :
    keyAt (CanonicalPath.join path name) = keyAt path ++ [encode name] := by
  obtain ⟨hsegment, hplain⟩ := (NativePath.isName_encode_iff name).mp h
  rw [keyAt_eq, CanonicalPath.segments_join, keyOfSegments_append, ← keyAt_eq,
    CanonicalPath.segments_of_isSegment hsegment,
    keyOfSegments_eq_map (List.forall_mem_singleton.mpr hplain), List.map_singleton]

/-- Names that are texts are the encoded segments of a path. -/
theorem exists_segments {s : Key} (h : ∀ name ∈ s, IsName name ∧ ∃ text : String, name = encode text) :
    ∃ ss : List String, s = ss.map encode ∧ ∀ x ∈ ss, IsSegment x ∧ IsPlain x := by
  induction s with
  | nil => exact ⟨[], rfl, by simp⟩
  | cons name s ih =>
    obtain ⟨ss, rfl, hss⟩ := ih fun n hn => h n (List.mem_cons_of_mem _ hn)
    obtain ⟨hname, text, rfl⟩ := h name List.mem_cons_self
    exact ⟨text :: ss, rfl,
      List.forall_mem_cons.mpr ⟨(NativePath.isName_encode_iff text).mp hname, hss⟩⟩

/-! ## Above and below -/

/-- What lies below by its segments lies below by its key. -/
theorem keyAt_append {path above : String} {ss : List String}
    (h : segments path = segments above ++ ss) : keyAt path = keyAt above ++ keyOfSegments ss := by
  rw [keyAt_eq, h, keyOfSegments_append, ← keyAt_eq]

theorem keyAt_prefix {path above : String} {ss : List String}
    (h : segments path = segments above ++ ss) : keyAt above <+: keyAt path := by
  rw [keyAt_append h]
  exact List.prefix_append _ _

theorem keyAt_of_segments {path above : String} {ss : List String}
    (h : segments path = segments above ++ ss) (hplain : ∀ s ∈ ss, IsPlain s) :
    keyAt path = keyAt above ++ ss.map encode := by
  rw [keyAt_append h, keyOfSegments_eq_map hplain]

/-- The key of what a path lies in is above its key, or the same where the last segment is a double
dot. -/
theorem keyAt_prefix_of_dropLast {path above : String}
    (h : segments above = (segments path).dropLast) : keyAt above <+: keyAt path := by
  obtain ⟨last, hlast⟩ := List.dropLast_prefix (segments path)
  rw [← h] at hlast
  exact keyAt_prefix hlast.symm

/-- The key of what a path lies in lacks the last name. -/
theorem exists_keyAt_eq_concat {path above : String} (hplain : ∀ s ∈ segments path, IsPlain s)
    (hne : segments path ≠ []) (habove : segments above = (segments path).dropLast) :
    ∃ name, keyAt path = keyAt above ++ [name] := by
  have hsplit : segments path = segments above ++ [(segments path).getLast hne] := by
    rw [habove, List.dropLast_concat_getLast]
  have hlast : ∀ s ∈ [(segments path).getLast hne], IsPlain s :=
    List.forall_mem_singleton.mpr (hplain _ (List.getLast_mem hne))
  exact ⟨_, keyAt_of_segments hsplit hlast⟩

section NoDotDot

variable {p q : String}

theorem NoDotDot.isPlain (h : NoDotDot p) : ∀ s ∈ names p, IsPlain s := by
  intro s hs
  rw [NoDotDot, CanonicalPath.segments_clean] at h
  exact ⟨(CanonicalPath.of_mem_names hs).2, fun heq => h (heq ▸ hs)⟩

theorem NoDotDot.key_eq_map (h : NoDotDot p) : key p = (names p).map encode := by
  rw [key_eq, keyOfSegments_eq_map h.isPlain]

/-- Without double dots, one path is at or below another exactly if its key is. -/
theorem key_prefix_key_iff (hp : NoDotDot p) (hq : NoDotDot q) :
    key p <+: key q ↔ names p <+: names q := by
  rw [hp.key_eq_map, hq.key_eq_map, List.prefix_map_iff_of_injective encode_injective]

theorem key_eq_key_iff (hp : NoDotDot p) (hq : NoDotDot q) : key p = key q ↔ names p = names q := by
  rw [hp.key_eq_map, hq.key_eq_map, (List.map_injective_iff.mpr encode_injective).eq_iff]

theorem key_eq_nil_iff (hp : NoDotDot p) : key p = [] ↔ names p = [] := by
  rw [hp.key_eq_map, List.map_eq_nil_iff]

end NoDotDot

end SyncEndpoint.Endpoint
