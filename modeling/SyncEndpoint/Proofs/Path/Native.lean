import Mathlib.Data.List.Induction
import SyncEndpoint.Path.Native
import SyncEndpoint.Path.Platform
import SyncEndpoint.Proofs.Path.Canonical
import SyncEndpoint.Proofs.Text.Lossy

set_option autoImplicit false

/-! # The names in native paths

The names of a byte path are its parts between slashes without the void ones and the double dots.
On the bytes of a text these are the encoded segments, since the byte of the slash occurs in UTF-8
only as the character. -/

namespace SyncEndpoint

open CanonicalPath (segments separator)
open Text.Utf8

namespace NativePath

/-- A name as it stands in a path: a part that is neither void nor a double dot. -/
def IsName (name : Bytes) : Prop :=
  name ≠ [] ∧ name ≠ dot ∧ name ≠ dotDot ∧ slash ∉ name

instance (name : Bytes) : Decidable (IsName name) :=
  inferInstanceAs (Decidable (_ ∧ _))

/-- Whether a part between slashes is dropped: it is empty, a dot or a double dot. -/
def isDropped (part : Bytes) : Bool :=
  isVoid part || part == dotDot

theorem name?_ofPart? (part : Bytes) :
    (Component.ofPart? part).bind Component.name? =
      if isDropped part then none else some part := by
  rw [Component.ofPart?, isDropped]
  by_cases hvoid : isVoid part
  · simp [hvoid]
  · by_cases hdots : part = dotDot <;> simp [hvoid, hdots, Component.name?]

/-- The names of a path are its parts, without those that are dropped. -/
theorem names_eq (p : NativePath) :
    names p = (p.splitOn slash).filter (fun part => !isDropped part) := by
  have hlead : (lead p).filterMap Component.name? = [] := by
    rw [lead]
    split
    · rfl
    · split <;> rfl
  have hparts : (fun part => (Component.ofPart? part).bind Component.name?) =
      fun part => if (!isDropped part) = true then some part else none := by
    funext part
    rw [name?_ofPart?]
    cases isDropped part <;> rfl
  rw [names, components, List.filterMap_append, hlead, List.nil_append, List.filterMap_filterMap,
    hparts, ← List.filterMap_eq_filter]
  rfl

/-- A part between slashes has no slash in it. -/
theorem slash_not_mem_of_mem_splitOn {p : NativePath} {part : Bytes}
    (h : part ∈ p.splitOn slash) : slash ∉ part := by
  induction p generalizing part with
  | nil =>
    rw [List.splitOn_nil, List.mem_singleton] at h
    simp [h]
  | cons b p ih =>
    rw [List.splitOn_cons_eq_if_modifyHead] at h
    split at h
    · rcases List.mem_cons.mp h with rfl | h
      · exact List.not_mem_nil
      · exact ih h
    · next hb =>
      -- The byte goes to the first part of the rest.
      cases hparts : p.splitOn slash with
      | nil => exact absurd hparts (List.splitOn_ne_nil _ _)
      | cons first parts =>
        rw [hparts] at h ih
        rcases List.mem_cons.mp h with rfl | h
        · rw [List.mem_cons, not_or]
          exact ⟨fun heq => hb (by simp [heq]), ih List.mem_cons_self⟩
        · exact ih (List.mem_cons_of_mem _ h)

theorem isName_of_mem_names {p : NativePath} {name : Bytes} (h : name ∈ names p) : IsName name := by
  rw [names_eq, List.mem_filter] at h
  obtain ⟨hpart, hkept⟩ := h
  simp only [isDropped, isVoid, Bool.not_eq_true', Bool.or_eq_false_iff, beq_eq_false_iff_ne,
    List.isEmpty_eq_false_iff] at hkept
  exact ⟨hkept.1.1, hkept.1.2, hkept.2, slash_not_mem_of_mem_splitOn hpart⟩

/-! ## Joining paths -/

theorem splitOn_append_slash (p q : NativePath) :
    (p ++ slash :: q).splitOn slash = p.splitOn slash ++ q.splitOn slash := by
  rw [List.splitOn_eq_splitOnP, List.splitOnP_append_cons _ _ (by simp)]
  rfl

theorem names_append_slash (p q : NativePath) : names (p ++ slash :: q) = names p ++ names q := by
  rw [names_eq, names_eq, names_eq, splitOn_append_slash, List.filter_append]

theorem names_join {p q : NativePath} (hq : isAbsolute q = false) :
    names (join p q) = names p ++ names q := by
  unfold join
  rw [if_neg (by simp [hq])]
  split
  · next h =>
    rw [Bool.or_eq_true, List.isEmpty_iff, beq_iff_eq] at h
    rcases h with rfl | hlast
    · rfl
    · -- The slash at the end of `p` separates as well.
      obtain ⟨p', rfl⟩ := List.getLast?_eq_some_iff.mp hlast
      rw [List.append_assoc, List.singleton_append, names_append_slash, names_append_slash]
      have hnil : names [] = [] := rfl
      rw [hnil, List.append_nil]
  · exact names_append_slash p q

/-! ## Splitting the bytes of a text -/

theorem splitOn_append_of_not_mem {bs rest : Bytes} (h : slash ∉ bs) :
    (bs ++ rest).splitOn slash = (rest.splitOn slash).modifyHead (bs ++ ·) := by
  induction bs with
  | nil => cases hrest : rest.splitOn slash <;> simp [hrest]
  | cons b bs ih =>
    have hb : b ≠ slash := fun hb => h (hb ▸ List.mem_cons_self)
    have ih := ih fun hmem => h (List.mem_cons_of_mem _ hmem)
    rw [List.cons_append, List.splitOn_cons_eq_if_modifyHead, if_neg (by simpa using hb), ih,
      List.modifyHead_modifyHead]
    rfl

/-- Splitting the bytes of a text at slashes is splitting the text. -/
theorem splitOn_encodeChars (cs : List Char) :
    (encodeChars cs).splitOn slash = (cs.splitOn separator).map encodeChars := by
  induction cs with
  | nil => rfl
  | cons c cs ih =>
    rw [encodeChars_cons, List.splitOn_cons_eq_if_modifyHead]
    by_cases hc : c = separator
    · subst hc
      have hslash : String.utf8EncodeChar separator = [slash] :=
        encodeChar_of_lt separator (by decide)
      rw [if_pos (by simp), hslash, List.singleton_append, List.splitOn_cons_eq_if_modifyHead,
        if_pos (by simp), ih, List.map_cons, encodeChars_nil]
    · -- No slash is among the bytes of another character: all of them go to the first part.
      have hno : slash ∉ String.utf8EncodeChar c := by
        intro hmem
        have := (mem_encodeChar_of_lt c 0x2F (by decide)).mp hmem
        exact hc (Char.ext (UInt32.toNat_inj.mp this))
      rw [if_neg (by simpa using hc), splitOn_append_of_not_mem hno, ih]
      cases cs.splitOn separator with
      | nil => rfl
      | cons part parts => simp [encodeChars_cons]

/-! ## The names in a text -/

theorem encodeChars_inj {cs ds : List Char} : encodeChars cs = encodeChars ds ↔ cs = ds := by
  have h := encode_inj (s := String.ofList cs) (t := String.ofList ds)
  rw [← String.toList_inj] at h
  simpa [encode] using h

/-- A part of a text is dropped if it is empty, a dot or a double dot. -/
theorem isDropped_encodeChars (cs : List Char) :
    isDropped (encodeChars cs) = decide (cs = [] ∨ cs = ['.'] ∨ cs = ['.', '.']) := by
  have hdot : dot = encodeChars ['.'] := rfl
  have hdotDot : dotDot = encodeChars ['.', '.'] := rfl
  have hnil : encodeChars cs = [] ↔ cs = [] := by
    rw [← encodeChars_nil, encodeChars_inj]
  rw [Bool.eq_iff_iff]
  simp [isDropped, isVoid, hdot, hdotDot, encodeChars_inj, hnil, or_assoc]

/-- The names in the bytes of a text are its encoded segments, without dots and double dots. -/
theorem names_encode (path : String) :
    names (encode path) =
      ((segments path).filter fun s => s ≠ "." ∧ s ≠ "..").map encode := by
  have hne : ∀ (t : String) (cs : List Char), String.ofList cs ≠ t ↔ cs ≠ t.toList := by
    intro t cs
    rw [ne_eq, ← String.toList_inj, String.toList_ofList]
  rw [names_eq, encode, splitOn_encodeChars, List.filter_map, segments,
    CanonicalPath.splitSegments, List.filter_map, List.map_map, List.filter_filter,
    ← List.splitOn_eq_splitOnP]
  have henc : encode ∘ String.ofList = encodeChars := by
    funext cs
    simp [encode]
  rw [henc]
  congr 1
  refine List.filter_congr fun cs _ => ?_
  rw [Function.comp_apply, isDropped_encodeChars, Bool.eq_iff_iff]
  simp [hne, and_comm]

theorem slash_mem_encode_iff (s : String) : slash ∈ encode s ↔ separator ∈ s.toList := by
  rw [encode, encodeChars, List.mem_flatMap]
  constructor
  · rintro ⟨c, hc, hmem⟩
    have := (mem_encodeChar_of_lt c 0x2F (by decide)).mp hmem
    rwa [show c = separator from Char.ext (UInt32.toNat_inj.mp this)] at hc
  · exact fun hmem => ⟨separator, hmem, by decide⟩

/-- The bytes of a text are a name if the text is a segment, and neither a dot nor a double dot. -/
theorem isName_encode_iff (s : String) :
    IsName (encode s) ↔ CanonicalPath.IsSegment s ∧ s ≠ "." ∧ s ≠ ".." := by
  have hnil : encode s = [] ↔ s = "" := by
    rw [show ([] : Bytes) = encode "" from rfl, encode_inj]
  have hdot : encode s = dot ↔ s = "." := by
    rw [show dot = encode "." from rfl, encode_inj]
  have hdots : encode s = dotDot ↔ s = ".." := by
    rw [show dotDot = encode ".." from rfl, encode_inj]
  rw [IsName, CanonicalPath.IsSegment, ne_eq, ne_eq, ne_eq, hnil, hdot, hdots, slash_mem_encode_iff]
  tauto

/-- What a name is shown as is a name again, also where the bytes are no UTF-8. -/
theorem isName_encode_display {name : Bytes} (h : IsName name) : IsName (encode (display name)) := by
  obtain ⟨hne, hdot, hdots, hslash⟩ := h
  -- A text of other characters is shown for its own bytes only.
  have hshown : ∀ text : String, Text.Utf8.replacement ∉ text.toList → name ≠ encode text →
      display name ≠ text := by
    rintro text htext hname rfl
    exact hname (eq_encode_of_decodeLossy htext)
  have hsegment : separator ∉ (display name).toList := fun hmem =>
    hslash (ofNat_mem_of_mem_decodeLossy (by decide) hmem)
  exact (isName_encode_iff _).mpr ⟨⟨hshown "" (by decide) hne, hsegment⟩, hshown "." (by decide) hdot,
    hshown ".." (by decide) hdots⟩

end NativePath

/-! ## Native spellings -/

/-- On the platform at hand the native spelling of a canonical path is its clean one. -/
theorem Platform.toNative_native (path : String) :
    Platform.native.toNative path = CanonicalPath.clean path := by
  have hparts : (CanonicalPath.names path).map String.toList =
      Platform.nameParts (· == CanonicalPath.separator) path.toList := by
    rw [CanonicalPath.names, segments, List.filter_map, List.map_map, Platform.nameParts]
    have hid : String.toList ∘ String.ofList = id := by
      funext cs
      simp
    rw [hid, List.map_id]
    refine List.filter_congr fun cs _ => ?_
    simp [← String.toList_inj]
  rw [← String.toList_inj, CanonicalPath.clean, CanonicalPath.ofSegments, String.toList_append,
    String.toList_intercalate, String.toList_singleton, hparts, Platform.toNative,
    String.toList_ofList]
  rfl

/-- Both spellings are the clean one there. -/
theorem Platform.toCanonical_eq_clean (path : String) :
    Platform.native.toCanonical path = CanonicalPath.clean path := by
  have hsep : (fun c => c == '/' || c == Platform.native.separator) = (· == '/') := by
    funext c
    exact Bool.or_self _
  have hkept : Platform.native.decomposed = false := rfl
  have hslash : Platform.native.separator = '/' := rfl
  rw [← Platform.toNative_native, Platform.toCanonical, Platform.toNative,
    Platform.toCanonicalChars, Platform.toNativeChars, hsep]
  simp only [hkept, hslash, Bool.false_eq_true, if_false]

end SyncEndpoint
