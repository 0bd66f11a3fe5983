import SyncEndpoint.Path.Platform
import SyncEndpoint.Proofs.Path.Canonical
import SyncEndpoint.Proofs.Text.Lossy
import SyncEndpoint.Proofs.Unicode.NormalForm

set_option autoImplicit false

/-! # Native and canonical spellings

On each platform the canonical spelling of a path is one: it says the same names once more, is in
normal form where the platform decomposes names, and comes back from its native spelling
(`respells_all`). Both spellings are names with a separator in front of each, and a name is respelled by
itself, because no separator is composed with anything and no character decomposes to one. -/

namespace SyncEndpoint

open CanonicalPath (splitSegments splitSegments_append_cons splitSegments_cons IsSegment ofSegments
  splitSegments_eq_singleton of_mem_splitSegments)

/-! ## Texts of code points -/

namespace Unicode

theorem allValid_map_toNat (cs : List Char) : AllValid (cs.map Char.toNat) := by
  intro n hn
  obtain ⟨c, -, rfl⟩ := List.mem_map.mp hn
  exact c.valid

theorem map_toNat_map_ofNat {ns : List Nat} (h : AllValid ns) :
    (ns.map Char.ofNat).map Char.toNat = ns := by
  rw [List.map_map]
  refine (List.map_congr_left fun n hn => ?_).trans (List.map_id ns)
  exact Text.Utf8.toNat_ofNat (h n hn)

/-- A function on code points that gives characters for characters. -/
def KeepsValid (f : List Nat → List Nat) : Prop :=
  ∀ cs, AllValid cs → AllValid (f cs)

theorem map_toNat_mapCodePoints {f : List Nat → List Nat} (hf : KeepsValid f) (cs : List Char) :
    (mapCodePoints f cs).map Char.toNat = f (cs.map Char.toNat) :=
  map_toNat_map_ofNat (hf _ (allValid_map_toNat cs))

theorem mapCodePoints_mapCodePoints {f g : List Nat → List Nat} (hf : KeepsValid f)
    (cs : List Char) : mapCodePoints g (mapCodePoints f cs) = mapCodePoints (g ∘ f) cs := by
  rw [mapCodePoints, map_toNat_mapCodePoints hf]
  rfl

end Unicode

/-! ## Respelling names -/

/-- Whether a character separates names, or is the dot. -/
def IsPathMark (c : Char) : Prop :=
  c.toNat ∈ Unicode.pathMarks

instance (c : Char) : Decidable (IsPathMark c) :=
  inferInstanceAs (Decidable (c.toNat ∈ Unicode.pathMarks))

/-- A change of texts that leaves alone the separators and the dot, and for which what is on one side
of them does not tell on the other. -/
structure Respelling (f : List Char → List Char) : Prop where
  nil_iff : ∀ cs, f cs = [] ↔ cs = []
  append : ∀ c, IsPathMark c → ∀ cs ds, f (cs ++ c :: ds) = f cs ++ c :: f ds
  mem_iff : ∀ c, IsPathMark c → ∀ cs, c ∈ f cs ↔ c ∈ cs
  singleton_iff : ∀ c, IsPathMark c → ∀ cs, f cs = [c] ↔ cs = [c]

theorem respelling_id : Respelling id :=
  ⟨fun _ => Iff.rfl, fun _ _ _ _ => rfl, fun _ _ _ => Iff.rfl, fun _ _ _ => Iff.rfl⟩

namespace Unicode

/-- A text has a character exactly if its code points have that of the character. -/
theorem toNat_mem_iff {c : Char} {cs : List Char} : c.toNat ∈ cs.map Char.toNat ↔ c ∈ cs :=
  List.mem_map_of_injective fun _ _ h => Char.toNat_inj.mp h

/-- A normal form respells if it goes by the characters that stand alone. -/
theorem respelling_mapCodePoints {f : List Nat → List Nat} (hf : KeepsValid f)
    (hnil : ∀ cs, f cs = [] ↔ cs = [])
    (happend : ∀ c, Isolated c → ∀ cs ds, f (cs ++ c :: ds) = f cs ++ c :: f ds)
    (hmem : ∀ c, Isolated c → ∀ cs, c ∈ f cs ↔ c ∈ cs)
    (hsingleton : ∀ c, Isolated c → ∀ cs, f cs = [c] ↔ cs = [c]) :
    Respelling (mapCodePoints f) where
  nil_iff := by
    intro cs
    rw [mapCodePoints, List.map_eq_nil_iff, hnil, List.map_eq_nil_iff]
  append := by
    intro c hc cs ds
    rw [mapCodePoints, List.map_append, List.map_cons, happend _ (isolated_of_mem_pathMarks hc),
      List.map_append, List.map_cons, Char.ofNat_toNat]
    rfl
  mem_iff := by
    intro c hc cs
    rw [← toNat_mem_iff, map_toNat_mapCodePoints hf, hmem _ (isolated_of_mem_pathMarks hc),
      toNat_mem_iff]
  singleton_iff := by
    intro c hc cs
    have hinj : Function.Injective (List.map Char.toNat) :=
      List.map_injective_iff.mpr fun _ _ h => Char.toNat_inj.mp h
    rw [← hinj.eq_iff, map_toNat_mapCodePoints hf, List.map_singleton,
      hsingleton _ (isolated_of_mem_pathMarks hc), ← List.map_singleton, hinj.eq_iff]

theorem respelling_nfd : Respelling (mapCodePoints nfd) :=
  respelling_mapCodePoints (fun _ => AllValid.nfd) (fun _ => nfd_eq_nil_iff)
    (fun _ hc _ _ => nfd_append_isolated hc) (fun _ hc _ => hc.mem_nfd_iff)
    fun _ hc _ => hc.nfd_eq_singleton_iff

theorem respelling_nfc : Respelling (mapCodePoints nfc) :=
  respelling_mapCodePoints (fun _ => AllValid.nfc) (fun _ => nfc_eq_nil_iff)
    (fun _ hc _ _ => nfc_append_isolated hc) (fun _ hc _ => hc.mem_nfc_iff)
    fun _ hc _ => hc.nfc_eq_singleton_iff

end Unicode

/-! ## Names with separators between them -/

namespace Platform

/-- A part that names something: not empty, no dot, and no separator in it. -/
def IsNamePart (isSeparator : Char → Bool) (part : List Char) : Prop :=
  part ≠ [] ∧ part ≠ ['.'] ∧ ∀ c ∈ part, isSeparator c = false

section Parts

variable {isSeparator : Char → Bool} {c : Char} {parts : List (List Char)}

theorem of_mem_nameParts {cs part : List Char} (h : part ∈ nameParts isSeparator cs) :
    IsNamePart isSeparator part := by
  obtain ⟨hmem, hdot⟩ := List.mem_filter.mp h
  obtain ⟨hne, hno⟩ := of_mem_splitSegments hmem
  exact ⟨hne, of_decide_eq_true hdot, hno⟩

/-- Names that are joined come apart again. -/
theorem nameParts_joinParts (hc : isSeparator c = true)
    (h : ∀ part ∈ parts, IsNamePart isSeparator part) :
    nameParts isSeparator (joinParts c parts) = parts := by
  have hsplit : splitSegments isSeparator (List.intercalate [c] parts) = parts := by
    induction parts with
    | nil => rfl
    | cons part parts ih =>
      obtain ⟨hne, -, hno⟩ := h part List.mem_cons_self
      have hpart := splitSegments_eq_singleton hne hno
      cases parts with
      | nil => rw [List.intercalate_singleton, hpart]
      | cons next rest =>
        rw [List.intercalate_cons_cons, List.append_assoc, List.singleton_append,
          splitSegments_append_cons _ _ hc, hpart,
          ih fun p hp => h p (List.mem_cons_of_mem part hp), List.singleton_append]
  rw [nameParts, joinParts, splitSegments_cons _ hc, hsplit, List.filter_eq_self]
  exact fun part hpart => decide_eq_true (h part hpart).2.1

/-- Each name is respelled by itself. -/
theorem respell_joinParts {f : List Char → List Char} (hf : Respelling f) (hc : IsPathMark c) :
    f (joinParts c parts) = joinParts c (parts.map f) := by
  have hnil : f [] = [] := (hf.nil_iff []).mpr rfl
  have hjoin : f (List.intercalate [c] parts) = List.intercalate [c] (parts.map f) := by
    induction parts with
    | nil => exact hnil
    | cons part parts ih =>
      cases parts with
      | nil => rw [List.intercalate_singleton, List.map_singleton, List.intercalate_singleton]
      | cons next rest =>
        rw [List.intercalate_cons_cons, List.append_assoc, List.singleton_append,
          hf.append c hc, ih]
        simp only [List.map_cons, List.intercalate_cons_cons, List.append_assoc,
          List.singleton_append]
  have hlead := hf.append c hc [] (List.intercalate [c] parts)
  rw [hnil, List.nil_append, List.nil_append, hjoin] at hlead
  exact hlead

/-- Names are respelled to names. -/
theorem IsNamePart.respell {f : List Char → List Char} (hf : Respelling f)
    (hseparator : ∀ c, isSeparator c = true → IsPathMark c) {part : List Char}
    (h : IsNamePart isSeparator part) : IsNamePart isSeparator (f part) := by
  obtain ⟨hne, hdot, hno⟩ := h
  refine ⟨fun hnil => hne ((hf.nil_iff part).mp hnil), fun heq => ?_, fun c hc => ?_⟩
  · exact hdot ((hf.singleton_iff '.' (by decide) part).mp heq)
  · by_contra hsep
    rw [Bool.not_eq_false] at hsep
    rw [hno c ((hf.mem_iff c (hseparator c hsep) part).mp hc)] at hsep
    cases hsep

end Parts

/-! ## The two spellings -/

variable (p : Platform)

/-- What separates the names of a native path. -/
def separates (c : Char) : Bool :=
  c == '/' || c == p.separator

/-- A name as it is in canonical paths. -/
def composeName : List Char → List Char :=
  if p.decomposed then Unicode.mapCodePoints Unicode.nfc else id

/-- A name as it is in native paths. -/
def decomposeName : List Char → List Char :=
  if p.decomposed then Unicode.mapCodePoints Unicode.nfd else id

theorem respelling_composeName : Respelling p.composeName := by
  rw [composeName]
  split
  · exact Unicode.respelling_nfc
  · exact respelling_id

theorem respelling_decomposeName : Respelling p.decomposeName := by
  rw [decomposeName]
  split
  · exact Unicode.respelling_nfd
  · exact respelling_id

theorem composeName_composeName (name : List Char) :
    p.composeName (p.composeName name) = p.composeName name := by
  rw [composeName]
  split
  · rw [Unicode.mapCodePoints_mapCodePoints fun _ => Unicode.AllValid.nfc]
    exact congrArg (List.map Char.ofNat) (Unicode.nfc_nfc _)
  · rfl

theorem composeName_decomposeName (name : List Char) :
    p.composeName (p.decomposeName name) = p.composeName name := by
  rw [composeName, decomposeName]
  split
  · rw [Unicode.mapCodePoints_mapCodePoints fun _ => Unicode.AllValid.nfd]
    exact congrArg (List.map Char.ofNat) (Unicode.nfc_nfd _)
  · rfl

/-- The names of the canonical spelling of a native path. -/
def canonicalParts (cs : List Char) : List (List Char) :=
  (nameParts p.separates cs).map p.composeName

theorem toCanonicalChars_eq (cs : List Char) :
    p.toCanonicalChars cs = joinParts '/' (p.canonicalParts cs) := by
  rw [canonicalParts, ← respell_joinParts p.respelling_composeName (by decide), toCanonicalChars,
    composeName]
  split <;> rfl

/-- The native spelling has the separators of the platform. -/
theorem toNativeChars_eq (hp : IsPathMark p.separator) (cs : List Char) :
    p.toNativeChars cs = joinParts p.separator ((nameParts (· == '/') cs).map p.decomposeName) := by
  rw [← respell_joinParts p.respelling_decomposeName hp, toNativeChars, decomposeName]
  split <;> rfl

section Marks

variable {p}

theorem isPathMark_of_separates (hp : IsPathMark p.separator) {c : Char}
    (hc : p.separates c = true) : IsPathMark c := by
  rw [separates, Bool.or_eq_true, beq_iff_eq, beq_iff_eq] at hc
  rcases hc with rfl | rfl
  · decide
  · exact hp

theorem isNamePart_of_mem_canonicalParts (hp : IsPathMark p.separator) {cs part : List Char}
    (h : part ∈ p.canonicalParts cs) : IsNamePart p.separates part := by
  obtain ⟨original, horiginal, rfl⟩ := List.mem_map.mp h
  exact (of_mem_nameParts horiginal).respell p.respelling_composeName
    fun _ => isPathMark_of_separates hp

/-- The names of a canonical spelling are found in it again. -/
theorem nameParts_toCanonicalChars (hp : IsPathMark p.separator) (cs : List Char) :
    nameParts p.separates (p.toCanonicalChars cs) = p.canonicalParts cs ∧
      nameParts (· == '/') (p.toCanonicalChars cs) = p.canonicalParts cs := by
  rw [toCanonicalChars_eq]
  refine ⟨nameParts_joinParts (by simp [separates]) fun part hpart =>
    isNamePart_of_mem_canonicalParts hp hpart, nameParts_joinParts (by simp) fun part hpart => ?_⟩
  obtain ⟨hne, hdot, hno⟩ := isNamePart_of_mem_canonicalParts hp hpart
  refine ⟨hne, hdot, fun c hc => ?_⟩
  have := hno c hc
  rw [separates, Bool.or_eq_false_iff] at this
  exact this.1

theorem map_composeName_canonicalParts (cs : List Char) :
    (p.canonicalParts cs).map p.composeName = p.canonicalParts cs := by
  rw [canonicalParts, List.map_map]
  exact List.map_congr_left fun name _ => p.composeName_composeName name

theorem toCanonicalChars_toCanonicalChars (hp : IsPathMark p.separator) (cs : List Char) :
    p.toCanonicalChars (p.toCanonicalChars cs) = p.toCanonicalChars cs := by
  rw [toCanonicalChars_eq, canonicalParts, (nameParts_toCanonicalChars hp cs).1,
    map_composeName_canonicalParts, toCanonicalChars_eq]

theorem toCanonicalChars_toNativeChars (hp : IsPathMark p.separator) (cs : List Char) :
    p.toCanonicalChars (p.toNativeChars (p.toCanonicalChars cs)) = p.toCanonicalChars cs := by
  have hnames : nameParts p.separates (p.toNativeChars (p.toCanonicalChars cs)) =
      (p.canonicalParts cs).map p.decomposeName := by
    rw [toNativeChars_eq p hp, (nameParts_toCanonicalChars hp cs).2]
    refine nameParts_joinParts (by simp [separates]) fun part hpart => ?_
    obtain ⟨original, horiginal, rfl⟩ := List.mem_map.mp hpart
    exact (isNamePart_of_mem_canonicalParts hp horiginal).respell p.respelling_decomposeName
      fun _ => isPathMark_of_separates hp
  have hparts : ((p.canonicalParts cs).map p.decomposeName).map p.composeName =
      p.canonicalParts cs := by
    rw [List.map_map]
    refine Eq.trans (List.map_congr_left fun name _ => ?_) (map_composeName_canonicalParts cs)
    exact p.composeName_decomposeName name
  rw [toCanonicalChars_eq, canonicalParts, hnames, hparts, toCanonicalChars_eq]

end Marks

/-! ## Paths -/

/-- The names of the canonical spelling of a native path. -/
def canonicalNames (nativePath : String) : List String :=
  (p.canonicalParts nativePath.toList).map String.ofList

/-- The laws of the two conversions of a platform, at a native path. -/
structure Respells (nativePath : String) : Prop where
  /-- The canonical spelling is the names of the path, with one separator in front of each. -/
  spelled : p.toCanonical nativePath = ofSegments (p.canonicalNames nativePath)
  names : ∀ name ∈ p.canonicalNames nativePath, IsSegment name ∧ name ≠ "."
  starts : (p.toCanonical nativePath).toList.head? = some '/'
  composed : p.decomposed = true →
    Unicode.toNFC (p.toCanonical nativePath) = p.toCanonical nativePath
  canonical : p.toCanonical (p.toCanonical nativePath) = p.toCanonical nativePath
  back : p.toCanonical (p.toNative (p.toCanonical nativePath)) = p.toCanonical nativePath
  again : p.toNative (p.toCanonical (p.toNative (p.toCanonical nativePath))) =
    p.toNative (p.toCanonical nativePath)

variable {p}

theorem respells (hp : IsPathMark p.separator) (nativePath : String) : p.Respells nativePath := by
  set cs := nativePath.toList with hcs
  have hchars : (p.toCanonical nativePath).toList = p.toCanonicalChars cs := by
    rw [toCanonical, String.toList_ofList]
  have hback : p.toCanonical (p.toNative (p.toCanonical nativePath)) = p.toCanonical nativePath := by
    rw [← String.toList_inj, toCanonical, String.toList_ofList, toNative, String.toList_ofList,
      hchars, toCanonicalChars_toNativeChars hp]
  refine ⟨?_, ?_, ?_, fun hdecomposed => ?_, ?_, hback, by rw [hback]⟩
  · rw [← String.toList_inj, hchars, toCanonicalChars_eq, ofSegments, String.toList_append,
      String.toList_intercalate, canonicalNames, ← hcs, List.map_map]
    simp [joinParts, CanonicalPath.separator, Function.comp_def]
  · intro name hname
    obtain ⟨part, hpart, rfl⟩ := List.mem_map.mp hname
    obtain ⟨hne, hdot, hno⟩ := isNamePart_of_mem_canonicalParts hp hpart
    refine ⟨⟨by simpa using hne, fun hmem => ?_⟩, fun heq => hdot ?_⟩
    · rw [String.toList_ofList] at hmem
      have := hno _ hmem
      simp [separates, CanonicalPath.separator] at this
    · rw [← String.toList_ofList (l := part), heq]
      rfl
  · rw [hchars, toCanonicalChars_eq]
    rfl
  · have hjoined : p.composeName (joinParts '/' (p.canonicalParts cs)) = _ :=
      respell_joinParts p.respelling_composeName (by decide)
    rw [map_composeName_canonicalParts, ← toCanonicalChars_eq, composeName, if_pos hdecomposed]
      at hjoined
    rw [← String.toList_inj, Unicode.toNFC, String.toList_ofList, hchars, hjoined]
  · rw [← String.toList_inj, toCanonical, String.toList_ofList, hchars,
      toCanonicalChars_toCanonicalChars hp]

/-- The laws hold on each of the platforms, for any path. -/
theorem respells_all (nativePath : String) :
    posix.Respells nativePath ∧ darwin.Respells nativePath ∧ windows.Respells nativePath :=
  ⟨respells (by decide) nativePath, respells (by decide) nativePath,
    respells (by decide) nativePath⟩

/-- A mark joins the letter in front of it, and not the one behind a separator. -/
example : darwin.toCanonical "./cafe\u0301//\u0301" = "/caf\u00e9/\u0301" := by decide +kernel

end Platform

end SyncEndpoint
