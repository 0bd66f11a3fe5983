import SyncEndpoint.Endpoint.Walk
import SyncEndpoint.Proofs.Endpoint.Identity

set_option autoImplicit false

/-! # What there is to be found

What a walk would find in a tree if it changed nothing, and what it would have to say of it, on a
storage with failing calls. It is found in order, and what is found in a path depends on nothing
but what is at and below its key. -/

namespace SyncEndpoint

open CanonicalPath (segments IsSegment)
open NativePath (IsName display)
open Text.Utf8

/-! ## The path of an entry -/

/-- The canonical spelling of a name: with a separator in front. -/
theorem Platform.toCanonical_native {s : String} (h : IsSegment s) (hdot : s ≠ ".") :
    Platform.native.toCanonical s = String.singleton '/' ++ s := by
  have hparts : Platform.nameParts (fun c => c == '/' || c == '/') s.toList = [s.toList] := by
    have hsplit : CanonicalPath.splitSegments (fun c => c == '/' || c == '/') s.toList =
        [s.toList] :=
      CanonicalPath.splitSegments_eq_singleton (by simpa using h.1) fun c hc => by
        have hne : c ≠ '/' := by
          rintro rfl
          exact h.2 hc
        simp [hne]
    have hkept : s.toList ≠ ['.'] := fun heq => hdot (by rw [← String.toList_inj, heq]; rfl)
    rw [Platform.nameParts, hsplit, List.filter_singleton]
    simp [hkept]
  rw [← String.toList_inj, Platform.toCanonical, String.toList_ofList, String.toList_append,
    String.toList_singleton]
  show Platform.joinParts '/' (Platform.nameParts (fun c => c == '/' || c == '/') s.toList) = _
  rw [hparts]
  simp [Platform.joinParts, List.intercalate]

namespace Endpoint

open Storage

/-- The path of an entry of a directory. -/
def entryPath (parent : String) (name : Bytes) : String :=
  CanonicalPath.join parent (Platform.native.toCanonical (display name))

/-- Names of which the path says everything. -/
def IsTextName (name : Bytes) : Prop :=
  IsName name ∧ ∃ text : String, name = encode text

section EntryPath

variable {parent : String} {name : Bytes}

theorem IsTextName.encode_display (h : IsTextName name) : encode (display name) = name := by
  obtain ⟨-, text, rfl⟩ := h
  rw [display, decodeLossy_encode]

/-- A name is shown as a plain segment, text or not. -/
theorem isPlain_display (h : IsName name) : IsSegment (display name) ∧ IsPlain (display name) :=
  (NativePath.isName_encode_iff _).mp (NativePath.isName_encode_display h)

theorem segments_entryPath (h : IsName name) :
    segments (entryPath parent name) = segments parent ++ [display name] := by
  obtain ⟨hsegment, hplain⟩ := isPlain_display h
  rw [entryPath, CanonicalPath.segments_join, Platform.toCanonical_native hsegment hplain.1]
  congr 1
  rw [segments, String.toList_append, String.toList_singleton, List.singleton_append,
    CanonicalPath.splitSegments_cons _ (by decide), hsegment.splitSegments_eq, List.map_singleton,
    String.ofList_toList]

/-- The path of an entry leads to what has the name that is shown. -/
theorem keyAt_entryPath_display (h : IsName name) :
    keyAt (entryPath parent name) = keyAt parent ++ [encode (display name)] :=
  keyAt_of_segments (segments_entryPath h) (List.forall_mem_singleton.mpr (isPlain_display h).2)

theorem keyAt_entryPath (h : IsTextName name) :
    keyAt (entryPath parent name) = keyAt parent ++ [name] := by
  rw [keyAt_entryPath_display h.1, h.encode_display]

theorem isTextName_of_get? {m : Memory} (h : m.WellFormed) (ht : m.Textual) {key : Key}
    (hget : m.get? (key ++ [name]) ≠ none) : IsTextName name := by
  have hmem : name ∈ key ++ [name] := List.mem_append_right _ (List.mem_singleton.mpr rfl)
  exact ⟨h.names _ hget name hmem, ht _ hget name hmem⟩

/-- The path that one comes to by some names. -/
def pathBelow (top : String) (names : Key) : String :=
  names.foldl entryPath top

@[simp]
theorem pathBelow_nil (top : String) : pathBelow top [] = top := rfl

@[simp]
theorem pathBelow_cons (top : String) (name : Bytes) (names : Key) :
    pathBelow top (name :: names) = pathBelow (entryPath top name) names := rfl

theorem pathBelow_append (top : String) (names names' : Key) :
    pathBelow top (names ++ names') = pathBelow (pathBelow top names) names' :=
  List.foldl_append

theorem segments_pathBelow {top : String} {names : Key} (h : ∀ name ∈ names, IsTextName name) :
    segments (pathBelow top names) = segments top ++ names.map display := by
  induction names generalizing top with
  | nil => simp
  | cons name names ih =>
    rw [List.forall_mem_cons] at h
    rw [pathBelow_cons, ih h.2, segments_entryPath h.1.1, List.append_assoc, List.singleton_append,
      List.map_cons]

theorem keyAt_pathBelow {top : String} {names : Key} (h : ∀ name ∈ names, IsTextName name) :
    keyAt (pathBelow top names) = keyAt top ++ names := by
  induction names generalizing top with
  | nil => simp
  | cons name names ih =>
    rw [List.forall_mem_cons] at h
    rw [pathBelow_cons, ih h.2, keyAt_entryPath h.1, List.append_assoc, List.singleton_append]

/-- Below a clean path all paths are spelled in the one way. -/
theorem pathBelow_ofSegments {ss : List String} (hss : ∀ s ∈ ss, IsSegment s) {names : Key}
    (hnames : ∀ name ∈ names, IsName name) :
    pathBelow (CanonicalPath.ofSegments ss) names =
      CanonicalPath.ofSegments (ss ++ names.map display) := by
  induction names generalizing ss with
  | nil => simp
  | cons name names ih =>
    rw [List.forall_mem_cons] at hnames
    obtain ⟨hsegment, hplain⟩ := isPlain_display hnames.1
    have hentry : entryPath (CanonicalPath.ofSegments ss) name =
        CanonicalPath.ofSegments (ss ++ [display name]) := by
      rw [entryPath, Platform.toCanonical_native hsegment hplain.1]
      exact CanonicalPath.join_ofSegments hss hsegment
    rw [pathBelow_cons, hentry, ih (List.forall_mem_append.mpr
      ⟨hss, List.forall_mem_singleton.mpr hsegment⟩) hnames.2, List.append_assoc,
      List.singleton_append, List.map_cons]

end EntryPath

/-! ## What is found -/

/-- What a walk finds directly in something. -/
def foundIn (e : Endpoint) (f : Failures) (m : Memory) (found : Found) : List Found :=
  match found.metadata with
  | .error _ => []
  | .ok md =>
    if md.isDir then
      match f.list m (keyAt found.path) with
      | .error _ => []
      | .ok entries => entries.filterMap (e.foundIn? found.path)
    else []

/-- What a walk finds at and below something, at most `depth` levels down. -/
def foundFrom (e : Endpoint) (f : Failures) (m : Memory) : Nat → Found → List Found
  | 0, _ => []
  | depth + 1, top => top :: (foundIn e f m top).flatMap (foundFrom e f m depth)

/-- What is known of something is right. -/
def Found.IsRight (found : Found) (m : Memory) : Prop :=
  ∀ md, found.metadata = .ok md → ∃ entry, m.get? (keyAt found.path) = some entry ∧
    entry.metadata = md

variable {e : Endpoint} {f : Failures} {m m' : Memory} {found top child : Found}

/-- What is found in something is one of the entries of a directory: what it is, or the error of
the look at it. -/
structure IsChild (e : Endpoint) (f : Failures) (m : Memory) (found child : Found)
    (name : Bytes) (entry : Entry) : Prop where
  isDir : ∃ md, found.metadata = .ok md ∧ md.isDir = true
  listed : f.readDir (keyAt found.path) = none
  dirAt : m.IsDirAt (keyAt found.path)
  get?_eq : m.get? (keyAt found.path ++ [name]) = some entry
  foundIn?_eq : e.foundIn? found.path (f.look (keyAt found.path) (Memory.listedOf (name, entry))) =
    some child

/-- The entries of a directory that is listed, in the order of the names. -/
theorem exists_foundIn_eq (h : m.WellFormed) (ht : m.Textual) (hne : foundIn e f m found ≠ []) :
    ∃ listed : List Listed, foundIn e f m found =
        (listed.map (f.look (keyAt found.path))).filterMap (e.foundIn? found.path) ∧
      listed.Pairwise (fun a b => a.name < b.name) ∧
      (∃ md, found.metadata = .ok md ∧ md.isDir = true) ∧ f.readDir (keyAt found.path) = none ∧
      m.IsDirAt (keyAt found.path) ∧
      ∀ l, l ∈ listed ↔ ∃ name entry, m.get? (keyAt found.path ++ [name]) = some entry ∧
        l = Memory.listedOf (name, entry) := by
  unfold foundIn at hne ⊢
  cases hmd : found.metadata with
  | error x => simp only [hmd, ne_eq, not_true] at hne
  | ok md =>
    simp only [hmd] at hne ⊢
    by_cases hdir : md.isDir = true
    · rw [if_pos hdir] at hne ⊢
      cases hread : f.readDir (keyAt found.path) with
      | some x => simp only [Failures.list, hread, Failures.guarded, ne_eq, not_true] at hne
      | none =>
        cases hreadDir : m.readDir (keyAt found.path) with
        | error x =>
          simp only [Failures.list, hread, Failures.guarded, hreadDir, Except.map, ne_eq,
            not_true] at hne
        | ok listed =>
          have hdirAt := Memory.isDirAt_of_readDir_eq_ok hreadDir
          obtain ⟨listed', hlisted, hsorted, hmem⟩ := h.readDir_eq ht hdirAt
          cases hreadDir.symm.trans hlisted
          refine ⟨listed, ?_, hsorted, ⟨md, rfl, hdir⟩, rfl, hdirAt, hmem⟩
          simp only [Failures.list, hread, Failures.guarded, hlisted, Except.map]
    · exact absurd (if_neg hdir) hne

theorem mem_foundIn_iff (h : m.WellFormed) (ht : m.Textual) :
    child ∈ foundIn e f m found ↔ ∃ name entry, IsChild e f m found child name entry := by
  constructor
  · intro hchild
    obtain ⟨listed, heq, -, hdir, hread, hdirAt, hmem⟩ :=
      exists_foundIn_eq h ht (List.ne_nil_of_mem hchild)
    rw [heq, List.mem_filterMap] at hchild
    obtain ⟨l', hl', hfound⟩ := hchild
    obtain ⟨l, hl, rfl⟩ := List.mem_map.mp hl'
    obtain ⟨name, entry, hget, rfl⟩ := (hmem l).mp hl
    exact ⟨name, entry, hdir, hread, hdirAt, hget, hfound⟩
  · rintro ⟨name, entry, ⟨md, hmd, hdir⟩, hread, hdirAt, hget, hfound⟩
    obtain ⟨listed, hlisted, -, hmem⟩ := h.readDir_eq ht hdirAt
    have hl : Memory.listedOf (name, entry) ∈ listed := (hmem _).mpr ⟨name, entry, hget, rfl⟩
    unfold foundIn
    simp only [hmd, if_pos hdir, Failures.list, hread, Failures.guarded, hlisted]
    exact List.mem_filterMap.mpr ⟨_, List.mem_map_of_mem hl, hfound⟩

/-- What is found of an entry, if the look at it succeeds, and if not. -/
theorem foundIn?_look_eq_some_iff {parent : String} {name : Bytes} {entry : Entry} :
    e.foundIn? parent (f.look (keyAt parent) (Memory.listedOf (name, entry))) = some child ↔
      (f.entry (keyAt parent ++ [encode (display name)]) = none ∧
        e.ignored.isIgnored (entryPath parent name) entry.isDir = false ∧
        child = ⟨entryPath parent name, .ok entry.metadata⟩) ∨
      ∃ x, f.entry (keyAt parent ++ [encode (display name)]) = some x ∧
        e.ignored.isIgnoredAny (entryPath parent name) = false ∧
        child = ⟨entryPath parent name,
          .error (SyncError.ofStorage (entryPath parent name) x)⟩ := by
  unfold Failures.look Memory.listedOf foundIn?
  cases hentry : f.entry (keyAt parent ++ [encode (display name)]) with
  | none =>
    simp only [Entry.isDir_metadata, Option.ite_none_left_eq_some, Bool.not_eq_true,
      Option.some.injEq, reduceCtorEq, false_and, exists_false, or_false, true_and]
    exact and_congr_right' eq_comm
  | some x =>
    simp only [Option.ite_none_left_eq_some, Bool.not_eq_true, Option.some.injEq, reduceCtorEq,
      false_and, false_or, exists_eq_left']
    exact and_congr_right' eq_comm

section IsChild

variable {name : Bytes} {entry : Entry} (hchild : IsChild e f m found child name entry)

include hchild

theorem IsChild.isTextName (h : m.WellFormed) (ht : m.Textual) : IsTextName name :=
  isTextName_of_get? h ht (by rw [hchild.get?_eq]; simp)

theorem IsChild.eq_of_look : (f.entry (keyAt found.path ++ [encode (display name)]) = none ∧
      e.ignored.isIgnored (entryPath found.path name) entry.isDir = false ∧
      child = ⟨entryPath found.path name, .ok entry.metadata⟩) ∨
    ∃ x, f.entry (keyAt found.path ++ [encode (display name)]) = some x ∧
      e.ignored.isIgnoredAny (entryPath found.path name) = false ∧
      child = ⟨entryPath found.path name,
        .error (SyncError.ofStorage (entryPath found.path name) x)⟩ :=
  foundIn?_look_eq_some_iff.mp hchild.foundIn?_eq

theorem IsChild.path_eq : child.path = entryPath found.path name := by
  obtain ⟨-, -, rfl⟩ | ⟨x, -, -, rfl⟩ := hchild.eq_of_look <;> rfl

theorem IsChild.keyAt_eq (h : m.WellFormed) (ht : m.Textual) :
    keyAt child.path = keyAt found.path ++ [name] := by
  rw [hchild.path_eq, keyAt_entryPath (hchild.isTextName h ht)]

theorem IsChild.isRight (h : m.WellFormed) (ht : m.Textual) : child.IsRight m := by
  intro md hmd
  rw [hchild.keyAt_eq h ht]
  refine ⟨entry, hchild.get?_eq, ?_⟩
  obtain ⟨-, -, rfl⟩ | ⟨x, -, -, rfl⟩ := hchild.eq_of_look
  · exact Except.ok.inj hmd
  · cases hmd

end IsChild

/-! ## What is reached -/

/-- What a walk comes to from something, however deep it is. -/
def Reaches (e : Endpoint) (f : Failures) (m : Memory) : Found → Found → Prop :=
  Relation.ReflTransGen fun found child => child ∈ foundIn e f m found

/-- The path of what is reached is one that one comes to by some names. -/
theorem Reaches.exists_path_eq (h : m.WellFormed) (ht : m.Textual)
    (hreach : Reaches e f m top found) :
    ∃ names, (∀ name ∈ names, IsTextName name) ∧ found.path = pathBelow top.path names := by
  induction hreach with
  | refl => exact ⟨[], by simp, rfl⟩
  | @tail found child _ hchild ih =>
    obtain ⟨names, hnames, hpath⟩ := ih
    obtain ⟨name, entry, hchild⟩ := (mem_foundIn_iff h ht).mp hchild
    refine ⟨names ++ [name], ?_, ?_⟩
    · exact List.forall_mem_append.mpr
        ⟨hnames, List.forall_mem_singleton.mpr (hchild.isTextName h ht)⟩
    · rw [pathBelow_append, ← hpath, hchild.path_eq]
      rfl

theorem Reaches.prefix_keyAt (h : m.WellFormed) (ht : m.Textual)
    (hreach : Reaches e f m top found) : keyAt top.path <+: keyAt found.path := by
  obtain ⟨names, hnames, hpath⟩ := hreach.exists_path_eq h ht
  rw [hpath, keyAt_pathBelow hnames]
  exact List.prefix_append _ _

theorem reaches_of_mem {depth : Nat} (hfound : found ∈ foundFrom e f m depth top) :
    Reaches e f m top found := by
  induction depth generalizing top with
  | zero => cases hfound
  | succ depth ih =>
    rw [foundFrom, List.mem_cons, List.mem_flatMap] at hfound
    rcases hfound with rfl | ⟨child, hchild, hfound⟩
    · exact .refl
    · exact .head hchild (ih hfound)

/-- What is reached is found, if one looks deep enough. -/
theorem Reaches.mem (h : m.WellFormed) (ht : m.Textual) (hreach : Reaches e f m top found)
    {depth : Nat} (hdepth : (keyAt found.path).length < (keyAt top.path).length + depth) :
    found ∈ foundFrom e f m depth top := by
  induction hreach using Relation.ReflTransGen.head_induction_on generalizing depth with
  | refl =>
    cases depth with
    | zero => omega
    | succ depth => exact List.mem_cons_self
  | @head top child hchild hrest ih =>
    obtain ⟨name, entry, hisChild⟩ := (mem_foundIn_iff h ht).mp hchild
    have hlength : (keyAt child.path).length = (keyAt top.path).length + 1 := by
      rw [hisChild.keyAt_eq h ht, List.length_append, List.length_singleton]
    have hbelow := (Reaches.prefix_keyAt h ht hrest).length_le
    cases depth with
    | zero => omega
    | succ depth =>
      rw [foundFrom, List.mem_cons, List.mem_flatMap]
      exact Or.inr ⟨child, hchild, ih (by omega)⟩

/-! ## The order -/

/-- The order of paths by the bytes of their segments, the first difference deciding. -/
def Precedes (p q : String) : Prop :=
  (segments p).map encode < (segments q).map encode

theorem not_precedes_self (path : String) : ¬ Precedes path path :=
  List.lt_irrefl _

theorem not_precedes_of_precedes {p q : String} (h : Precedes p q) : ¬ Precedes q p :=
  List.lt_asymm h

/-- Paths in order are different. -/
theorem nodup_of_pairwise_precedes {paths : List String} (h : paths.Pairwise Precedes) :
    paths.Nodup := by
  refine h.imp fun hprecedes heq => ?_
  rw [heq] at hprecedes
  exact not_precedes_self _ hprecedes

theorem precedes_of_below {p q s : String} {ss : List String}
    (h : segments q = segments p ++ s :: ss) : Precedes p q := by
  rw [Precedes, h, List.map_append]
  have hnil : (segments p).map encode = (segments p).map encode ++ [] := (List.append_nil _).symm
  rw [hnil, List.append_assoc]
  exact List.append_left_lt (List.nil_lt_cons _ _)

theorem precedes_of_lt {p q above s t : String} {ss ts : List String}
    (hp : segments p = segments above ++ s :: ss) (hq : segments q = segments above ++ t :: ts)
    (hlt : s < t) : Precedes p q := by
  rw [Precedes, hp, hq, List.map_append, List.map_append]
  exact List.append_left_lt (List.cons_lt_cons_iff.mpr (Or.inl (encode_lt_encode hlt)))

/-- What is found in something has different names, in their order. -/
theorem pairwise_foundIn (h : m.WellFormed) (ht : m.Textual) :
    (foundIn e f m found).Pairwise fun a b => ∃ name name', IsTextName name ∧ IsTextName name' ∧
      display name < display name' ∧ a.path = entryPath found.path name ∧
      b.path = entryPath found.path name' := by
  by_cases hne : foundIn e f m found = []
  · rw [hne]
    exact .nil
  · obtain ⟨listed, heq, hsorted, hdir, hread, hdirAt, hmem⟩ := exists_foundIn_eq h ht hne
    rw [heq, List.pairwise_filterMap, List.pairwise_map]
    refine hsorted.imp_of_mem fun {l l'} hl hl' hlt a ha b hb => ?_
    obtain ⟨name, entry, hget, rfl⟩ := (hmem l).mp hl
    obtain ⟨name', entry', hget', rfl⟩ := (hmem l').mp hl'
    have hchild : IsChild e f m found a name entry := ⟨hdir, hread, hdirAt, hget, ha⟩
    have hchild' : IsChild e f m found b name' entry' := ⟨hdir, hread, hdirAt, hget', hb⟩
    exact ⟨name, name', hchild.isTextName h ht, hchild'.isTextName h ht, hlt, hchild.path_eq,
      hchild'.path_eq⟩

/-- What is found comes in order, each path once. -/
theorem pairwise_foundFrom (h : m.WellFormed) (ht : m.Textual) (depth : Nat) (top : Found) :
    (foundFrom e f m depth top).Pairwise fun a b => Precedes a.path b.path := by
  induction depth generalizing top with
  | zero => exact .nil
  | succ depth ih =>
    rw [foundFrom, List.pairwise_cons, List.pairwise_flatMap]
    refine ⟨fun found hfound => ?_, fun child _ => ih child, ?_⟩
    · obtain ⟨child, hchild, hfound⟩ := List.mem_flatMap.mp hfound
      obtain ⟨name, entry, hchild⟩ := (mem_foundIn_iff h ht).mp hchild
      obtain ⟨names, hnames, hpath⟩ := (reaches_of_mem hfound).exists_path_eq h ht
      have hsegments : segments found.path =
          segments top.path ++ display name :: names.map display := by
        rw [hpath, segments_pathBelow hnames, hchild.path_eq,
          segments_entryPath (hchild.isTextName h ht).1, List.append_assoc, List.singleton_append]
      exact precedes_of_below hsegments
    · refine (pairwise_foundIn h ht).imp fun {a b} hab x hx y hy => ?_
      obtain ⟨name, name', hname, hname', hlt, ha, hb⟩ := hab
      obtain ⟨names, hnames, hx⟩ := (reaches_of_mem hx).exists_path_eq h ht
      obtain ⟨names', hnames', hy⟩ := (reaches_of_mem hy).exists_path_eq h ht
      have hsegments : segments x.path =
          segments top.path ++ display name :: names.map display := by
        rw [hx, segments_pathBelow hnames, ha, segments_entryPath hname.1, List.append_assoc,
          List.singleton_append]
      have hsegments' : segments y.path =
          segments top.path ++ display name' :: names'.map display := by
        rw [hy, segments_pathBelow hnames', hb, segments_entryPath hname'.1, List.append_assoc,
          List.singleton_append]
      exact precedes_of_lt hsegments hsegments' hlt

/-! ## Where it depends on -/

/-- What is found depends on what is at and below a key only. -/
theorem foundIn_congr (h : m.WellFormed) (ht : m.Textual) (h' : m'.WellFormed) (ht' : m'.Textual)
    (hself : m'.get? (keyAt found.path) = m.get? (keyAt found.path))
    (hget : ∀ name, m'.get? (keyAt found.path ++ [name]) = m.get? (keyAt found.path ++ [name])) :
    foundIn e f m' found = foundIn e f m found := by
  unfold foundIn
  rw [Failures.list_congr h ht h' ht' hself hget]

theorem foundFrom_congr (h : m.WellFormed) (ht : m.Textual) (h' : m'.WellFormed)
    (ht' : m'.Textual) {depth : Nat}
    (hget : ∀ k, keyAt top.path <+: k → m'.get? k = m.get? k) :
    foundFrom e f m' depth top = foundFrom e f m depth top := by
  induction depth generalizing top with
  | zero => rfl
  | succ depth ih =>
    rw [foundFrom, foundFrom, foundIn_congr h ht h' ht' (hget _ (List.prefix_refl _))
      fun name => hget _ (List.prefix_append _ _)]
    refine congrArg _ (List.flatMap_congr fun child hchild => ih fun k hk => hget k ?_)
    obtain ⟨name, entry, hchild⟩ := (mem_foundIn_iff h ht).mp hchild
    rw [hchild.keyAt_eq h ht] at hk
    exact (List.prefix_append _ _).trans hk

/-! ## What is said of it -/

/-- What a walk says of something itself; of the root it says nothing. -/
def ownVisits (f : Failures) (m : Memory) (path : String) (md : Metadata) : List Visit :=
  if CanonicalPath.isRoot path then []
  else [⟨path, (identityIn f m path (!md.isDir)).map (withStat md)⟩]

/-- What a walk says if it cannot list a directory. -/
def listingVisits (f : Failures) (m : Memory) (path : String) (md : Metadata) : List Visit :=
  if md.isDir then
    match f.list m (keyAt path) with
    | .error x => [⟨path, .error (SyncError.ofStorage path x)⟩]
    | .ok _ => []
  else []

/-- What a walk says of something that it finds. -/
def visitsOf (f : Failures) (m : Memory) (found : Found) : List Visit :=
  match found.metadata with
  | .error x => [⟨found.path, .error x⟩]
  | .ok md => ownVisits f m found.path md ++ listingVisits f m found.path md

theorem path_of_mem_visitsOf {v : Visit} (hv : v ∈ visitsOf f m found) : v.path = found.path := by
  unfold visitsOf ownVisits listingVisits at hv
  split at hv
  · rw [List.mem_singleton.mp hv]
  · rcases List.mem_append.mp hv with hv | hv
    · split at hv
      · cases hv
      · rw [List.mem_singleton.mp hv]
    · split at hv
      · split at hv
        · rw [List.mem_singleton.mp hv]
        · cases hv
      · cases hv

/-- Where one thing is said of each at most, the visits are in order too. -/
theorem pairwise_visits {founds : List Found}
    (hordered : founds.Pairwise fun a b => Precedes a.path b.path)
    (hone : ∀ found ∈ founds, visitsOf f m found = [] ∨ ∃ v, visitsOf f m found = [v]) :
    ((founds.flatMap (visitsOf f m)).map Visit.path).Pairwise Precedes := by
  rw [List.pairwise_map, List.pairwise_flatMap]
  refine ⟨fun found hfound => ?_, hordered.imp fun hprecedes v hv v' hv' => ?_⟩
  · rcases hone found hfound with hnil | ⟨v, hv⟩
    · rw [hnil]
      exact .nil
    · rw [hv]
      exact List.pairwise_singleton _ _
  · rw [path_of_mem_visitsOf hv, path_of_mem_visitsOf hv']
    exact hprecedes

/-- What is said of something depends on it and on its marker only. -/
theorem visitsOf_congr (hself : m'.get? (keyAt found.path) = m.get? (keyAt found.path))
    (hmarker : m'.get? (markerKey found.path) = m.get? (markerKey found.path)) :
    visitsOf f m' found = visitsOf f m found := by
  have hrequire : m'.requireDir (keyAt found.path) = m.requireDir (keyAt found.path) := by
    unfold Memory.requireDir
    rw [hself]
  have hlisting : ∀ md, listingVisits f m' found.path md = listingVisits f m found.path md := by
    intro md
    have herror : ∀ x, f.list m' (keyAt found.path) = .error x ↔
        f.list m (keyAt found.path) = .error x := by
      intro x
      rw [Failures.list_eq_error_iff, Failures.list_eq_error_iff, hrequire]
    unfold listingVisits
    split
    · cases hlist : f.list m (keyAt found.path) with
      | error x => rw [(herror x).mpr hlist]
      | ok entries =>
        cases hlist' : f.list m' (keyAt found.path) with
        | error x =>
          rw [(herror x).mp hlist'] at hlist
          cases hlist
        | ok entries' => rfl
    · rfl
  unfold visitsOf ownVisits
  simp only [identityIn_congr hself hmarker, hlisting]

end Endpoint

end SyncEndpoint
