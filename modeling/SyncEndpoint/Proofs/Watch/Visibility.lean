import SyncEndpoint.Proofs.Endpoint.Walk.Enumeration
import SyncEndpoint.Proofs.Watch.Interpretation

set_option autoImplicit false

/-! # What walks and watches show

A walk asks the ignore list about each directory that it comes to, and does not enter a hidden one.
A notification is judged by its path alone: the nearest level for which a rule applies decides. So
a watch shows what a walk visits, and besides that what the rules keep in a hidden directory. -/

namespace SyncEndpoint

open NativePath (ofNames display IsPart)
open Storage
open Text.Utf8

/-! ## Verdicts below hidden directories -/

namespace Ignore

variable {rules : List Rule} {names above : List Bytes} {isDir : Bool}

/-- The rules keep a path, but hide a directory that it lies in. -/
def KeptInHidden (rules : List Rule) (names : List Bytes) (isDir : Bool) : Prop :=
  nearestVerdict? rules (ofNames names) isDir = some .kept ∧
    ∃ above, above <+: names ∧ above ≠ [] ∧ above ≠ names ∧
      nearestVerdict? rules (ofNames above) true = some .hidden

instance (rules : List Rule) (names : List Bytes) (isDir : Bool) :
    Decidable (KeptInHidden rules names isDir) :=
  decidable_of_iff (nearestVerdict? rules (ofNames names) isDir = some .kept ∧
      ∃ above ∈ names.inits, above ≠ [] ∧ above ≠ names ∧
        nearestVerdict? rules (ofNames above) true = some .hidden)
    (and_congr_right' (exists_congr fun above => and_congr_left' (List.mem_inits above names)))

/-- What is not hidden though it lies in a hidden directory is kept by some rule: if none applied,
the directory would decide. -/
theorem nearestVerdict?_eq_kept (h : ∀ name ∈ names, IsPart name)
    (hself : nearestVerdict? rules (ofNames names) isDir ≠ some .hidden) (hpre : above <+: names)
    (hne : above ≠ names) (hhidden : nearestVerdict? rules (ofNames above) true = some .hidden) :
    nearestVerdict? rules (ofNames names) isDir = some .kept := by
  cases hverdict : nearestVerdict? rules (ofNames names) isDir with
  | some v =>
    cases v with
    | hidden => exact absurd hverdict hself
    | kept => rfl
  | none =>
    induction names using List.reverseRecOn with
    | nil => exact absurd (List.prefix_nil.mp hpre) hne
    | append_singleton names name _ =>
      rw [List.forall_mem_append, List.forall_mem_singleton] at h
      rw [nearestVerdict?_concat h.1 h.2, Option.or_eq_none_iff] at hverdict
      have hpre := (List.prefix_concat_iff.mp hpre).resolve_left hne
      rw [nearestVerdict?_eq_none_above h.1 hverdict.2 hpre] at hhidden
      cases hhidden

/-- Rules that bring nothing back keep nothing. -/
theorem not_keptInHidden (h : ∀ rule ∈ rules, rule.negated = false) (names : List Bytes)
    (isDir : Bool) : ¬ KeptInHidden rules names isDir :=
  fun hkept => nearestVerdict?_ne_kept h hkept.1

end Ignore

open Ignore (nearestVerdict? KeptInHidden)

/-! ## Walks -/

namespace Endpoint

variable {e : Endpoint} {m m' : Memory} {k : Key} {entry : Entry}

section PathOf

variable (h : ∀ name ∈ k, IsTextName name)

include h

theorem map_encode_display : (k.map display).map encode = k := by
  have hid : k.map (encode ∘ display) = k.map id :=
    List.map_congr_left fun name hname => (h name hname).encode_display
  rw [List.map_map, hid, List.map_id]

theorem ne_dot_of_mem_map : ∀ s ∈ k.map display, CanonicalPath.IsSegment s ∧ s ≠ "." :=
  fun s hs => ⟨(isSegment_of_mem_map h s hs).1, (isSegment_of_mem_map h s hs).2.1⟩

theorem isIgnored_pathOf (hk : k ≠ []) {list : IgnoreList} {isDir : Bool} :
    list.isIgnored (pathOf k) isDir =
      (nearestVerdict? list.rules (ofNames k) isDir == some .hidden) := by
  have hne : k.map display ≠ [] := by simpa using hk
  rw [pathOf, Ignore.isIgnored_ofSegments (ne_dot_of_mem_map h) hne, map_encode_display h]

end PathOf

/-- What is shown are the paths that are not hidden, and lie in no hidden directory. -/
theorem shown_iff (h : m.WellFormed) (ht : m.Textual) (hk : k ≠ [])
    (hget : m.get? k = some entry) :
    Shown e m k ↔ nearestVerdict? e.ignored.rules (ofNames k) entry.isDir ≠ some .hidden ∧
      ∀ above, above <+: k → above ≠ [] → above ≠ k →
        nearestVerdict? e.ignored.rules (ofNames above) true ≠ some .hidden := by
  have hnames := isTextName_of_mem h ht hget
  have hthere : m.get? k ≠ none := by simp [hget]
  constructor
  · intro hshown
    refine ⟨?_, fun above hpre hne hstrict => ?_⟩
    · have hself := hshown k entry hk (List.prefix_refl k) hget
      rw [isIgnored_pathOf hnames hk] at hself
      simpa using hself
    · obtain ⟨t, hdir⟩ := h.isDirAt_above hthere hpre hstrict
      have habove := hshown above (.dir t) hne hpre hdir
      rw [isIgnored_pathOf (fun name hname => hnames name (hpre.subset hname)) hne] at habove
      simpa using habove
  · rintro ⟨hself, habove⟩ k' entry' hne hpre hget'
    rw [isIgnored_pathOf (fun name hname => hnames name (hpre.subset hname)) hne]
    by_cases heq : k' = k
    · subst heq
      cases hget.symm.trans hget'
      simpa using hself
    · obtain ⟨t, hdir⟩ := h.isDirAt_above hthere hpre heq
      cases hdir.symm.trans hget'
      simpa using habove k' hpre hne heq

/-- Markers are put in the place of nothing or of files. -/
theorem Marked.exists_isDir_eq {f : Failures} {founds : List Found} (h : Marked f m founds m')
    (hget : m.get? k = some entry) : ∃ entry', m'.get? k = some entry' ∧
      entry'.isDir = entry.isDir := by
  rcases h.get?_eq_or k with heq | ⟨found, -, hmarks, n, heq⟩
  · exact ⟨entry, heq.trans hget, rfl⟩
  · have hfile : ¬ m.IsDirAt k := hmarks.2.2.2.2.2
    obtain ⟨t, heq⟩ := heq
    refine ⟨_, heq, ?_⟩
    cases entry with
    | file data t => rw [Entry.isDir_file, Entry.isDir_file]
    | dir t => exact absurd ⟨t, hget⟩ hfile

/-- A walk of the whole endpoint visits the path. -/
def Visits (e : Endpoint) (w : World Memory) (path : String) : Prop :=
  ∃ v ∈ ((walk e []).run Memory.backend w).1, v.path = path

instance (e : Endpoint) (w : World Memory) (path : String) : Decidable (e.Visits w path) :=
  inferInstanceAs (Decidable (∃ v ∈ _, _))

/-- The tree that a walk leaves shows of what was there before what it did before. -/
theorem visits_pathOf_iff {w : World Memory} (h : w.storage.WellFormed) (ht : w.storage.Textual)
    (hk : k ≠ []) (hget : w.storage.get? k = some entry) :
    e.Visits w (pathOf k) ↔ Shown e w.storage k := by
  obtain ⟨founds, m', minted, hrun, hw⟩ :=
    run_walkTree (e := e) (f := .calm) h ht CanonicalPath.root
  have h' := hw.marked.wellFormed
  have ht' := hw.marked.textual
  have hvisits := fun v => mem_visits_iff (hw.mem_iff h) h' ht' (v := v)
  obtain ⟨entry', hget', hdir⟩ := hw.marked.exists_isDir_eq hget
  have hwalk : (walk e []).run Memory.backend w =
      (founds.flatMap (visitsOf .calm m'), ⟨m', minted⟩) := by
    rw [← Failures.backend_calm]
    exact (run_walk none).trans hrun
  rw [shown_iff h ht hk hget, ← hdir, ← shown_iff h' ht' hk hget', Visits, hwalk]
  constructor
  · rintro ⟨v, hv, hpath⟩
    obtain ⟨k', entry'', -, hget'', hshown, rfl⟩ := (hvisits v).mp hv
    have heq : k' = k := by
      rw [← keyAt_pathOf (isTextName_of_mem h' ht' hget''), ← keyAt_pathOf
        (isTextName_of_mem h' ht' hget')]
      exact congrArg keyAt hpath
    rwa [← heq]
  · intro hshown
    exact ⟨visitAt m' k entry', (hvisits _).mpr ⟨k, entry', hk, hget', hshown, rfl⟩, rfl⟩

end Endpoint

/-! ## Events -/

namespace Watch.Interpreter

open Endpoint (pathOf isTextName_of_mem)

variable {t : Interpreter} {now : Timestamp} {raw : RawEvent} {type : ChangeType}
  {w : World Memory} {k : Key} {entry : Entry}

/-- A notification comes to an event. -/
def Reports (t : Interpreter) (now : Timestamp) (raw : RawEvent) (w : World Memory) : Prop :=
  ∃ event, ((t.interpret now raw).run.run Memory.backend w).1 = .ok (some event)

/-- A notification on something that is there comes to an event unless the rules hide its path. -/
theorem reports_iff (h : w.storage.WellFormed) (ht : w.storage.Textual) (hk : k ≠ [])
    (hget : w.storage.get? k = some entry) (htype : changeOf raw.mask = .seen type)
    (hpath : NativePath.components raw.path = NativePath.components t.root ++ k.map .normal) :
    t.Reports now raw w ↔
      nearestVerdict? t.ignored.rules (ofNames k) entry.isDir ≠ some .hidden := by
  have hnames := isTextName_of_mem h ht hget
  have hparts : ∀ name ∈ k, IsPart name := fun name hname => (hnames name hname).1.isPart
  have hofPart : k.map NativePath.Component.ofPart = k.map .normal :=
    List.map_congr_left fun name hname => NativePath.ofPart_of_isName (hnames name hname).1
  have hbelow : NativePath.below? raw.path t.root = some (ofNames ((k.map display).map encode)) := by
    rw [Endpoint.map_encode_display hnames]
    exact NativePath.below?_eq_some (hofPart ▸ hpath)
  have hkey : keyOf (ofNames ((k.map display).map encode)) = k := by
    rw [Endpoint.map_encode_display hnames, keyOf, NativePath.names_ofNames hparts,
      List.filter_eq_self]
    exact fun name hname => by simpa using (hnames name hname).1.2.2.1
  have hrun : (t.interpret now raw).run.run Memory.backend w = _ :=
    run_interpret (Endpoint.ne_dot_of_mem_map hnames) htype hbelow (hkey.symm ▸ hget)
  rw [Reports, hrun, ← pathOf, Endpoint.isIgnored_pathOf hnames hk]
  by_cases hhidden : nearestVerdict? t.ignored.rules (ofNames k) entry.isDir = some .hidden
  · simp [hhidden]
  · simp [hhidden]

end Watch.Interpreter

/-! ## Both -/

open Endpoint (pathOf shown_iff visits_pathOf_iff inMemory oneFile oneFile_wellFormed oneFile_textual)
open Watch (Interpreter RawEvent)
open Watch.Interpreter (changeOf reports_iff)

section Both

variable {e : Endpoint} {t : Interpreter} {now : Timestamp} {raw : RawEvent} {type : ChangeType}
  {w : World Memory} {k : Key} {entry : Entry} (h : w.storage.WellFormed) (ht : w.storage.Textual)
  (hk : k ≠ []) (hget : w.storage.get? k = some entry) (hsame : t.ignored = e.ignored)
  (htype : changeOf raw.mask = .seen type)
  (hpath : NativePath.components raw.path = NativePath.components t.root ++ k.map .normal)

include h ht hk hget hsame htype hpath

/-- What a walk visits a watch reports. -/
theorem reports_of_visits (hvisits : e.Visits w (pathOf k)) : t.Reports now raw w := by
  rw [visits_pathOf_iff h ht hk hget, shown_iff h ht hk hget] at hvisits
  rw [reports_iff h ht hk hget htype hpath, hsame]
  exact hvisits.1

/-- What a watch reports and no walk visits is what the rules keep in hidden directories. -/
theorem reports_and_not_visits_iff : t.Reports now raw w ∧ ¬ e.Visits w (pathOf k) ↔
    KeptInHidden e.ignored.rules k entry.isDir := by
  have hparts : ∀ name ∈ k, IsPart name := fun name hname =>
    (Endpoint.isTextName_of_mem h ht hget name hname).1.isPart
  rw [visits_pathOf_iff h ht hk hget, shown_iff h ht hk hget,
    reports_iff h ht hk hget htype hpath, hsame]
  constructor
  · rintro ⟨hself, hnot⟩
    have hhidden : ∃ above, above <+: k ∧ above ≠ [] ∧ above ≠ k ∧
        nearestVerdict? e.ignored.rules (ofNames above) true = some .hidden := by
      by_contra hnone
      exact hnot ⟨hself, fun above hpre hne hstrict hhidden =>
        hnone ⟨above, hpre, hne, hstrict, hhidden⟩⟩
    obtain ⟨above, hpre, hne, hstrict, hhidden⟩ := hhidden
    exact ⟨Ignore.nearestVerdict?_eq_kept hparts hself hpre hstrict hhidden, above, hpre, hne,
      hstrict, hhidden⟩
  · rintro ⟨hkept, above, hpre, hne, hstrict, hhidden⟩
    exact ⟨by simp [hkept], fun hshown => hshown.2 above hpre hne hstrict hhidden⟩

/-- A watch and a walk show the same, exactly where the rules keep nothing in a hidden directory. -/
theorem reports_iff_visits_iff : (t.Reports now raw w ↔ e.Visits w (pathOf k)) ↔
    ¬ KeptInHidden e.ignored.rules k entry.isDir := by
  rw [← reports_and_not_visits_iff h ht hk hget hsame htype hpath]
  constructor
  · rintro hiff ⟨hreports, hnot⟩
    exact hnot (hiff.mp hreports)
  · intro hnot
    refine ⟨fun hreports => ?_, reports_of_visits h ht hk hget hsame htype hpath⟩
    by_contra hmissed
    exact hnot ⟨hreports, hmissed⟩

/-- Without rules that bring something back they show the same. -/
theorem reports_iff_visits_of_no_negation
    (hrules : ∀ rule ∈ e.ignored.rules, rule.negated = false) :
    t.Reports now raw w ↔ e.Visits w (pathOf k) := by
  refine ⟨fun hreports => ?_, reports_of_visits h ht hk hget hsame htype hpath⟩
  by_contra hmissed
  exact Ignore.not_keptInHidden hrules k entry.isDir
    ((reports_and_not_visits_iff h ht hk hget hsame htype hpath).mp ⟨hreports, hmissed⟩)

end Both

/-- An endpoint that ignores what is built, and brings one path of it back. -/
def keepsOneBuilt : Endpoint :=
  match IgnoreList.ofLines ["build/", "!build/keep"] with
  | .ok ignored => { inMemory with ignored := ignored }
  | .error _ => inMemory

/-- The interpreter of its notifications. -/
def keepsOneBuiltWatch : Interpreter where
  root := encode "/mnt/sync"
  ignored := keepsOneBuilt.ignored
  source := 0

/-- A notification that something was made. -/
def made (path : String) : RawEvent where
  path := encode path
  mask := { create := true }

theorem reports_and_visits_oneFile :
    keepsOneBuiltWatch.Reports ⟨0, 0⟩ (made "/mnt/sync/a/f") ⟨oneFile, 0⟩ ∧
      keepsOneBuilt.Visits ⟨oneFile, 0⟩ (pathOf [encode "a", encode "f"]) := by
  have hpath : NativePath.components (made "/mnt/sync/a/f").path =
      NativePath.components keepsOneBuiltWatch.root ++ [encode "a", encode "f"].map .normal := by
    decide
  have hreports : keepsOneBuiltWatch.Reports ⟨0, 0⟩ (made "/mnt/sync/a/f") ⟨oneFile, 0⟩ := by
    refine (reports_iff oneFile_wellFormed oneFile_textual (by simp) rfl rfl hpath).mpr ?_
    decide +kernel
  have hiff : keepsOneBuiltWatch.Reports ⟨0, 0⟩ (made "/mnt/sync/a/f") ⟨oneFile, 0⟩ ↔
      keepsOneBuilt.Visits ⟨oneFile, 0⟩ (pathOf [encode "a", encode "f"]) := by
    refine (reports_iff_visits_iff oneFile_wellFormed oneFile_textual (by simp) rfl rfl rfl
      hpath).mpr ?_
    decide +kernel
  exact ⟨hreports, hiff.mp hreports⟩

/-- The directory of what is built, with the path that is brought back. -/
def built : Memory where
  entries := [([], .dir ⟨0, 0⟩), ([encode "build"], .dir ⟨0, 0⟩),
    ([encode "build", encode "keep"], .file (encode "x") ⟨1, 0⟩)]
  clock := fun look => ⟨look + 2, 0⟩

/-- The path is reported though no walk visits it. -/
theorem reports_not_visits_built :
    built.WellFormed ∧ built.Textual ∧
      IgnoreList.ofLines ["build/", "!build/keep"] = .ok keepsOneBuilt.ignored ∧
      built.get? [encode "build", encode "keep"] ≠ none ∧
      keepsOneBuiltWatch.Reports ⟨0, 0⟩ (made "/mnt/sync/build/keep") ⟨built, 0⟩ ∧
      ¬ keepsOneBuilt.Visits ⟨built, 0⟩ "/build/keep" := by
  have h : built.WellFormed := by decide
  have ht : built.Textual := .of_entries (by simp [built])
  have hreports : keepsOneBuiltWatch.Reports ⟨0, 0⟩ (made "/mnt/sync/build/keep") ⟨built, 0⟩ := by
    refine (reports_iff (k := [encode "build", encode "keep"]) h ht (by simp) rfl rfl ?_).mpr ?_
    · decide
    · decide +kernel
  exact ⟨h, ht, rfl, by decide, hreports, by decide +kernel⟩

end SyncEndpoint
