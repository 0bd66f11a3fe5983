import SyncEndpoint.Proofs.Endpoint.Subtree
import SyncEndpoint.Proofs.Endpoint.Walk.Found

set_option autoImplicit false

/-! # What a walk does

A walk changes the tree while it looks at it: each collection that it says something of gets its
marker, and the listing that comes next shows it. The order of all this does not matter: what a
walk says is what there is to be said of the tree that it leaves (`run_walkFrom`). -/

namespace SyncEndpoint.Endpoint

open Storage
open Text.Utf8

variable {e : Endpoint} {f : Failures} {m m₁ m₂ : Memory}

/-! ## Markers -/

/-- What is found gets a marker at a key: it is a collection, not the root, that lacks one there. -/
def Marks (f : Failures) (m : Memory) (found : Found) (k : Key) : Prop :=
  (∃ md, found.metadata = .ok md ∧ md.isDir = true) ∧ CanonicalPath.isRoot found.path = false ∧
    k = markerKey found.path ∧ f.Lacks m k

/-- A tree after what was found has got its markers. -/
structure Marked (f : Failures) (m : Memory) (founds : List Found) (m' : Memory) : Prop where
  wellFormed : m'.WellFormed
  textual : m'.Textual
  unmarked : ∀ k, (∀ found ∈ founds, ¬ Marks f m found k) → m'.get? k = m.get? k
  marked : ∀ found ∈ founds, ∀ k, Marks f m found k →
    ∃ n t, m'.get? k = some (.file (encode (Uuid.ofNat n)) t)

namespace Marked

/-- What gets no marker leaves the tree as it is. -/
theorem refl (h : m.WellFormed) (ht : m.Textual) {founds : List Found}
    (hnone : ∀ found ∈ founds, ∀ k, ¬ Marks f m found k) : Marked f m founds m where
  wellFormed := h
  textual := ht
  unmarked := fun _ _ => rfl
  marked := fun found hfound k hmarks => absurd hmarks (hnone found hfound k)

/-- First some markers, and then others at other keys. -/
theorem append {as bs : List Found} (ha : Marked f m as m₁) (hb : Marked f m₁ bs m₂)
    (hapart : ∀ a ∈ as, ∀ b ∈ bs, markerKey a.path ≠ markerKey b.path) :
    Marked f m (as ++ bs) m₂ := by
  have hsame : ∀ b ∈ bs, m₁.get? (markerKey b.path) = m.get? (markerKey b.path) :=
    fun b hmem => ha.unmarked _ fun a hmem' hmarks => hapart a hmem' b hmem hmarks.2.2.1.symm
  have hmarks_iff : ∀ b ∈ bs, ∀ k, Marks f m₁ b k ↔ Marks f m b k := by
    intro b hmem k
    unfold Marks
    refine and_congr_right fun _ => and_congr_right fun _ => and_congr_right fun heq => ?_
    rw [heq]
    exact Failures.lacks_congr (hsame b hmem)
  refine ⟨hb.wellFormed, hb.textual, fun k hk => ?_,
    fun found hfound k hmarks => ?_⟩
  · rw [List.forall_mem_append] at hk
    rw [hb.unmarked k fun b hmem hmarks => hk.2 b hmem ((hmarks_iff b hmem k).mp hmarks),
      ha.unmarked k hk.1]
  · rcases List.mem_append.mp hfound with hfound | hfound
    · obtain ⟨n, t, hn⟩ := ha.marked found hfound k hmarks
      refine ⟨n, t, ?_⟩
      rw [hb.unmarked k fun b hmem hmarks' => ?_, hn]
      exact hapart found hfound b hmem (hmarks.2.2.1.symm.trans hmarks'.2.2.1)
    · exact hb.marked found hfound k ((hmarks_iff found hfound k).mpr hmarks)

variable {founds : List Found} {m' : Memory} {k : Key}

theorem get?_eq_or (h : Marked f m founds m') (k : Key) : m'.get? k = m.get? k ∨
    ∃ found ∈ founds, Marks f m found k ∧
      ∃ n t, m'.get? k = some (.file (encode (Uuid.ofNat n)) t) := by
  by_cases hk : ∃ found ∈ founds, Marks f m found k
  · obtain ⟨found, hfound, hmarks⟩ := hk
    exact Or.inr ⟨found, hfound, hmarks, h.marked found hfound k hmarks⟩
  · refine Or.inl (h.unmarked k fun found hfound hmarks => hk ⟨found, hfound, hmarks⟩)

/-- Directories stay, and there are no others. -/
theorem get?_eq_dir_iff (h : Marked f m founds m') {t : Timestamp} :
    m'.get? k = some (.dir t) ↔ m.get? k = some (.dir t) := by
  rcases h.get?_eq_or k with heq | ⟨found, -, hmarks, n, stamp, heq⟩
  · rw [heq]
  · rw [heq]
    exact ⟨fun hdir => (by cases hdir), fun hdir => absurd ⟨t, hdir⟩ hmarks.2.2.2.2.2⟩

theorem isDirAt_iff (h : Marked f m founds m') : m'.IsDirAt k ↔ m.IsDirAt k :=
  exists_congr fun _ => h.get?_eq_dir_iff

/-- Keys grow by a name at most. -/
theorem length_le (h : Marked f m founds m') (hget : m'.get? k ≠ none) :
    k.length ≤ m.longestKey + 1 := by
  rcases h.get?_eq_or k with heq | ⟨found, -, hmarks, -⟩
  · have := length_le_longestKey (heq ▸ hget)
    omega
  · rw [hmarks.2.2.1, markerKey] at hget ⊢
    have hdir := h.isDirAt_iff.mp (h.wellFormed.parent _ _ hget)
    have := length_le_longestKey hdir.ne_none
    rw [List.length_append, List.length_singleton]
    omega

end Marked

/-! ## One node -/

variable {w : World Memory}

theorem run_visitNode (h : w.storage.WellFormed) (ht : w.storage.Textual) {path : String}
    {md : Metadata} (hright : (⟨path, .ok md⟩ : Found).IsRight w.storage) :
    ∃ m' minted, (visitNode path md).run f.backend w = (ownVisits f m' path md, ⟨m', minted⟩) ∧
      Marked f w.storage [⟨path, .ok md⟩] m' := by
  unfold visitNode ownVisits
  by_cases hroot : CanonicalPath.isRoot path = true
  · simp only [if_pos hroot]
    refine ⟨w.storage, w.minted, rfl, .refl h ht ?_⟩
    simp [Marks, hroot]
  · simp only [if_neg hroot]
    obtain ⟨entry, hget, rfl⟩ := hright md rfl
    cases entry with
    | file data t =>
      have hrun : (identify path true : Attempt Bytes Key SyncError Node).run.run f.backend w =
          (identityIn f w.storage path true, w) := run_identify_leaf
      refine ⟨w.storage, w.minted, ?_, .refl h ht ?_⟩
      · rw [Program.run_bind]
        exact congrArg (fun r : Except SyncError Node × World Memory =>
          ([(⟨path, r.1.map _⟩ : Visit)], r.2)) hrun
      · simp [Marks, Entry.metadata]
    | dir t =>
      have hdir : w.storage.IsDirAt (keyAt path) := ⟨t, hget⟩
      obtain ⟨m', minted, hrun, heffect⟩ := run_identify_collection (f := f) (w := w) hdir
      refine ⟨m', minted, ?_, ?_⟩
      · rw [Program.run_bind]
        exact congrArg (fun r : Except SyncError Node × World Memory =>
          ([(⟨path, r.1.map _⟩ : Visit)], r.2)) hrun
      · have hmarks : ∀ k, Marks f w.storage ⟨path, .ok (Entry.dir t).metadata⟩ k ↔
            k = markerKey path ∧ f.Lacks w.storage k := by
          simp [Marks, hroot, Entry.metadata]
        rcases heffect with ⟨hlacks, n, hwrote⟩ | ⟨hlacks, rfl⟩
        · refine ⟨?_, ?_, fun k hk => ?_, fun found hfound k hk => ⟨n, ?_⟩⟩
          · exact hwrote.wellFormed h hdir Identity.isName_markerName hlacks.2.2
          · exact hwrote.textual ht hdir ⟨markerName, rfl⟩
          · rw [List.forall_mem_singleton, hmarks] at hk
            refine hwrote.others k ?_
            rintro rfl
            exact hk ⟨rfl, hlacks⟩
          · rw [List.mem_singleton.mp hfound, hmarks] at hk
            rw [hk.1]
            exact hwrote.file
        · refine .refl h ht fun found hfound k hk => ?_
          rw [List.mem_singleton.mp hfound, hmarks] at hk
          exact hlacks (hk.1 ▸ hk.2)

/-! ## What is below -/

/-- Two paths with nothing at or below both of them. -/
def Apart (a b : Found) : Prop :=
  ∀ k, keyAt a.path <+: k → ¬ keyAt b.path <+: k

theorem pairwise_apart (h : m.WellFormed) (ht : m.Textual) (found : Found) :
    (foundIn e f m found).Pairwise Apart := by
  refine (pairwise_foundIn h ht).imp fun {a b} hab k ha hb => ?_
  obtain ⟨name, name', hname, hname', hlt, hpath, hpath'⟩ := hab
  rw [hpath, keyAt_entryPath hname] at ha
  rw [hpath', keyAt_entryPath hname'] at hb
  -- Keys of one length above the same key are equal.
  have heq := (List.prefix_of_prefix_length_le ha hb (by simp)).eq_of_length (by simp)
  rw [List.append_cancel_left_eq, List.cons.injEq] at heq
  rw [heq.1] at hlt
  exact lt_irrefl _ hlt

/-- What gets markers below something leaves everything alone that is not strictly below it. -/
theorem Marked.get?_eq {founds : List Found} {m' : Memory} (hmarked : Marked f m founds m')
    {k : Key} (hk : ∀ found ∈ founds, ¬ keyAt found.path <+: k) : m'.get? k = m.get? k := by
  refine hmarked.unmarked k fun found hfound hmarks => hk found hfound ?_
  rw [hmarks.2.2.1, markerKey]
  exact List.prefix_append _ _

/-- A walk through `depth` levels says what there is to be said of the tree that it leaves. -/
def WalksTo (e : Endpoint) (f : Failures) (depth : Nat) : Prop :=
  ∀ (top : Found) (w : World Memory), w.storage.WellFormed → w.storage.Textual →
    top.IsRight w.storage → ∃ m' minted,
      (walkFrom e depth top).run f.backend w =
        ((foundFrom e f m' depth top).flatMap (visitsOf f m'), ⟨m', minted⟩) ∧
      Marked f w.storage (foundFrom e f m' depth top) m'

theorem WalksTo.all {depth : Nat} (hwalks : WalksTo e f depth) {tops : List Found}
    (hapart : tops.Pairwise Apart) {w : World Memory} (h : w.storage.WellFormed)
    (ht : w.storage.Textual) (hright : ∀ top ∈ tops, top.IsRight w.storage) :
    ∃ visits m' minted, (tops.mapM (walkFrom e depth)).run f.backend w = (visits, ⟨m', minted⟩) ∧
      visits.flatten = (tops.flatMap (foundFrom e f m' depth)).flatMap (visitsOf f m') ∧
      Marked f w.storage (tops.flatMap (foundFrom e f m' depth)) m' := by
  induction tops generalizing w with
  | nil =>
    refine ⟨[], w.storage, w.minted, by rw [List.mapM_nil]; rfl, rfl, .refl h ht (by simp)⟩
  | cons top tops ih =>
    rw [List.pairwise_cons] at hapart
    rw [List.forall_mem_cons] at hright
    obtain ⟨m₁, minted₁, hrun₁, hmarked₁⟩ := hwalks top w h ht hright.1
    have h₁ := hmarked₁.wellFormed
    have ht₁ := hmarked₁.textual
    -- What is found below one of the others is apart from `top`.
    have hright₁ : ∀ other ∈ tops, other.IsRight m₁ := by
      intro other hother md hmd
      rw [hmarked₁.get?_eq fun found hfound hpre => ?_]
      · exact hright.2 other hother md hmd
      · exact hapart.1 other hother _ (((reaches_of_mem hfound).prefix_keyAt h₁ ht₁).trans hpre)
          (List.prefix_refl _)
    obtain ⟨visits, m₂, minted₂, hrun₂, hvisits, hmarked₂⟩ :=
      ih hapart.2 (w := ⟨m₁, minted₁⟩) h₁ ht₁ hright₁
    have h₂ := hmarked₂.wellFormed
    have ht₂ := hmarked₂.textual
    have hbelow : ∀ k, keyAt top.path <+: k → m₂.get? k = m₁.get? k := by
      intro k hk
      refine hmarked₂.get?_eq fun found hfound hpre => ?_
      obtain ⟨other, hother, hfound⟩ := List.mem_flatMap.mp hfound
      exact hapart.1 other hother k hk (((reaches_of_mem hfound).prefix_keyAt h₂ ht₂).trans hpre)
    have hfounds : foundFrom e f m₂ depth top = foundFrom e f m₁ depth top :=
      foundFrom_congr h₁ ht₁ h₂ ht₂ hbelow
    have hvisitsOf : ∀ found ∈ foundFrom e f m₁ depth top,
        visitsOf f m₂ found = visitsOf f m₁ found := by
      intro found hfound
      have hpre := (reaches_of_mem hfound).prefix_keyAt h₁ ht₁
      exact visitsOf_congr (hbelow _ hpre) (hbelow _ (hpre.trans (List.prefix_append _ _)))
    refine ⟨(foundFrom e f m₁ depth top).flatMap (visitsOf f m₁) :: visits, m₂, minted₂, ?_, ?_,
      ?_⟩
    · rw [List.mapM_cons, Program.run_bind, hrun₁, Program.run_bind, hrun₂, Program.run_pure]
    · rw [List.flatten_cons, hvisits, List.flatMap_cons, List.flatMap_append, hfounds,
        List.flatMap_congr hvisitsOf]
    · rw [List.flatMap_cons, hfounds]
      refine hmarked₁.append hmarked₂ fun a ha b hb heq => ?_
      obtain ⟨other, hother, hb⟩ := List.mem_flatMap.mp hb
      refine hapart.1 other hother (markerKey b.path) ?_ ?_
      · rw [← heq]
        exact ((reaches_of_mem ha).prefix_keyAt h₁ ht₁).trans (List.prefix_append _ _)
      · exact ((reaches_of_mem hb).prefix_keyAt h₂ ht₂).trans (List.prefix_append _ _)

/-- A walk through what is listed in a directory leaves everything alone that is not deeper. -/
theorem WalksTo.listed {depth : Nat} (hwalks : WalksTo e f depth) {w : World Memory}
    (h : w.storage.WellFormed) (ht : w.storage.Textual) (top : Found) :
    ∃ visits m' minted,
      ((foundIn e f w.storage top).mapM (walkFrom e depth)).run f.backend w =
        (visits, ⟨m', minted⟩) ∧
      visits.flatten =
        ((foundIn e f m' top).flatMap (foundFrom e f m' depth)).flatMap (visitsOf f m') ∧
      Marked f w.storage ((foundIn e f m' top).flatMap (foundFrom e f m' depth)) m' ∧
      (∀ found ∈ (foundIn e f m' top).flatMap (foundFrom e f m' depth),
        (keyAt top.path).length < (keyAt found.path).length) ∧
      ∀ k, k.length ≤ (keyAt top.path).length + 1 → m'.get? k = w.storage.get? k := by
  have hright : ∀ child ∈ foundIn e f w.storage top, child.IsRight w.storage := by
    intro child hmem
    obtain ⟨name, entry, hchild⟩ := (mem_foundIn_iff h ht).mp hmem
    exact hchild.isRight h ht
  obtain ⟨visits, m', minted, hrun, hvisits, hmarked⟩ :=
    hwalks.all (pairwise_apart h ht top) h ht hright
  have h' := hmarked.wellFormed
  have ht' := hmarked.textual
  have hdeeper : ∀ found ∈ (foundIn e f w.storage top).flatMap (foundFrom e f m' depth),
      (keyAt top.path).length < (keyAt found.path).length := by
    intro found hfound
    obtain ⟨child, hmem, hfound⟩ := List.mem_flatMap.mp hfound
    obtain ⟨name, entry, hchild⟩ := (mem_foundIn_iff h ht).mp hmem
    have hlength := ((reaches_of_mem hfound).prefix_keyAt h' ht').length_le
    rw [hchild.keyAt_eq h ht, List.length_append, List.length_singleton] at hlength
    omega
  have hsame : ∀ k, k.length ≤ (keyAt top.path).length + 1 → m'.get? k = w.storage.get? k := by
    intro k hk
    refine hmarked.unmarked k fun found hfound hmarks => ?_
    have hlength := hdeeper found hfound
    rw [hmarks.2.2.1, markerKey, List.length_append, List.length_singleton] at hk
    omega
  have hfound : foundIn e f m' top = foundIn e f w.storage top :=
    foundIn_congr h ht h' ht' (hsame _ (by omega)) fun name => hsame _ (by simp)
  exact ⟨visits, m', minted, hrun, hfound ▸ hvisits, hfound ▸ hmarked, hfound ▸ hdeeper, hsame⟩

/-! ## The walk -/

theorem walksTo (e : Endpoint) (f : Failures) (depth : Nat) : WalksTo e f depth := by
  induction depth with
  | zero => exact fun top w h ht _ => ⟨w.storage, w.minted, rfl, .refl h ht (by simp [foundFrom])⟩
  | succ depth ih =>
    intro top w h ht hright
    obtain ⟨path, metadata⟩ := top
    cases metadata with
    | error x =>
      refine ⟨w.storage, w.minted, ?_, .refl h ht ?_⟩
      · simp [walkFrom, foundFrom, foundIn, visitsOf]
      · simp [foundFrom, foundIn, Marks]
    | ok md =>
      obtain ⟨m₁, minted₁, hrun₁, hmarked₁⟩ := run_visitNode (f := f) h ht hright
      have h₁ := hmarked₁.wellFormed
      have ht₁ := hmarked₁.textual
      rw [walkFrom, Program.run_bind, hrun₁]
      dsimp only
      by_cases hdir : md.isDir = true
      · have hread : ((readDir (nativePath path) : Attempt Bytes Key IoError _).run).run f.backend
            ⟨m₁, minted₁⟩ = (f.list m₁ (keyAt path), ⟨m₁, minted₁⟩) := by
          rw [← keyOf_nativePath]
          rfl
        rw [if_pos hdir, Program.run_bind, hread]
        cases hlist : f.list m₁ (keyAt path) with
        | error x =>
          have hfound : foundIn e f m₁ ⟨path, .ok md⟩ = [] := by
            simp only [foundIn, if_pos hdir, hlist]
          refine ⟨m₁, minted₁, ?_, ?_⟩
          · rw [foundFrom, hfound]
            simp [visitsOf, listingVisits, hdir, hlist]
          · rw [foundFrom, hfound]
            exact hmarked₁
        | ok entries =>
          have hfound : foundIn e f m₁ ⟨path, .ok md⟩ = entries.filterMap (e.foundIn? path) := by
            simp only [foundIn, if_pos hdir, hlist]
          obtain ⟨visits, m₂, minted₂, hrun₂, hvisits, hmarked₂, hdeeper, hsame⟩ :=
            ih.listed (w := ⟨m₁, minted₁⟩) h₁ ht₁ ⟨path, .ok md⟩
          rw [hfound] at hrun₂
          have hmarker : m₂.get? (markerKey path) = m₁.get? (markerKey path) :=
            hsame _ (by simp [markerKey])
          have hvisitsOf : visitsOf f m₂ ⟨path, .ok md⟩ = visitsOf f m₁ ⟨path, .ok md⟩ :=
            visitsOf_congr (hsame _ (by simp)) hmarker
          refine ⟨m₂, minted₂, ?_, ?_⟩
          · dsimp only
            rw [Program.run_bind, hrun₂, Program.run_pure, foundFrom, List.flatMap_cons, hvisits,
              hvisitsOf]
            simp [visitsOf, listingVisits, hdir, hlist]
          · rw [foundFrom]
            refine hmarked₁.append hmarked₂ fun a ha b hb heq => ?_
            have hlength := hdeeper b hb
            rw [List.mem_singleton.mp ha, markerKey, markerKey] at heq
            rw [List.append_inj_left' heq rfl] at hlength
            exact lt_irrefl _ hlength
      · have hfound : foundIn e f m₁ ⟨path, .ok md⟩ = [] := by
          simp only [foundIn, if_neg hdir]
        refine ⟨m₁, minted₁, ?_, ?_⟩
        · rw [if_neg hdir, foundFrom, hfound]
          simp [visitsOf, listingVisits, hdir]
        · rw [foundFrom, hfound]
          exact hmarked₁

/-! ## Walks from a path -/

/-- A walk from one path; without a path, from the root. -/
theorem run_walk (start : Option String) : (walk e start.toList).run f.backend w =
    (walkTree e (start.getD CanonicalPath.root)).run f.backend w := by
  have hone : ∀ path, (walk e [path]).run f.backend w = (walkTree e path).run f.backend w := by
    intro path
    rw [walk, if_neg (by simp), Program.run_bind, List.mapM_cons, Program.run_bind,
      Program.run_bind]
    simp
  cases start with
  | some path => exact hone path
  | none => exact hone CanonicalPath.root

/-- What is known of the path that a walk starts from. -/
def startOf (f : Failures) (m : Memory) (start : String) : Found :=
  ⟨CanonicalPath.clean start,
    (Failures.guarded (f.stat (key start)) (m.stat (key start))).mapError
      (SyncError.ofStorage (CanonicalPath.clean start))⟩

theorem startOf_isRight (f : Failures) (m : Memory) (start : String) :
    (startOf f m start).IsRight m := by
  intro md hmd
  unfold startOf Failures.guarded Memory.stat at hmd
  cases hstat : f.stat (key start) with
  | some x => simp [hstat, Except.mapError] at hmd
  | none =>
    cases hget : m.get? (key start) with
    | none => simp [hstat, hget, Except.mapError] at hmd
    | some entry =>
      refine ⟨entry, hget, ?_⟩
      simpa [hstat, hget, Except.mapError] using hmd

/-- What a walk from a path has found, and the tree into which it has made the tree `m`. -/
structure Walked (e : Endpoint) (f : Failures) (m : Memory) (start : String) (founds : List Found)
    (m' : Memory) : Prop where
  marked : Marked f m founds m'
  ordered : founds.Pairwise fun a b => Precedes a.path b.path
  reached : ∀ found, found ∈ founds ↔ Reaches e f m' (startOf f m start) found

/-- A walk finds what there is to be reached, once and in order, in the tree that it leaves, and
says what there is to be said of it. -/
theorem run_walkTree (h : w.storage.WellFormed) (ht : w.storage.Textual) (start : String) :
    ∃ founds m' minted, (walkTree e start).run f.backend w =
        (founds.flatMap (visitsOf f m'), ⟨m', minted⟩) ∧
      Walked e f w.storage start founds m' := by
  have hstat : (statNode (CanonicalPath.clean start) : Attempt Bytes Key SyncError _).run.run
      f.backend w = ((startOf f w.storage start).metadata, w) := by
    have hrun : (stat (nativePath (CanonicalPath.clean start)) :
        Attempt Bytes Key IoError _).run.run f.backend w =
          (Failures.guarded (f.stat (key start)) (w.storage.stat (key start)), w) := by
      rw [key, ← keyOf_nativePath]
      rfl
    rw [statNode, about, Attempt.run_withError, hrun]
    rfl
  obtain ⟨m', minted, hrun, hmarked⟩ := walksTo e f (w.storage.longestKey + 2)
    (startOf f w.storage start) w h ht (startOf_isRight f w.storage start)
  have h' := hmarked.wellFormed
  have ht' := hmarked.textual
  refine ⟨_, m', minted, ?_, hmarked, pairwise_foundFrom h' ht' _ _, fun found =>
    ⟨reaches_of_mem, fun hreach => hreach.mem h' ht' ?_⟩⟩
  · rw [walkTree, Program.run_bind, hstat, Program.run_bind]
    exact hrun
  · -- What is reached is the start, or it is there.
    rcases Relation.ReflTransGen.cases_tail hreach with heq | ⟨above, -, hchild⟩
    · rw [heq]
      omega
    · obtain ⟨name, entry, hchild⟩ := (mem_foundIn_iff h' ht').mp hchild
      have hlength := hmarked.length_le (k := keyAt found.path) (by
        rw [hchild.keyAt_eq h' ht', hchild.get?_eq]
        simp)
      omega

end SyncEndpoint.Endpoint
