import SyncEndpoint.Proofs.Watch.Interpretation

set_option autoImplicit false

/-! # The decision table of notifications

What a notification comes to depends on whether its path lies below the root of the watch, on what
its mask asks for, on what one look at the target shows, and on what the ignore list says of the
path. `Row` is the table, with one row for each combination that makes a difference, and `Decided`
says of a notification what the table makes of it. An interpretation ends with what the table says,
on any storage, after one look at the target at most. -/

namespace SyncEndpoint

open Storage

namespace Watch

/-! ## Masks -/

namespace RawMask

variable {m : RawMask}

/-- Something was made or written, whatever else the mask says. -/
def Changes (m : RawMask) : Prop :=
  m.create = true ∨ m.write = true

/-- Something was renamed, and not made or written. -/
def Renames (m : RawMask) : Prop :=
  ¬ m.Changes ∧ m.rename = true

/-- The mask asks for a look at the target. -/
def Looks (m : RawMask) : Prop :=
  m.Changes ∨ m.Renames

/-- Of what is interpreted the mask names a removal only. -/
def Removes (m : RawMask) : Prop :=
  ¬ m.Looks ∧ m.remove = true

instance (m : RawMask) : Decidable m.Changes := inferInstanceAs (Decidable (_ ∨ _))

instance (m : RawMask) : Decidable m.Renames := inferInstanceAs (Decidable (_ ∧ _))

instance (m : RawMask) : Decidable m.Looks := inferInstanceAs (Decidable (_ ∨ _))

theorem of_not_looks (h : ¬ m.Looks) : m.create = false ∧ m.write = false ∧ m.rename = false := by
  rw [Looks, not_or, Renames, not_and, Bool.not_eq_true] at h
  obtain ⟨hchanges, hrename⟩ := h
  have hnone := hchanges
  rw [Changes, not_or, Bool.not_eq_true, Bool.not_eq_true] at hnone
  exact ⟨hnone.1, hnone.2, hrename hchanges⟩

end RawMask

namespace Interpreter

variable {m : RawMask}

theorem changeOf_of_changes (h : m.Changes) :
    changeOf m = .seen (if m.create then .create else .write) := by
  unfold changeOf
  cases hcreate : m.create with
  | true => simp
  | false =>
    have hwrite : m.write = true := h.resolve_left (by simp [hcreate])
    simp [hwrite]

theorem changeOf_of_renames (h : m.Renames) : changeOf m = .seen .rename := by
  obtain ⟨hchanges, hrename⟩ := h
  rw [RawMask.Changes, not_or, Bool.not_eq_true, Bool.not_eq_true] at hchanges
  simp [changeOf, hchanges.1, hchanges.2, hrename]

theorem exists_changeOf_of_looks (h : m.Looks) : ∃ type, changeOf m = .seen type :=
  h.elim (fun hchanges => ⟨_, changeOf_of_changes hchanges⟩)
    fun hrenames => ⟨_, changeOf_of_renames hrenames⟩

theorem changeOf_of_not_looks (h : ¬ m.Looks) :
    changeOf m = if m.remove then .removed else .nothing := by
  obtain ⟨hcreate, hwrite, hrename⟩ := RawMask.of_not_looks h
  simp [changeOf, hcreate, hwrite, hrename]

/-! ## The table -/

/-- What a notification comes to. -/
abbrev Outcome : Type :=
  Except SyncError (Option ChangeEvent)

variable {t : Interpreter} {now : Timestamp} {mask : RawMask} {canonical : String}
  {look : Except IoError Metadata}

/-- A path is hidden neither as a file nor as a directory. -/
def Shown (t : Interpreter) (canonical : String) : Prop :=
  ∀ isDir, t.ignored.isIgnored canonical isDir = false

/-- The table for a path below the root: what comes of a mask and of what a look at the target
shows. -/
inductive Row (t : Interpreter) (now : Timestamp) (mask : RawMask) (canonical : String)
    (look : Except IoError Metadata) : Outcome → Prop
  | changed {md : Metadata} (asked : mask.Changes) (seen : look = .ok md)
      (shown : t.ignored.isIgnored canonical md.isDir = false) :
      Row t now mask canonical look (.ok (some
        { time := now, path := canonical
          changeType := if mask.create then .create else .write
          size := some md.length, isFolder := some md.isDir, source := some t.source }))
  | renamed {md : Metadata} (asked : mask.Renames) (seen : look = .ok md)
      (shown : t.ignored.isIgnored canonical md.isDir = false) :
      Row t now mask canonical look (.ok (some
        { time := now, path := canonical, changeType := .rename
          size := some md.length, isFolder := some md.isDir, source := some t.source }))
  /-- What is there is hidden as what it is. -/
  | hidden {md : Metadata} (asked : mask.Looks) (seen : look = .ok md)
      (hidden : t.ignored.isIgnored canonical md.isDir = true) :
      Row t now mask canonical look (.ok none)
  /-- What was made is gone again. -/
  | vanished {x : IoError} (asked : mask.Changes) (failed : look = .error x)
      (missing : x.kind = .notFound) : Row t now mask canonical look (.ok none)
  | removed (asked : mask.Removes ∨ mask.Renames ∧ ∃ x, look = .error x ∧ x.kind = .notFound)
      (shown : t.Shown canonical) :
      Row t now mask canonical look (.ok (some
        { time := now, path := canonical, changeType := .remove
          size := none, isFolder := none, source := some t.source }))
  | removedHidden
      (asked : mask.Removes ∨ mask.Renames ∧ ∃ x, look = .error x ∧ x.kind = .notFound)
      (hidden : ¬ t.Shown canonical) : Row t now mask canonical look (.ok none)
  | failed {x : IoError} (asked : mask.Looks) (failed : look = .error x)
      (other : x.kind ≠ .notFound) (shown : t.Shown canonical) :
      Row t now mask canonical look (.error (.storage canonical x))
  | failedHidden {x : IoError} (asked : mask.Looks) (failed : look = .error x)
      (other : x.kind ≠ .notFound) (hidden : ¬ t.Shown canonical) :
      Row t now mask canonical look (.ok none)
  | nothing (asked : ¬ mask.Looks ∧ ¬ mask.remove) : Row t now mask canonical look (.ok none)

theorem shown_iff : t.Shown canonical ↔ t.ignored.isIgnoredAny canonical = false := by
  rw [Shown, Bool.forall_bool, IgnoreList.isIgnoredAny, Bool.or_eq_false_iff]

/-- There is a row for whatever is asked and seen. -/
theorem exists_row (t : Interpreter) (now : Timestamp) (mask : RawMask) (canonical : String)
    (look : Except IoError Metadata) : ∃ outcome, Row t now mask canonical look outcome := by
  by_cases hlooks : mask.Looks
  · cases hlook : look with
    | ok md =>
      by_cases hhidden : t.ignored.isIgnored canonical md.isDir = true
      · exact ⟨_, .hidden hlooks rfl hhidden⟩
      · rw [Bool.not_eq_true] at hhidden
        rcases hlooks with hchanges | hrenames
        · exact ⟨_, .changed hchanges rfl hhidden⟩
        · exact ⟨_, .renamed hrenames rfl hhidden⟩
    | error x =>
      by_cases hmissing : x.kind = .notFound
      · rcases hlooks with hchanges | hrenames
        · exact ⟨_, .vanished hchanges rfl hmissing⟩
        · have hasked : mask.Removes ∨ mask.Renames ∧
              ∃ y, (.error x : Except IoError Metadata) = .error y ∧ y.kind = .notFound :=
            Or.inr ⟨hrenames, x, rfl, hmissing⟩
          by_cases hshown : t.Shown canonical
          · exact ⟨_, .removed hasked hshown⟩
          · exact ⟨_, .removedHidden hasked hshown⟩
      · by_cases hshown : t.Shown canonical
        · exact ⟨_, .failed hlooks rfl hmissing hshown⟩
        · exact ⟨_, .failedHidden hlooks rfl hmissing hshown⟩
  · by_cases hremove : mask.remove = true
    · by_cases hshown : t.Shown canonical
      · exact ⟨_, .removed (Or.inl ⟨hlooks, hremove⟩) hshown⟩
      · exact ⟨_, .removedHidden (Or.inl ⟨hlooks, hremove⟩) hshown⟩
    · exact ⟨_, .nothing ⟨hlooks, hremove⟩⟩

/-- What the table makes of a notification, with the looks that a storage would give. -/
inductive Decided (t : Interpreter) (now : Timestamp) (raw : RawEvent)
    (look : NativePath → Except IoError Metadata) : Outcome → Prop
  | outside (h : ¬ NativePath.components t.root <+: NativePath.components raw.path) :
      Decided t now raw look (.ok none)
  | below {below : NativePath} {outcome : Outcome} (h : raw.path.LiesBelow t.root below)
      (row : Row t now raw.mask (Platform.native.toCanonical (NativePath.display below))
        (look below) outcome) : Decided t now raw look outcome

/-! ## Interpretations -/

section Runs

variable {σ R W : Type} {backend : Backend σ R W} {w : World σ} {type : ChangeType}
  {below : NativePath}

theorem run_stat : ((stat below : Attempt R W IoError Metadata).run.run backend w).1 =
    (backend (.stat below) w.storage).1 := rfl

/-- What comes of a look at the target. -/
theorem run_confirm : ((t.confirm now type below canonical).run.run backend w).1 =
    match (backend (.stat below) w.storage).1 with
    | .ok md =>
      if t.ignored.isIgnored canonical md.isDir then .ok none
      else .ok (some ((ChangeEvent.present now type canonical md.length md.isDir).withSource
        t.source))
    | .error x =>
      if x.kind = .notFound then
        .ok (if type = .rename then t.removal? now canonical else none)
      else if t.ignored.isIgnoredAny canonical then .ok none
      else .error (.storage canonical x) := by
  rw [confirm, Attempt.run_bind, Attempt.run_lift, run_stat]
  cases (backend (.stat below) w.storage).1 with
  | ok md =>
    dsimp only
    split <;> rfl
  | error x =>
    dsimp only
    split
    · rfl
    · next hother =>
      rw [SyncError.ofStorage, if_neg hother]
      split <;> rfl

theorem calls_confirm :
    (t.confirm now type below canonical).run.calls backend w = [.stat below] := by
  rw [confirm, Attempt.calls_lift_bind]
  refine congrArg (List.cons _) ?_
  cases ((stat below : Attempt R W IoError Metadata).run.run backend w).1 with
  | ok md =>
    dsimp only
    split <;> rfl
  | error x =>
    dsimp only
    split
    · rfl
    · split <;> rfl

variable {raw : RawEvent} {outcome : Outcome}

theorem removal?_of_shown (h : t.Shown canonical) : t.removal? now canonical =
    some ((ChangeEvent.removed now canonical).withSource t.source) :=
  removal?_eq_some_iff.mpr ⟨shown_iff.mp h, rfl⟩

theorem removal?_of_not_shown (h : ¬ t.Shown canonical) : t.removal? now canonical = none := by
  rw [shown_iff, Bool.not_eq_false] at h
  rw [removal?, if_pos h]

/-- The interpretation of a notification below the root, by what its mask asks for. -/
theorem run_interpret_below (h : raw.path.LiesBelow t.root below) :
    ((t.interpret now raw).run.run backend w).1 =
      match changeOf raw.mask with
      | .seen type => ((t.confirm now type below
          (Platform.native.toCanonical (NativePath.display below))).run.run backend w).1
      | .removed =>
        .ok (t.removal? now (Platform.native.toCanonical (NativePath.display below)))
      | .nothing => .ok none := by
  rw [interpret, NativePath.below?_eq_some_iff.mpr h]
  cases changeOf raw.mask <;> rfl

theorem Row.run_eq (h : raw.path.LiesBelow t.root below)
    (row : Row t now raw.mask (Platform.native.toCanonical (NativePath.display below))
      (backend (.stat below) w.storage).1 outcome) :
    ((t.interpret now raw).run.run backend w).1 = outcome := by
  rw [run_interpret_below h]
  cases row with
  | changed asked seen shown =>
    rw [changeOf_of_changes asked]
    simp only [run_confirm, seen, shown]
    rfl
  | renamed asked seen shown =>
    rw [changeOf_of_renames asked]
    simp only [run_confirm, seen, shown]
    rfl
  | hidden asked seen hidden =>
    obtain ⟨type, htype⟩ := exists_changeOf_of_looks asked
    simp only [htype, run_confirm, seen, hidden, if_true]
  | vanished asked failed missing =>
    have htype : (if raw.mask.create then ChangeType.create else .write) ≠ .rename := by
      split <;> simp
    rw [changeOf_of_changes asked]
    simp only [run_confirm, failed, missing, if_true, if_neg htype]
  | removed asked shown =>
    rcases asked with hremoves | ⟨hrenames, x, failed, missing⟩
    · rw [changeOf_of_not_looks hremoves.1, if_pos hremoves.2]
      exact congrArg Except.ok (removal?_of_shown shown)
    · rw [changeOf_of_renames hrenames]
      simp only [run_confirm, failed, missing, if_true, removal?_of_shown shown]
      rfl
  | removedHidden asked hidden =>
    rcases asked with hremoves | ⟨hrenames, x, failed, missing⟩
    · rw [changeOf_of_not_looks hremoves.1, if_pos hremoves.2]
      exact congrArg Except.ok (removal?_of_not_shown hidden)
    · rw [changeOf_of_renames hrenames]
      simp only [run_confirm, failed, missing, if_true, removal?_of_not_shown hidden]
  | failed asked failed other shown =>
    obtain ⟨type, htype⟩ := exists_changeOf_of_looks asked
    rw [shown_iff] at shown
    simp only [htype, run_confirm, failed, if_neg other, shown]
    rfl
  | failedHidden asked failed other hidden =>
    obtain ⟨type, htype⟩ := exists_changeOf_of_looks asked
    rw [shown_iff, Bool.not_eq_false] at hidden
    simp only [htype, run_confirm, failed, if_neg other, hidden, if_true]
  | nothing asked => rw [changeOf_of_not_looks asked.1, if_neg asked.2]

/-- The interpretation ends with what the table says, and the table says nothing else. -/
theorem run_interpret_eq_iff : ((t.interpret now raw).run.run backend w).1 = outcome ↔
    Decided t now raw (fun below => (backend (.stat below) w.storage).1) outcome := by
  constructor
  · rintro rfl
    cases hbelow : NativePath.below? raw.path t.root with
    | none =>
      have hoffside : ((t.interpret now raw).run.run backend w).1 = .ok none := by
        rw [interpret, hbelow]
        rfl
      rw [hoffside]
      exact .outside (NativePath.below?_eq_none_iff.mp hbelow)
    | some below =>
      rw [NativePath.below?_eq_some_iff] at hbelow
      obtain ⟨outcome, row⟩ := exists_row t now raw.mask
        (Platform.native.toCanonical (NativePath.display below))
        (backend (.stat below) w.storage).1
      rw [row.run_eq hbelow]
      exact .below hbelow row
  · intro hdecided
    cases hdecided with
    | outside houtside =>
      rw [interpret, NativePath.below?_eq_none_iff.mpr houtside]
      rfl
    | below hbelow row => exact row.run_eq hbelow

/-- The calls of an interpretation: a look at the target, if the mask asks for it. -/
theorem calls_interpret : (t.interpret now raw).run.calls backend w =
    if raw.mask.Looks then
      (NativePath.below? raw.path t.root).toList.map fun below => .stat below
    else [] := by
  cases hbelow : NativePath.below? raw.path t.root with
  | none =>
    rw [interpret, hbelow, Option.toList_none, List.map_nil, ite_self]
    rfl
  | some below =>
    rw [interpret, hbelow]
    by_cases hlooks : raw.mask.Looks
    · obtain ⟨type, htype⟩ := exists_changeOf_of_looks hlooks
      simp only [htype, calls_confirm, if_pos hlooks]
      rfl
    · rw [if_neg hlooks, changeOf_of_not_looks hlooks]
      cases raw.mask.remove <;> rfl

end Runs

/-! ## What the table says of events and errors -/

section Table

variable {raw : RawEvent} {look : NativePath → Except IoError Metadata}

/-- An event on something that is there tells what the look at it showed; one on a removal says
neither how large it was nor whether it was a directory. -/
def TellsLook (t : Interpreter) (raw : RawEvent) (look : NativePath → Except IoError Metadata)
    (event : ChangeEvent) : Prop :=
  (event.changeType = .remove ↔ event.size = none ∧ event.isFolder = none) ∧
    (event.changeType ≠ .remove → ∃ below md, raw.path.LiesBelow t.root below ∧
      look below = .ok md ∧ event.size = some md.length ∧ event.isFolder = some md.isDir)

theorem Decided.tellsLook {event : ChangeEvent} (h : Decided t now raw look (.ok (some event))) :
    TellsLook t raw look event := by
  cases h with
  | below hbelow row =>
    cases row with
    | changed asked seen shown =>
      refine ⟨?_, fun _ => ⟨_, _, hbelow, seen, rfl, rfl⟩⟩
      dsimp only
      split <;> simp
    | renamed asked seen shown => exact ⟨by simp, fun _ => ⟨_, _, hbelow, seen, rfl, rfl⟩⟩
    | removed asked shown => exact ⟨by simp, fun hno => absurd rfl hno⟩

theorem decided_error_iff {e : SyncError} : Decided t now raw look (.error e) ↔
    ∃ below x, raw.path.LiesBelow t.root below ∧ raw.mask.Looks ∧ look below = .error x ∧
      x.kind ≠ .notFound ∧
      t.Shown (Platform.native.toCanonical (NativePath.display below)) ∧
      e = .storage (Platform.native.toCanonical (NativePath.display below)) x := by
  constructor
  · rintro (_ | ⟨hbelow, row⟩)
    cases row with
    | failed asked failed other shown => exact ⟨_, _, hbelow, asked, failed, other, shown, rfl⟩
  · rintro ⟨below, x, hbelow, asked, failed, other, shown, rfl⟩
    exact .below hbelow (.failed asked failed other shown)

end Table

/-! ## Interpretations and the table -/

/-- An interpretation does with a notification what the table says. -/
structure FollowsTable {R W : Type} (t : Interpreter) (now : Timestamp) (raw : RawEvent)
    (look : NativePath → Except IoError Metadata) (outcome : Outcome) (calls : List (Call R W)) :
    Prop where
  decided : ∀ outcome', outcome = outcome' ↔ Decided t now raw look outcome'
  looks : ∀ below, raw.path.LiesBelow t.root below → raw.mask.Looks → calls = [.stat below]
  /-- Without need nothing is asked of the storage. -/
  still : ¬ raw.mask.Looks ∨ ¬ NativePath.components t.root <+: NativePath.components raw.path →
    calls = []
  tells : ∀ event, outcome = .ok (some event) → TellsLook t raw look event
  fails : ∀ e, outcome = .error e ↔ ∃ below x, raw.path.LiesBelow t.root below ∧ raw.mask.Looks ∧
    look below = .error x ∧ x.kind ≠ .notFound ∧
    t.Shown (Platform.native.toCanonical (NativePath.display below)) ∧
    e = .storage (Platform.native.toCanonical (NativePath.display below)) x

/-- On every storage, whatever looks show there, every notification is interpreted as the table
says. -/
theorem interpret_follows_table {σ R W : Type} (backend : Backend σ R W) (t : Interpreter)
    (now : Timestamp) (raw : RawEvent) (w : World σ) :
    FollowsTable t now raw (fun below => (backend (.stat below) w.storage).1)
      ((t.interpret now raw).run.run backend w).1 ((t.interpret now raw).run.calls backend w) where
  decided := fun _ => run_interpret_eq_iff
  looks := by
    intro below hbelow hlooks
    rw [calls_interpret, if_pos hlooks, NativePath.below?_eq_some_iff.mpr hbelow]
    rfl
  still := by
    rintro (hlooks | houtside)
    · rw [calls_interpret, if_neg hlooks]
    · rw [calls_interpret, NativePath.below?_eq_none_iff.mpr houtside, Option.toList_none,
        List.map_nil, ite_self]
  tells := fun _ hevent => (run_interpret_eq_iff.mp hevent).tellsLook
  fails := fun _ => run_interpret_eq_iff.trans decided_error_iff

end Interpreter

end Watch

end SyncEndpoint
