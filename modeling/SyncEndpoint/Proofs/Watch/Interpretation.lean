import SyncEndpoint.Proofs.Ignore.Levels
import SyncEndpoint.Proofs.Storage.Running
import SyncEndpoint.Proofs.Storage.Tree
import SyncEndpoint.Watch.Interpreter

set_option autoImplicit false

/-! # What a notification comes to

A notification below the root of a watch names its path from there. Where something is at the key of
that path, the event says so under the clean spelling, unless the ignore list hides it. -/

namespace SyncEndpoint

open CanonicalPath (IsSegment ofSegments)
open Storage
open Text.Utf8

/-! ## Events of what is there -/

namespace Watch.Interpreter

open NativePath (ofNames)

/-- The removal of what the list shows is told. -/
theorem removal?_eq_some_iff {t : Interpreter} {now : Timestamp} {canonical : String}
    {event : ChangeEvent} : t.removal? now canonical = some event ↔
      t.ignored.isIgnoredAny canonical = false ∧
        event = (ChangeEvent.removed now canonical).withSource t.source := by
  rw [removal?, Option.ite_none_left_eq_some, Bool.not_eq_true, Option.some.injEq]
  exact and_congr_right' eq_comm

/-- A notification on something that is there comes to an event, or to nothing if the list hides it. -/
theorem run_interpret {t : Interpreter} {now : Timestamp} {raw : RawEvent} {type : ChangeType}
    {ss : List String} (hss : ∀ s ∈ ss, IsSegment s ∧ s ≠ ".")
    (htype : changeOf raw.mask = .seen type)
    (hbelow : NativePath.below? raw.path t.root = some (ofNames (ss.map encode)))
    {w : World Memory} {entry : Entry}
    (hget : w.storage.get? (keyOf (ofNames (ss.map encode))) = some entry) :
    (t.interpret now raw).run.run Memory.backend w =
      (.ok (if t.ignored.isIgnored (ofSegments ss) entry.isDir then none
        else some ((ChangeEvent.present now type (ofSegments ss) entry.metadata.length
          entry.isDir).withSource t.source)), w) := by
  have hstat : (stat (ofNames (ss.map encode)) : Attempt Bytes Key IoError Metadata).run.run
      Memory.backend w = (.ok entry.metadata, w) := by
    have hrun : (stat (ofNames (ss.map encode)) : Attempt Bytes Key IoError Metadata).run.run
        Memory.backend w = (w.storage.stat (keyOf (ofNames (ss.map encode))), w) := rfl
    rw [hrun, Memory.stat, hget]
  simp only [interpret, hbelow, Platform.toCanonical_eq_clean, NativePath.clean_display_ofNames hss,
    htype, confirm]
  rw [Attempt.run_bind, Attempt.run_lift, hstat]
  dsimp only
  rw [Entry.isDir_metadata]
  split <;> rfl

end Watch.Interpreter

end SyncEndpoint
