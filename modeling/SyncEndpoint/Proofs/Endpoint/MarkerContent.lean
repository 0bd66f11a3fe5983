import SyncEndpoint.Proofs.Endpoint.Guards
import SyncEndpoint.Proofs.Endpoint.MarkerRace

set_option autoImplicit false

/-! # What a marker gives back

An identifier is written to the marker of a directory as it is, and read without the blanks at its
ends; what is then empty counts as no identifier at all. So an identifier comes back exactly if it
has no blank at either end (`roundTrips_iff`). Another one comes back without them, and where only
blanks were written, whoever asks for the identifier of the directory next puts a fresh one in their
place. -/

namespace SyncEndpoint

open Text.Utf8

namespace Storage

variable {σ R W β : Type} {backend : Backend σ R W}

/-! ## Calls that only read -/

/-- Opens a file for reading, or reads in it. -/
def Call.Reads : Call R W → Prop
  | .openRead _ | .read _ _ | .bytesLeft _ => True
  | _ => False

theorem reads_foldChunks (f : β → Bytes → β) (n : Nat) (b : β) (reader : R) (w : World σ) :
    ∀ c ∈ (foldChunks f n b reader).run.calls backend w, c.Reads := by
  induction n generalizing b reader w with
  | zero => exact fun c hc => nomatch hc
  | succ n ih =>
    refine Attempt.forall_mem_calls_bind (List.forall_mem_singleton.mpr trivial) ?_
    rintro ⟨bytes, rest⟩ w'
    dsimp only
    split
    · exact fun c hc => nomatch hc
    · exact ih _ _ _

theorem reads_contentOf (path : NativePath) (w : World σ) :
    ∀ c ∈ (contentOf path : Attempt R W IoError Bytes).run.calls backend w, c.Reads := by
  refine Attempt.forall_mem_calls_bind (List.forall_mem_singleton.mpr trivial) fun reader w' => ?_
  refine Attempt.forall_mem_calls_bind ?_ fun n w'' => reads_foldChunks _ _ _ _ _
  exact List.forall_mem_singleton.mpr trivial

end Storage

namespace Identity

open Storage

variable {dir : NativePath} {m : Memory} {w : World Memory} {id : String}

/-- Looking for the identifier of a directory is reading its marker, whatever the storage is. -/
theorem reads_readMarker {σ R W : Type} {backend : Backend σ R W} (dir : NativePath) (w : World σ) :
    ∀ c ∈ (readMarker dir).run.calls backend w, c.Reads := by
  have hcalls : (readMarker dir).run.calls backend w =
      (contentOf (markerPath dir)).run.calls backend w := by
    refine (Program.calls_bind backend (contentOf (markerPath dir)).run _ w).trans ?_
    cases ((contentOf (markerPath dir)).run.run backend w).1 with
    | ok content => exact List.append_nil _
    | error x => exact List.append_nil _
  rw [hcalls]
  exact reads_contentOf _ w

/-- A directory gives an identifier to all who read its marker or ask for its identifier, and
nothing is written for that. -/
structure Gives (dir : NativePath) (w : World Memory) (id : String) : Prop where
  read : (readMarker dir).run.run Memory.backend w = (.ok (some id), w)
  asked : (folderId dir).run.run Memory.backend w = (.ok id, w)
  reads : ∀ c ∈ (folderId dir).run.calls Memory.backend w, c.Reads

theorem Gives.of_read (h : (readMarker dir).run.run Memory.backend w = (.ok (some id), w)) :
    Gives dir w id where
  read := h
  asked := by
    rw [folderId, Attempt.run_bind, h]
    rfl
  reads := by
    have hcalls : (folderId dir).run.calls Memory.backend w =
        (readMarker dir).run.calls Memory.backend w := by
      rw [folderId, Attempt.calls_bind, h]
      exact List.append_nil _
    rw [hcalls]
    exact reads_readMarker dir w

/-! ## Written markers -/

/-- What becomes of an identifier that was written to the marker of a directory: what is left of it
without the blanks at its ends is given, and if nothing is, whoever asks next puts a fresh one in its
place. -/
structure GivesTrimmed (dir : NativePath) (w : World Memory) (id : String) : Prop where
  given : Text.trimBlanks id ≠ "" → Gives dir w (Text.trimBlanks id)
  unread : Text.trimBlanks id = "" → (readMarker dir).run.run Memory.backend w = (.ok none, w)
  replaced : Text.trimBlanks id = "" → ∃ m',
    (folderId dir).run.run Memory.backend w = (.ok (Uuid.ofNat w.minted), ⟨m', w.minted + 1⟩) ∧
      w.storage.Wrote (keyOf (markerPath dir)) (encode (Uuid.ofNat w.minted)) m'

/-- Nothing is in the way of writing the marker of a directory, unless another one is in its place. -/
theorem exists_run_writeMarker (hdir : w.storage.IsDirAt (keyOf dir))
    (hfree : ¬ w.storage.IsDirAt (keyOf (markerPath dir))) (id : String) :
    ∃ m', (writeMarker dir id).run.run Memory.backend w = (.ok (), { w with storage := m' }) ∧
      w.storage.Wrote (keyOf (markerPath dir)) (encode id) m' := by
  rw [← Failures.backend_calm]
  exact Failures.run_putContent (encode id) rfl (keyOf_markerPath dir) hdir hfree

theorem givesTrimmed_of_isFileAt (h : w.storage.IsFileAt (keyOf (markerPath dir)) (encode id)) :
    GivesTrimmed dir w id := by
  have hread := run_readMarker_of_isFileAt h
  rw [identifierOf?_encode] at hread
  refine ⟨fun hne => ?_, fun hblank => ?_, fun hblank => ?_⟩
  · rw [if_neg hne] at hread
    exact .of_read hread
  · rwa [if_pos hblank] at hread
  · rw [if_pos hblank] at hread
    have hdir : w.storage.IsDirAt (keyOf dir) := by
      rw [keyOf_markerPath] at h
      exact h.above _ (List.prefix_append _ _) (by simp)
    obtain ⟨t, hfile⟩ := h.file
    obtain ⟨m', hwrite, hwrote⟩ := exists_run_writeMarker (w := { w with minted := w.minted + 1 })
      hdir (Memory.not_isDirAt_of_file hfile) (Uuid.ofNat w.minted)
    refine ⟨m', ?_, hwrote⟩
    rw [run_folderId_of_none hread, hwrite]
    rfl

/-- This is so whatever calls have been refused before the identifier was written. -/
theorem givesTrimmed_of_written (h : m.WellFormed) {n : Nat}
    (hwritten : (writeMarker dir id).run.Runs (unreliable Memory.backend .all) ⟨m, n⟩ (.ok ()) w) :
    GivesTrimmed dir w id :=
  givesTrimmed_of_isFileAt ((ensures_putContent (w := ⟨m, n⟩) h).of_runs_ok hwritten)

/-- Whenever an identifier was written to the marker of a directory, the directory gives it. -/
def RoundTrips (m : Memory) (dir : NativePath) (id : String) : Prop :=
  ∀ (n : Nat) (w : World Memory),
    (writeMarker dir id).run.Runs (unreliable Memory.backend .all) ⟨m, n⟩ (.ok ()) w →
      Gives dir w id

/-- The marker of a directory can be written, and then it is read as what was written without the
blanks at its ends. So it gives back exactly the identifiers that have none there. -/
theorem roundTrips_iff (h : m.WellFormed) (hdir : m.IsDirAt (keyOf dir))
    (hfree : ¬ m.IsDirAt (keyOf (markerPath dir))) (hne : id ≠ "") :
    (∀ n, ∃ w, (writeMarker dir id).run.run Memory.backend ⟨m, n⟩ = (.ok (), w)) ∧
    (∀ (n : Nat) (w : World Memory),
      (writeMarker dir id).run.Runs (unreliable Memory.backend .all) ⟨m, n⟩ (.ok ()) w →
        GivesTrimmed dir w id) ∧
    (RoundTrips m dir id ↔ Text.Trimmed id) := by
  have hwrites (n : Nat) :
      ∃ w, (writeMarker dir id).run.run Memory.backend ⟨m, n⟩ = (.ok (), w) := by
    obtain ⟨m', hrun, -⟩ := exists_run_writeMarker (w := ⟨m, n⟩) hdir hfree id
    exact ⟨_, hrun⟩
  refine ⟨hwrites, fun n w => givesTrimmed_of_written h, ?_⟩
  rw [← Text.trimBlanks_eq_self_iff]
  constructor
  · intro hall
    obtain ⟨w, hrun⟩ := hwrites 0
    have hruns := Program.runs_run Memory.backend .all (writeMarker dir id).run ⟨m, 0⟩
    rw [hrun] at hruns
    have hread := (hall 0 w hruns).read
    have htrimmed := givesTrimmed_of_written h hruns
    by_cases hblank : Text.trimBlanks id = ""
    · cases hread.symm.trans (htrimmed.unread hblank)
    · have hsame := (htrimmed.given hblank).read.symm.trans hread
      rw [Prod.mk.injEq, Except.ok.injEq, Option.some.injEq] at hsame
      exact hsame.1
  · intro htrim n w hruns
    have hgiven := (givesTrimmed_of_written h hruns).given
    rw [htrim] at hgiven
    exact hgiven hne

section Example

open Endpoint (chain)

/-- An identifier without blanks at its ends comes back. -/
theorem roundTrips_inner :
    (chain [encode "a"]).WellFormed ∧
      (chain [encode "a"]).IsDirAt (keyOf (NativePath.ofString "/a")) ∧
      ¬ (chain [encode "a"]).IsDirAt (keyOf (markerPath (NativePath.ofString "/a"))) ∧
      "x y" ≠ "" ∧ RoundTrips (chain [encode "a"]) (NativePath.ofString "/a") "x y" := by
  have h : (chain [encode "a"]).WellFormed := by decide
  have hdir : (chain [encode "a"]).IsDirAt (keyOf (NativePath.ofString "/a")) := by decide
  have hfree : ¬ (chain [encode "a"]).IsDirAt (keyOf (markerPath (NativePath.ofString "/a"))) := by
    decide
  have hne : "x y" ≠ "" := by decide
  exact ⟨h, hdir, hfree, hne, (roundTrips_iff h hdir hfree hne).2.2.mpr (by decide)⟩

/-- An identifier that begins with a blank comes back without it, and one of blanks only does not
come back: another one is minted. -/
theorem marker_loses_blanks :
    let dir := NativePath.ofString "/a"
    let shortened := (writeMarker dir " x").run.run Memory.backend ⟨chain [encode "a"], 0⟩
    let blank := (writeMarker dir "  ").run.run Memory.backend ⟨chain [encode "a"], 0⟩
    (chain [encode "a"]).WellFormed ∧ (chain [encode "a"]).IsDirAt (keyOf dir) ∧
      ¬ (chain [encode "a"]).IsDirAt (keyOf (markerPath dir)) ∧
      shortened.1 = .ok () ∧
      ((readMarker dir).run.run Memory.backend shortened.2).1 = .ok (some "x") ∧
      blank.1 = .ok () ∧
      ((readMarker dir).run.run Memory.backend blank.2).1 = .ok none ∧
      ((folderId dir).run.run Memory.backend blank.2).1 = .ok (Uuid.ofNat 0) := by
  decide +kernel

end Example

end Identity

end SyncEndpoint
