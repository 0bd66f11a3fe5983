import SyncEndpoint.Proofs.Endpoint.InterruptedMint

set_option autoImplicit false

/-! # The identifiers of collections that are made

A collection that is made where nothing was gets its marker with the identifier that was asked for.
One that is there stays as it is, and so keeps the identifier that its marker holds; but if the marker
holds none, the one that was asked for is not written either, and the next load mints another one. -/

namespace SyncEndpoint

open Text.Utf8

namespace Endpoint

open CanonicalPath (clean)
open Identity (held? held?_of_file identifierOf?_encode_of_trimmed)
open Storage

variable {m : Memory} {w : World Memory} {path id : String}

/-- A collection that is there is left alone. -/
theorem run_createNode_of_isDirAt (hdir : w.storage.IsDirAt (key path)) :
    (createNode (.collection path id)).run.run Memory.backend w = (.ok (), w) := by
  obtain ⟨t, hget⟩ := hdir
  have hleaf : ¬ (Node.collection path id).isLeaf = true := Bool.false_ne_true
  have hlooked : (statNode (clean (Node.collection path id).path) :
      Attempt Bytes Key SyncError Metadata).run.run Memory.backend w = (.ok (Entry.dir t).metadata, w) :=
    run_statNode (fun _ _ => rfl) hget
  unfold createNode
  rw [if_neg hleaf, Attempt.run_bind, Attempt.run_lift, hlooked]
  dsimp only
  rw [Entry.isDir_metadata, if_pos (Entry.isDir_dir t), Attempt.run_pure]

/-- A collection is made with its marker, which holds the identifier that was asked for. -/
theorem ensures_createNode (h : w.storage.WellFormed) (hdir : ¬ w.storage.IsDirAt (key path))
    (hne : id ≠ "") (htrim : Text.trimBlanks id = id) :
    Ensures (unreliable Memory.backend .none) w (createNode (.collection path id))
      (fun _ w' => w'.storage.IsDirAt (key path) ∧
        held? w'.storage (markerKey (clean path)) = some id)
      fun _ _ => True := by
  have hleaf : ¬ (Node.collection path id).isLeaf = true := Bool.false_ne_true
  unfold createNode
  rw [if_neg hleaf, Ensures.bind_iff, Ensures.lift_run_iff, statNode, ensures_about_iff]
  refine ensures_stat (fun entry hget => ?_) (fun _ => ?_)
    fun hpossible => absurd hpossible Refusal.not_possible_none
  · -- A file is in the way.
    have hfile : ¬ entry.metadata.isDir = true := by
      cases entry with
      | file data t => exact Bool.false_ne_true
      | dir t => exact absurd ⟨t, hget⟩ hdir
    dsimp only
    rw [if_neg hfile, Ensures.throw_iff]
    trivial
  · have hid : ¬ (Node.collection path id).identifier.isEmpty = true := by
      rw [String.isEmpty_iff]
      exact hne
    dsimp only
    rw [SyncError.ofStorage, Memory.notFound, if_pos rfl, SyncError.isNotFound, if_pos rfl,
      Ensures.bind_iff, ensures_about_iff]
    refine ensures_createDirAll h (fun m' hm' _ _ => ?_) fun _ _ _ _ _ => trivial
    rw [if_neg hid, ensures_about_iff]
    refine (ensures_putContent hm').mono (fun _ w' hfile => ?_) fun _ _ _ => trivial
    rw [keyOf_markerPath_nativePath] at hfile
    refine ⟨hfile.above _ (keyAt_prefix_markerKey _) (key_ne_markerKey path), ?_⟩
    obtain ⟨t, hget⟩ := hfile.file
    exact (held?_of_file hget).trans (identifierOf?_encode_of_trimmed hne htrim)

/-- Only in a directory is a marker. -/
theorem held?_eq_none_of_not_isDirAt (h : m.WellFormed) (hdir : ¬ m.IsDirAt (key path)) :
    held? m (markerKey (clean path)) = none := by
  have hnone : m.get? (markerKey (clean path)) = none := by
    by_contra hget
    exact hdir (h.parent _ _ hget)
  rw [held?, hnone]

/-- The next load after a collection was made gives the identifier that its marker held, and the one
that was asked for if it held none. -/
def Identifies (make : Node → Attempt Bytes Key SyncError Unit) (m : Memory) (path id : String) :
    Prop :=
  ∀ (n : Nat) (w : World Memory),
    (make (.collection path id)).run.run Memory.backend ⟨m, n⟩ = (.ok (), w) →
    ∃ node w', (loadNode path none).run.run Memory.backend w = (.ok node, w') ∧
      node.identifier = (held? m (markerKey (clean path))).getD id

/-- Whatever will be minted, making a collection gives it its identifier exactly if no directory is
there without one. -/
theorem identifies_iff {make : Node → Attempt Bytes Key SyncError Unit}
    (hmake : make = createNode ∨ make = updateNode) (h : m.WellFormed) (hne : id ≠ "")
    (htrim : Text.trimBlanks id = id) :
    Identifies make m path id ↔
      (m.IsDirAt (key path) → (held? m (markerKey (clean path))).isSome) := by
  obtain rfl : make = createNode := by
    rcases hmake with rfl | rfl
    · rfl
    · rfl
  constructor
  · intro hall hdir
    by_contra hheld
    rw [Bool.not_eq_true, Option.isSome_eq_false_iff, Option.isNone_iff_eq_none] at hheld
    -- The load mints, and it mints something else another time.
    have hminted : ∀ n, id = Uuid.ofNat n := by
      intro n
      obtain ⟨node, w', hload, hid⟩ := hall n ⟨m, n⟩ (run_createNode_of_isDirAt hdir)
      have hruns := Program.runs_run_of_answers (stopping_backend fun _ => True)
        (loadNode path none).run ⟨m, n⟩
      rw [hload] at hruns
      rw [hheld, Option.getD_none] at hid
      have hdir' : (⟨m, n⟩ : World Memory).storage.IsDirAt (key path) := hdir
      rcases (ensures_loadNode_stopping hdir').of_runs_ok hruns with ⟨-, hsome⟩ | ⟨hfresh, -⟩
      · rw [hheld] at hsome
        cases hsome
      · exact hid.symm.trans hfresh
    exact absurd ((hminted 0).symm.trans (hminted 1)) (by decide)
  · intro hheld n w hmade
    by_cases hdir : m.IsDirAt (key path)
    · rw [run_createNode_of_isDirAt hdir] at hmade
      cases hmade
      obtain ⟨found, hfound⟩ := Option.isSome_iff_exists.mp (hheld hdir)
      obtain ⟨node, minted, hload, hid⟩ := run_loadNode_of_held (w := ⟨m, n⟩) hdir hfound
      exact ⟨node, _, hload, by rw [hid, hfound, Option.getD_some]⟩
    · have hruns := Program.runs_run Memory.backend .none (createNode (.collection path id)).run ⟨m, n⟩
      rw [hmade] at hruns
      obtain ⟨hmadeDir, hwritten⟩ :=
        (ensures_createNode (w := ⟨m, n⟩) h hdir hne htrim).of_runs_ok hruns
      obtain ⟨node, minted, hload, hid⟩ := run_loadNode_of_held hmadeDir hwritten
      exact ⟨node, _, hload, by rw [hid, held?_eq_none_of_not_isDirAt h hdir, Option.getD_none]⟩

section Example

theorem markerKey_a : markerKey (clean "/a") = [encode "a", encode markerName] := by
  rw [markerKey, ← key, key_a]
  rfl

/-- A collection that is made where nothing is. -/
theorem identifies_missing :
    (chain []).WellFormed ∧ ¬ (chain []).IsDirAt (key "/a") ∧
      Identifies createNode (chain []) "/a" "x" := by
  have h : (chain []).WellFormed := by decide
  have hdir : ¬ (chain []).IsDirAt (key "/a") := by
    rw [key_a]
    rintro ⟨t, hget⟩
    cases hget
  have hne : "x" ≠ "" := by decide
  exact ⟨h, hdir, (identifies_iff (Or.inl rfl) h hne rfl).mpr fun hthere => absurd hthere hdir⟩

/-- A collection that is made where a directory without a marker is. -/
theorem created_identified_afresh :
    let made := (createNode (.collection "/a" "x")).run.run Memory.backend ⟨chain [encode "a"], 0⟩
    let loaded := (loadNode "/a" none).run.run Memory.backend made.2
    (chain [encode "a"]).WellFormed ∧
      held? (chain [encode "a"]) (markerKey (clean "/a")) = none ∧ made.1 = .ok () ∧
      ∃ node, loaded.1 = .ok node ∧ node.identifier ≠ "x" := by
  intro made loaded
  have hdir : (chain [encode "a"]).IsDirAt (key "/a") := by
    rw [key_a]
    exact isDirAt_chain _
  have hmade : made = (.ok (), ⟨chain [encode "a"], 0⟩) := run_createNode_of_isDirAt hdir
  have hheld : held? (chain [encode "a"]) (markerKey (clean "/a")) = none := by
    rw [markerKey_a]
    rfl
  have hid : loaded.1.toOption.map Node.identifier = some (Uuid.ofNat 0) := by
    decide +kernel
  refine ⟨by decide, hheld, by rw [hmade], ?_⟩
  cases hres : loaded.1 with
  | error x =>
    rw [hres] at hid
    cases hid
  | ok node =>
    rw [hres] at hid
    have hfresh : node.identifier = Uuid.ofNat 0 := Option.some.inj hid
    exact ⟨node, rfl, fun hx => absurd (hx.symm.trans hfresh) (by decide)⟩

end Example

end Endpoint

end SyncEndpoint
