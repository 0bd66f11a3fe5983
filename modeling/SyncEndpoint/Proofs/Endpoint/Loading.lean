import SyncEndpoint.Proofs.Endpoint.Guards
import SyncEndpoint.Proofs.Endpoint.Identity

set_option autoImplicit false

/-! # Loads

A load looks at a node and then asks for its identity. If it is told whether the node is a leaf it
does without the look: told right, it gives the same node, less what the look would have said of it,
and told wrong, it fails (`loads_agree`). Nothing but the identifier of a directory that had none is
left behind by a load, so that the next one gives the same node again. -/

namespace SyncEndpoint

/-- A node without what a look at it says. -/
def Node.bare (n : Node) : Node :=
  { n with mtime := none, size := none, mode := none }

namespace Endpoint

open CanonicalPath (clean)
open Storage
open Text.Utf8

variable {w : World Memory} {path : String} {entry : Entry}

/-- What comes of loading a node from a storage in memory, and what is left then. -/
abbrev load (path : String) (knownLeaf : Option Bool) (w : World Memory) :
    Except SyncError Node × World Memory :=
  (loadNode path knownLeaf).run.run Memory.backend w

/-! ## With and without a look -/

theorem map_bare_map_withStat {make : String → Node} (hmake : ∀ id, (make id).bare = make id)
    (md : Metadata) (res : Except SyncError String) :
    ((res.map make).map (withStat md)).map Node.bare = res.map make := by
  cases res with
  | ok id => exact congrArg Except.ok (hmake id)
  | error x => rfl

/-- An identity says nothing that a look would say. -/
theorem map_bare_run_identify {σ R W : Type} (backend : Backend σ R W) (path : String)
    (isLeaf : Bool) (md : Metadata) (w : World σ) :
    (((identify path isLeaf).run.run backend w).1.map (withStat md)).map Node.bare =
      ((identify path isLeaf).run.run backend w).1 := by
  cases isLeaf with
  | true =>
    rw [identify, if_pos rfl, Attempt.run_map]
    exact map_bare_map_withStat (fun _ => rfl) md _
  | false =>
    rw [identify, if_neg Bool.false_ne_true, Attempt.run_map]
    exact map_bare_map_withStat (fun _ => rfl) md _

theorem load_known (hget : w.storage.get? (key path) = some entry) :
    load path (some !entry.isDir) w =
      ((load path none w).1.map Node.bare, (load path none w).2) := by
  have hload : load path none w = _ := run_loadNode_of_get? (fun _ _ => rfl) hget
  rw [hload, map_bare_run_identify]
  rfl

/-! ## Failing loads -/

/-- A load fails, and leaves the tree as it was. -/
def LoadFails (path : String) (knownLeaf : Option Bool) (w : World Memory) : Prop :=
  ∃ x minted, load path knownLeaf w = (.error x, ⟨w.storage, minted⟩)

/-- Asking for an identity of another kind than that of the node fails, and so it does where there
is no node. -/
theorem loadFails_of_wrong (h : w.storage.WellFormed) {isLeaf : Bool}
    (hwrong : ∀ entry, w.storage.get? (key path) = some entry → entry.isDir = isLeaf) :
    LoadFails path (some isLeaf) w := by
  rw [LoadFails, load, ← Failures.backend_calm]
  cases isLeaf with
  | true =>
    obtain ⟨x, hread⟩ : ∃ x, w.storage.openRead (key path) = .error x := by
      unfold Memory.openRead
      split
      · next data t hget => cases hwrong _ hget
      · exact ⟨_, rfl⟩
      · exact ⟨_, rfl⟩
    refine ⟨SyncError.ofStorage (clean path) x, w.minted, run_identify_leaf.trans ?_⟩
    rw [identityIn, if_pos rfl, Failures.content, ← key, hread]
    rfl
  | false =>
    refine run_identify_of_not_isDirAt h ?_
    rintro ⟨t, hget⟩
    cases hwrong _ hget

theorem load_missing (hnone : w.storage.get? (key path) = none) :
    load path none w = (.error (.notFound (clean path)), w) := by
  rw [load, loadNode, Attempt.run_bind, run_statNode_of_missing (fun _ _ => rfl) hnone]

theorem loadFails_of_missing (h : w.storage.WellFormed) (hnone : w.storage.get? (key path) = none)
    (knownLeaf : Option Bool) : LoadFails path knownLeaf w := by
  cases knownLeaf with
  | none => exact ⟨_, _, load_missing hnone⟩
  | some isLeaf =>
    refine loadFails_of_wrong h fun entry hget => ?_
    cases hnone.symm.trans hget

/-! ## What is left behind -/

/-- A tree before and after a load: nothing has changed, or else a directory was loaded that had no
identifier, and its marker holds one now. -/
def LeftByLoad (m : Memory) (path : String) (m' : Memory) : Prop :=
  m' = m ∨ m.IsDirAt (key path) ∧ Unidentified m (markerKey (clean path)) ∧
    ∃ data, Identity.identifierOf? data ≠ none ∧ m.Wrote (markerKey (clean path)) data m'

theorem leftByLoad_identify (h : w.storage.WellFormed) (isLeaf : Bool) :
    LeftByLoad w.storage path
      ((identify (clean path) isLeaf).run.run Memory.backend w).2.storage := by
  rw [← Failures.backend_calm]
  cases isLeaf with
  | true =>
    rw [run_identify_leaf]
    exact Or.inl rfl
  | false =>
    by_cases hdir : w.storage.IsDirAt (key path)
    · obtain ⟨m', minted, hrun, heffect⟩ := run_identify_collection (f := .calm) hdir
      rw [hrun]
      rcases heffect with ⟨hlacks, n, hwrote⟩ | ⟨-, rfl⟩
      · refine Or.inr ⟨hdir, (lacks_iff_unidentified rfl rfl).mp hlacks, _, ?_, hwrote⟩
        rw [Uuid.identifierOf?_encode_ofNat]
        exact Option.some_ne_none _
      · exact Or.inl rfl
    · obtain ⟨x, minted, hrun⟩ := run_identify_of_not_isDirAt (f := .calm) h hdir
      rw [hrun]
      exact Or.inl rfl

theorem leftByLoad_load (h : w.storage.WellFormed) (knownLeaf : Option Bool) :
    LeftByLoad w.storage path (load path knownLeaf w).2.storage := by
  cases knownLeaf with
  | some isLeaf => exact leftByLoad_identify h isLeaf
  | none =>
    cases hget : w.storage.get? (key path) with
    | none =>
      rw [load_missing hget]
      exact Or.inl rfl
    | some entry =>
      rw [load, run_loadNode_of_get? (fun _ _ => rfl) hget]
      exact leftByLoad_identify h _

/-! ## Loading once more -/

/-- A file is loaded with its digest, and nothing is changed. -/
theorem load_file {data : Bytes} {t : Timestamp}
    (hget : w.storage.get? (key path) = some (.file data t)) :
    load path none w = (.ok (withStat (Entry.file data t).metadata
      (Node.leaf (clean path) (Digest.hexDigest data))), w) := by
  have hread : identityIn .calm w.storage (clean path) true =
      .ok (Node.leaf (clean path) (Digest.hexDigest data)) := by
    rw [identityIn, if_pos rfl, Failures.content, ← key, Memory.openRead, hget]
    rfl
  rw [load, run_loadNode_of_get? (fun _ _ => rfl) hget, Entry.isDir_file, Bool.not_false,
    ← Failures.backend_calm, run_identify_leaf, hread]
  rfl

/-- A load of a directory leaves an identifier in its marker, or something that is in the way of
one, and gives what can be read there. -/
theorem load_dir {t : Timestamp} (hget : w.storage.get? (key path) = some (.dir t)) :
    ∃ m' minted, load path none w =
        ((identityIn .calm m' (clean path) false).map (withStat (Entry.dir t).metadata),
          ⟨m', minted⟩) ∧
      m'.get? (key path) = some (.dir t) ∧ ¬ Unidentified m' (markerKey (clean path)) := by
  have hload : load path none w = _ := run_loadNode_of_get? (fun _ _ => rfl) hget
  obtain ⟨m', minted, hrun, heffect⟩ := run_identify_collection (f := .calm) ⟨t, hget⟩
  rw [Failures.backend_calm] at hrun
  refine ⟨m', minted, hload.trans ?_, ?_⟩
  · rw [Entry.isDir_dir, Bool.not_true, hrun]
  · rcases heffect with ⟨-, n, hwrote⟩ | ⟨hlacks, rfl⟩
    · obtain ⟨stamp, hfile⟩ := hwrote.file
      refine ⟨?_, not_unidentified_of_file hfile⟩
      rw [hwrote.others _ (key_ne_markerKey path), hget]
    · exact ⟨hget, fun hmissing => hlacks ((lacks_iff_unidentified rfl rfl).mpr hmissing)⟩

/-- A second load changes nothing, and comes to the same as the first. -/
theorem load_again (path : String) (w : World Memory) : ∃ minted,
    load path none (load path none w).2 =
      ((load path none w).1, ⟨(load path none w).2.storage, minted⟩) := by
  cases hget : w.storage.get? (key path) with
  | none =>
    rw [load_missing hget, load_missing hget]
    exact ⟨_, rfl⟩
  | some entry =>
    cases entry with
    | file data t =>
      rw [load_file hget, load_file hget]
      exact ⟨_, rfl⟩
    | dir t =>
      obtain ⟨m', minted, hfirst, hget', hidentified⟩ := load_dir hget
      obtain ⟨minted', hrun⟩ :=
        run_identify_of_identified (w := ⟨m', minted⟩) ⟨t, hget'⟩ hidentified
      refine ⟨minted', ?_⟩
      rw [hfirst]
      refine (run_loadNode_of_get? (w := ⟨m', minted⟩) (fun _ _ => rfl) hget').trans ?_
      rw [Entry.isDir_dir, Bool.not_true, hrun]

/-! ## Loads in agreement -/

/-- Loads of a node from a storage, with and without a look. -/
structure LoadsAgree (path : String) (w : World Memory) : Prop where
  known : ∀ entry, w.storage.get? (key path) = some entry →
    load path (some !entry.isDir) w =
      ((load path none w).1.map Node.bare, (load path none w).2)
  wrong : ∀ entry, w.storage.get? (key path) = some entry → LoadFails path (some entry.isDir) w
  missing : w.storage.get? (key path) = none → ∀ knownLeaf, LoadFails path knownLeaf w
  again : ∃ minted, load path none (load path none w).2 =
    ((load path none w).1, ⟨(load path none w).2.storage, minted⟩)
  left : ∀ knownLeaf, LeftByLoad w.storage path (load path knownLeaf w).2.storage

theorem loads_agree (h : w.storage.WellFormed) (path : String) : LoadsAgree path w where
  known := fun _ hget => load_known hget
  wrong := by
    intro entry hget
    refine loadFails_of_wrong h fun other hother => ?_
    rw [hget, Option.some.injEq] at hother
    rw [hother]
  missing := fun hnone => loadFails_of_missing h hnone
  again := load_again path w
  left := leftByLoad_load h

section Example

/-- A directory without an identifier. -/
theorem loads_agree_unidentified :
    (chain [encode "d"]).WellFormed ∧ LoadsAgree "/d" ⟨chain [encode "d"], 0⟩ := by
  have h : (chain [encode "d"]).WellFormed := by decide
  exact ⟨h, loads_agree (w := ⟨chain [encode "d"], 0⟩) h "/d"⟩

end Example

end Endpoint

end SyncEndpoint
