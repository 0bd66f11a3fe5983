import SyncEndpoint.Identity.Marker
import SyncEndpoint.Proofs.Identity.DigestTree
import SyncEndpoint.Proofs.Storage.Reading

set_option autoImplicit false

/-! # Digests of files

The digest of a file is that of its content, whatever the pieces are in which the storage gives it: cut
anywhere, also within the blocks, the chunks and the subtrees that the digest is made of. If a read
fails, the digest is not given, but the error of the read (`contentHash_of_pieces`). -/

namespace SyncEndpoint.Identity

open Storage
open Text.Utf8

variable {σ R W : Type} {backend : Backend σ R W} {path : NativePath} {s t : σ} {pieces : List Bytes}
  {last : Except IoError Unit}

theorem foldl_update (h : Digest.Hasher) (pieces : List Bytes) :
    pieces.foldl Digest.Hasher.update h = h.update pieces.flatten :=
  foldl_eq_flatten (fun _ => rfl) Digest.Hasher.update_append h pieces

/-- What comes of asking for the digest of a file that gives some pieces. -/
def digestOf (pieces : List Bytes) (last : Except IoError Unit) : Except IoError String :=
  last.map fun _ => Text.Hex.encode (Digest.treeDigest pieces.flatten)

theorem run_contentHash (h : DeliversFile backend path s pieces last t) (minted : Nat) :
    (contentHash path).run.run backend ⟨s, minted⟩ = (digestOf pieces last, ⟨t, minted⟩) := by
  obtain ⟨reader, left, s₁, s₂, hopen, hleft, hle, hdelivers⟩ := h
  rw [contentHash, Attempt.run_bind, run_openRead, hopen]
  dsimp only
  rw [Attempt.run_bind, hdelivers.run_foldReader hleft hle, foldl_update]
  cases last with
  | error e => rfl
  | ok u =>
    rw [digestOf, ← Digest.digest_eq_treeDigest]
    rfl

/-! ## Any pieces -/

/-- A storage with a file at every path, which it gives in the pieces `pieces`, and ends with `last`.
It can do nothing else. -/
def scripted (pieces : List Bytes) (last : Except IoError Unit) : Backend Unit (List Bytes) Unit
  | .openRead _, s => (.ok pieces, s)
  | .read [] _, s => (last.map fun _ => ([], []), s)
  | .read (piece :: rest) _, s => (.ok (piece, rest), s)
  | .bytesLeft rest, s => (rest.flatten.length, s)
  | .depthBound, s => (0, s)
  | .write writer _, s => ((.error readOnly, writer), s)
  | .stat _, s | .create _, s | .openWrite _, s | .createDirAll _, s | .removeAll _, s
  | .rename _ _, s | .readDir _, s | .flush _, s | .shutdown _, s => (.error readOnly, s)
where
  readOnly : IoError := ⟨.permissionDenied, "read only"⟩

theorem delivers_scripted (all : List Bytes) (last : Except IoError Unit) (s : Unit)
    (h : ∀ piece ∈ pieces, piece ≠ []) :
    Delivers (scripted all last) pieces s pieces last s := by
  induction pieces with
  | nil =>
    cases last with
    | ok u => exact .finished rfl
    | error e => exact .failed rfl
  | cons piece pieces ih =>
    rw [List.forall_mem_cons] at h
    exact .piece h.1 rfl (ih h.2)

theorem deliversFile_scripted (path : NativePath) (last : Except IoError Unit) (s : Unit)
    (h : ∀ piece ∈ pieces, piece ≠ []) :
    DeliversFile (scripted pieces last) path s pieces last s :=
  ⟨pieces, _, _, _, rfl, rfl, Nat.le_refl _, delivers_scripted pieces last s h⟩

/-- The digest of a file is that of its content, in whatever pieces a storage gives it, and a read that
fails gives its error; for any pieces there is a storage that gives a file in them. -/
theorem contentHash_of_pieces :
    (∀ {σ R W : Type} (backend : Backend σ R W) (path : NativePath) (s t : σ) (minted : Nat)
        (pieces : List Bytes) (last : Except IoError Unit),
      DeliversFile backend path s pieces last t →
      (contentHash path).run.run backend ⟨s, minted⟩ = (digestOf pieces last, ⟨t, minted⟩)) ∧
    ∀ (pieces : List Bytes) (last : Except IoError Unit) (path : NativePath) (w : World Unit),
      (∀ piece ∈ pieces, piece ≠ [] ∧ piece.length ≤ chunkSize) →
      (contentHash path).run.run (scripted pieces last) w = (digestOf pieces last, w) := by
  refine ⟨fun _ _ _ _ minted _ _ h => run_contentHash h minted, ?_⟩
  intro pieces last path w hpieces
  have hnonempty : ∀ piece ∈ pieces, piece ≠ [] := fun piece hmem => (hpieces piece hmem).1
  exact run_contentHash (deliversFile_scripted path last w.storage hnonempty) w.minted

/-- A content that is given in two pieces, and one of which the second read fails. -/
theorem contentHash_of_pieces_interrupted :
    DeliversFile (scripted [encode "a", encode "bc"] (.ok ())) (encode "/f") ()
      [encode "a", encode "bc"] (.ok ()) () ∧
    (contentHash (encode "/f")).run.run (scripted [encode "a", encode "bc"] (.ok ())) ⟨(), 0⟩ =
      (.ok "6437b3ac38465133ffb63b75273a8db548c558465d79db03fd359c6cd5bd9d85", ⟨(), 0⟩) ∧
    (∀ piece ∈ [encode "a"], piece ≠ [] ∧ piece.length ≤ chunkSize) ∧
    (contentHash (encode "/f")).run.run (scripted [encode "a"] (.error scripted.readOnly)) ⟨(), 0⟩ =
      (.error scripted.readOnly, ⟨(), 0⟩) := by
  have hdelivers : DeliversFile (scripted [encode "a", encode "bc"] (.ok ())) (encode "/f") ()
      [encode "a", encode "bc"] (.ok ()) () :=
    deliversFile_scripted (encode "/f") (.ok ()) () (by decide)
  have hdigest : Text.Hex.encode (Digest.treeDigest [encode "a", encode "bc"].flatten) =
      "6437b3ac38465133ffb63b75273a8db548c558465d79db03fd359c6cd5bd9d85" := by
    rw [← Digest.digest_eq_treeDigest]
    decide +kernel
  have hpieces : ∀ piece ∈ [encode "a"], piece ≠ [] ∧ piece.length ≤ chunkSize := by
    decide
  refine ⟨hdelivers, ?_, hpieces,
    contentHash_of_pieces.2 [encode "a"] (.error scripted.readOnly) (encode "/f") ⟨(), 0⟩ hpieces⟩
  rw [contentHash_of_pieces.1 _ _ _ _ 0 _ _ hdelivers, digestOf, hdigest]
  rfl

end SyncEndpoint.Identity
