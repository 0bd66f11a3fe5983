import SyncEndpoint.Proofs.Storage.Running

set_option autoImplicit false

/-! # Files that are read in pieces

A storage gives the content of an open file in as many pieces as it likes, until there is nothing more
or a read fails. A program that takes them one after the other ends with the fold over the pieces, or
with the error, on whatever storage it runs. -/

namespace SyncEndpoint.Storage

variable {σ R W β : Type}

/-- What an open file gives, read by read: some pieces, none of them empty, and then nothing more, or
an error. -/
inductive Delivers (backend : Backend σ R W) :
    R → σ → List Bytes → Except IoError Unit → σ → Prop
  | finished {reader rest : R} {s s' : σ}
      (hread : backend (.read reader chunkSize) s = (.ok ([], rest), s')) :
      Delivers backend reader s [] (.ok ()) s'
  | failed {reader : R} {s s' : σ} {e : IoError}
      (hread : backend (.read reader chunkSize) s = (.error e, s')) :
      Delivers backend reader s [] (.error e) s'
  | piece {reader rest : R} {s s' t : σ} {bytes : Bytes} {pieces : List Bytes}
      {last : Except IoError Unit} (hne : bytes ≠ [])
      (hread : backend (.read reader chunkSize) s = (.ok (bytes, rest), s'))
      (hrest : Delivers backend rest s' pieces last t) :
      Delivers backend reader s (bytes :: pieces) last t

/-- A file can be opened, and then gives some pieces. What the storage says of how much is left is
true of them. -/
def DeliversFile (backend : Backend σ R W) (path : NativePath) (s : σ) (pieces : List Bytes)
    (last : Except IoError Unit) (t : σ) : Prop :=
  ∃ reader left s₁ s₂, backend (.openRead path) s = (.ok reader, s₁) ∧
    backend (.bytesLeft reader) s₁ = (left, s₂) ∧ pieces.flatten.length ≤ left ∧
    Delivers backend reader s₂ pieces last t

variable {backend : Backend σ R W} {reader : R} {s t : σ} {pieces : List Bytes}
  {last : Except IoError Unit} {w : World σ} {f : β → Bytes → β}

/-- There is a byte at least in each piece. -/
theorem Delivers.length_le (h : Delivers backend reader s pieces last t) :
    pieces.length ≤ pieces.flatten.length := by
  induction h with
  | finished | failed => exact Nat.le_refl 0
  | piece hne _ _ ih =>
    have hpos := List.length_pos_iff.mpr hne
    rw [List.flatten_cons, List.length_append, List.length_cons]
    omega

theorem run_openRead {path : NativePath} :
    (openRead path : Attempt R W IoError R).run.run backend w =
      ((backend (.openRead path) w.storage).1,
        { w with storage := (backend (.openRead path) w.storage).2 }) := rfl

theorem run_read {n : Nat} :
    (read reader n : Attempt R W IoError (Bytes × R)).run.run backend w =
      ((backend (.read reader n) w.storage).1,
        { w with storage := (backend (.read reader n) w.storage).2 }) := rfl

theorem run_bytesLeft :
    (bytesLeft reader : Program R W Nat).run backend w =
      ((backend (.bytesLeft reader) w.storage).1,
        { w with storage := (backend (.bytesLeft reader) w.storage).2 }) := rfl

/-- A read more than there are pieces comes to the fold over them, or to the error. -/
theorem Delivers.run_foldChunks (h : Delivers backend reader s pieces last t) {n : Nat}
    (hn : pieces.length ≤ n) (b : β) (minted : Nat) :
    (foldChunks f (n + 1) b reader).run.run backend ⟨s, minted⟩ =
      (last.map fun _ => pieces.foldl f b, ⟨t, minted⟩) := by
  induction h generalizing n b with
  | finished hread =>
    rw [foldChunks, Attempt.run_bind, run_read, hread]
    rfl
  | failed hread =>
    rw [foldChunks, Attempt.run_bind, run_read, hread]
    rfl
  | piece hne hread _ ih =>
    rw [foldChunks, Attempt.run_bind, run_read, hread]
    dsimp only
    rw [if_neg (by rwa [List.isEmpty_iff])]
    -- The piece takes one of the reads, and the others are enough for the rest.
    obtain ⟨m, rfl⟩ := Nat.exists_eq_add_of_lt hn
    exact ih (by omega) _

/-- A file is taken piece by piece. -/
theorem Delivers.run_foldReader (h : Delivers backend reader s pieces last t) {left : Nat}
    {s₀ : σ} (hleft : backend (.bytesLeft reader) s₀ = (left, s))
    (hle : pieces.flatten.length ≤ left) (b : β) (minted : Nat) :
    (foldReader f b reader).run.run backend ⟨s₀, minted⟩ =
      (last.map fun _ => pieces.foldl f b, ⟨t, minted⟩) := by
  rw [foldReader, Attempt.run_bind, Attempt.run_lift, run_bytesLeft, hleft]
  exact h.run_foldChunks (Nat.le_trans h.length_le hle) b minted

/-- What minds no cut takes the pieces like the whole. -/
theorem foldl_eq_flatten (hnil : ∀ b, f b [] = b) (happend : ∀ b xs ys, f b (xs ++ ys) = f (f b xs) ys)
    (b : β) (pieces : List Bytes) : pieces.foldl f b = f b pieces.flatten := by
  induction pieces generalizing b with
  | nil => exact (hnil b).symm
  | cons piece pieces ih => rw [List.foldl_cons, ih, List.flatten_cons, happend]

end SyncEndpoint.Storage
