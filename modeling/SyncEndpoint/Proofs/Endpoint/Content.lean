import SyncEndpoint.Proofs.Endpoint.Loading
import SyncEndpoint.Proofs.Storage.Frame

set_option autoImplicit false

/-! # Written contents

A content can be written at a path exactly if no directory is there and the path lies in one. Then
it is what is read there, and what the node is known by, whatever was there before; and nothing else
has changed (`writeAll_replaces`). -/

namespace SyncEndpoint.Endpoint

open CanonicalPath (clean segments)
open Storage
open Text.Utf8

/-- A file can be put at a key: no directory is there, and it lies in one. -/
def TakesFile (m : Memory) (k : Key) : Prop :=
  ¬ m.IsDirAt k ∧ m.requireParent k = .ok ()

/-- A content can be written at a path: it is not that of a directory, and its parent is. -/
def Writable (m : Memory) (path : String) : Prop :=
  ¬ m.IsDirAt (key path) ∧
    ∃ above, CanonicalPath.parent (clean path) = some above ∧ m.IsDirAt (key above)

variable {m : Memory} {w : World Memory} {path : String} {content : Bytes}

/-- Without double dots, what a path lies in is what its key lies in. -/
theorem writable_iff (hpath : NoDotDot path) : Writable m path ↔ TakesFile m (key path) := by
  refine and_congr_right fun _ => ?_
  by_cases hne : segments (clean path) = []
  · have hroot : CanonicalPath.isRoot (clean path) = true := (CanonicalPath.isRoot_iff _).mpr hne
    have hnone : CanonicalPath.parent (clean path) = none := by
      rw [CanonicalPath.parent, if_pos hroot]
    rw [key, keyAt_of_isRoot hroot, hnone]
    simp [Memory.requireParent, Memory.parentKey?]
  · obtain ⟨above, habove, hsegments⟩ := CanonicalPath.parent_eq_some hne
    have hplain : ∀ s ∈ segments (clean path), IsPlain s := by
      rw [CanonicalPath.segments_clean]
      exact hpath.isPlain
    have hclean : clean above = above :=
      CanonicalPath.clean_of_parent (CanonicalPath.clean_clean path) habove
    obtain ⟨name, hkey⟩ := exists_keyAt_eq_concat hplain hne hsegments
    rw [key, hkey, Memory.requireParent_append, Memory.requireDir_eq_ok_iff]
    simp [habove, key, hclean]

/-! ## Opening -/

section Opening

variable {native : NativePath} {old : Bytes} {t : Timestamp}

theorem run_openWrite : (openWrite native : Attempt Bytes Key IoError Key).run.run Memory.backend w =
    ((w.storage.change (keyOf native) (w.storage.openWrite (keyOf native))).1,
      { w with
        storage := (w.storage.change (keyOf native) (w.storage.openWrite (keyOf native))).2 }) := rfl

theorem run_create : (create native : Attempt Bytes Key IoError Key).run.run Memory.backend w =
    ((w.storage.change (keyOf native) (w.storage.create (keyOf native))).1,
      { w with
        storage := (w.storage.change (keyOf native) (w.storage.create (keyOf native))).2 }) := rfl

theorem run_openWriter_of_isDirAt (hdir : w.storage.IsDirAt (key path)) :
    (openWriter path : Attempt Bytes Key SyncError Key).run.run Memory.backend w =
      (.error (.invalidInput (clean path ++ " is a collection")), w) := by
  obtain ⟨t, hget⟩ := hdir
  rw [openWriter, Attempt.run_bind, Attempt.run_lift, run_statNode (fun _ _ => rfl) hget]
  rfl

/-- A file that is there is emptied. -/
theorem run_openWriter_of_file (hget : w.storage.get? (key path) = some (.file old t)) :
    (openWriter path : Attempt Bytes Key SyncError Key).run.run Memory.backend w = (.ok (key path),
      { w with storage := w.storage.stamp (key path) (.file []) }) := by
  have hopen : w.storage.openWrite (key path) = .ok (w.storage.stamp (key path) (.file [])) := by
    rw [Memory.openWrite, hget]
  rw [openWriter, Attempt.run_bind, Attempt.run_lift, run_statNode (fun _ _ => rfl) hget]
  dsimp only
  rw [Entry.isDir_metadata, Entry.isDir_file, if_neg Bool.false_ne_true, about,
    Attempt.run_withError, run_openWrite, keyOf_nativePath, ← key, hopen]
  rfl

/-- Where nothing is, an empty file is made, or there is the error that making it ends with. -/
theorem run_openWriter_of_missing (hnone : w.storage.get? (key path) = none) :
    (openWriter path : Attempt Bytes Key SyncError Key).run.run Memory.backend w =
      ((w.storage.change (key path) (w.storage.create (key path))).1.mapError
          (SyncError.ofStorage (clean path)),
        { w with storage := (w.storage.change (key path) (w.storage.create (key path))).2 }) := by
  rw [openWriter, Attempt.run_bind, Attempt.run_lift,
    run_statNode_of_missing (fun _ _ => rfl) hnone]
  dsimp only
  rw [SyncError.isNotFound, if_pos rfl, about, Attempt.run_withError, run_create, keyOf_nativePath,
    ← key]

/-- Opening a path that can be written at leaves an empty file there. -/
theorem run_openWriter_of_takesFile (htakes : TakesFile w.storage (key path)) :
    (openWriter path : Attempt Bytes Key SyncError Key).run.run Memory.backend w = (.ok (key path),
      { w with storage := w.storage.stamp (key path) (.file []) }) := by
  obtain ⟨hfree, hparent⟩ := htakes
  cases hget : w.storage.get? (key path) with
  | some entry =>
    cases entry with
    | dir t => exact absurd ⟨t, hget⟩ hfree
    | file old t => exact run_openWriter_of_file hget
  | none =>
    have hcreate : w.storage.create (key path) = .ok (w.storage.stamp (key path) (.file [])) := by
      rw [Memory.create, hparent, hget]
      rfl
    rw [run_openWriter_of_missing hget, hcreate]
    rfl

/-- Opening another path fails, and changes nothing. -/
theorem run_openWriter_of_not_takesFile (h : w.storage.WellFormed)
    (hno : ¬ TakesFile w.storage (key path)) :
    ∃ x, (openWriter path : Attempt Bytes Key SyncError Key).run.run Memory.backend w =
      (.error x, w) := by
  by_cases hdir : w.storage.IsDirAt (key path)
  · exact ⟨_, run_openWriter_of_isDirAt hdir⟩
  · have hparent : w.storage.requireParent (key path) ≠ .ok () := fun hok => hno ⟨hdir, hok⟩
    cases hget : w.storage.get? (key path) with
    | some entry =>
      -- A file lies in a directory.
      cases entry with
      | dir t => exact absurd ⟨t, hget⟩ hdir
      | file old t =>
        obtain ⟨dir, name, hkey, habove⟩ := (h.filed hget []).parent
        rw [hkey, Memory.requireParent_append] at hparent
        exact absurd ((Memory.requireDir_eq_ok_iff _ dir).mpr habove) hparent
    | none =>
      rw [run_openWriter_of_missing hget]
      cases hresult : w.storage.requireParent (key path) with
      | ok u => exact absurd hresult hparent
      | error x =>
        have hcreate : w.storage.create (key path) = .error x := by
          rw [Memory.create, hresult]
          rfl
        rw [hcreate]
        exact ⟨_, rfl⟩

end Opening

/-! ## Writing and reading -/

/-- What comes of writing a content to a path of a storage in memory, and what is left then. -/
abbrev put (path : String) (content : Bytes) (w : World Memory) :
    Except SyncError Unit × World Memory :=
  (writeAll path content).run.run Memory.backend w

theorem put_of_takesFile (content : Bytes) (htakes : TakesFile w.storage (key path)) :
    ∃ m', put path content w = (.ok (), { w with storage := m' }) ∧
      w.storage.Wrote (key path) content m' := by
  have hempty : (w.storage.stamp (key path) (.file [])).get? (key path) =
      some (.file [] w.storage.now) := by
    rw [Memory.get?_stamp, if_pos rfl]
  obtain ⟨m', hwrite, hwrote⟩ := Failures.run_writeOnce (f := .calm)
    (w := { w with storage := w.storage.stamp (key path) (.file []) }) content hempty
  rw [Failures.backend_calm] at hwrite
  refine ⟨m', ?_, (Memory.wrote_stamp w.storage (key path) []).trans hwrote⟩
  rw [put, writeAll, Attempt.run_bind, run_openWriter_of_takesFile htakes]
  dsimp only
  rw [Attempt.run_bind, about, Attempt.run_withError, hwrite]
  rfl

theorem put_of_not_takesFile (h : w.storage.WellFormed) (content : Bytes)
    (hno : ¬ TakesFile w.storage (key path)) :
    ∃ x, put path content w = (.error x, w) := by
  obtain ⟨x, hopen⟩ := run_openWriter_of_not_takesFile h hno
  refine ⟨x, ?_⟩
  rw [put, writeAll, Attempt.run_bind, hopen]

theorem run_readAll_of_file {t : Timestamp}
    (hget : w.storage.get? (key path) = some (.file content t)) :
    (readAll path).run.run Memory.backend w = (.ok content, w) := by
  have hopen : (openReader path : Attempt Bytes Key SyncError Bytes).run.run Memory.backend w =
      (.ok content, w) := by
    rw [openReader, about, Attempt.run_withError, ← Failures.backend_calm, Failures.run_openRead,
      keyOf_nativePath, ← key, Failures.content, Memory.openRead, hget]
    rfl
  rw [readAll, Attempt.run_bind, hopen]
  dsimp only
  rw [about, Attempt.run_withError, ← Failures.backend_calm, readToEnd,
    Failures.run_foldReader List.append_nil fun b xs ys => (List.append_assoc b xs ys).symm]
  rfl

/-! ## What a write comes to -/

/-- A content is what is read at a path, and what the leaf there is known by. -/
structure Holds (path : String) (content : Bytes) (w : World Memory) : Prop where
  read : (readAll path).run.run Memory.backend w = (.ok content, w)
  loaded : ∃ t, load path none w = (.ok {
    path := clean path
    nodeType := .leaf
    identifier := Digest.hexDigest content
    contentSignature := some (Digest.hexDigest content)
    size := some (UInt64.ofNat content.length)
    mtime := some t
    mode := some Entry.fileMode }, w)

/-- Writing a content either puts it in the place of whatever was at the path, or fails and leaves
everything as it was. -/
structure Replaces (path : String) (content : Bytes) (w : World Memory) : Prop where
  ok_iff : (put path content w).1 = .ok () ↔ Writable w.storage path
  holds : (put path content w).1 = .ok () → Holds path content (put path content w).2
  unchanged : (put path content w).1 ≠ .ok () → (put path content w).2 = w
  others : ∀ k, k ≠ key path → (put path content w).2.storage.get? k = w.storage.get? k

theorem writeAll_replaces (h : w.storage.WellFormed) (hpath : NoDotDot path) (content : Bytes) :
    Replaces path content w := by
  by_cases htakes : TakesFile w.storage (key path)
  · obtain ⟨m', hput, hwrote⟩ := put_of_takesFile content htakes
    obtain ⟨t, hget⟩ := hwrote.file
    refine ⟨?_, fun _ => ?_, ?_, fun k hk => ?_⟩
    · rw [hput, writable_iff hpath]
      exact iff_of_true rfl htakes
    · rw [hput]
      exact ⟨run_readAll_of_file hget, t, load_file hget⟩
    · rw [hput]
      exact fun hne => absurd rfl hne
    · rw [hput]
      exact hwrote.others k hk
  · obtain ⟨x, hput⟩ := put_of_not_takesFile h content htakes
    refine ⟨?_, ?_, fun _ => ?_, fun k _ => ?_⟩
    · rw [hput, writable_iff hpath]
      exact iff_of_false nofun htakes
    · rw [hput]
      exact nofun
    · rw [hput]
    · rw [hput]

section Example

/-- A file that is made in a directory. -/
theorem writeAll_replaces_missing :
    (chain [encode "d"]).WellFormed ∧ NoDotDot "/d/f" ∧
      Replaces "/d/f" (encode "x") ⟨chain [encode "d"], 0⟩ := by
  have h : (chain [encode "d"]).WellFormed := by decide
  have hpath : NoDotDot "/d/f" := by decide
  exact ⟨h, hpath, writeAll_replaces (w := ⟨chain [encode "d"], 0⟩) h hpath (encode "x")⟩

end Example

end SyncEndpoint.Endpoint
