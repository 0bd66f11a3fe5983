import SyncEndpoint.Endpoint.Basic
import SyncEndpoint.Proofs.Endpoint.Key
import SyncEndpoint.Proofs.Storage.Failures
import SyncEndpoint.Proofs.Text.Blanks

set_option autoImplicit false

/-! # Asking for identities

What comes of asking for the identity of a node on a storage with failing calls, and what it leaves
behind: nothing at all, or the marker of a collection that had none. The answer can be read off
the tree that it leaves. -/

namespace SyncEndpoint

open NativePath (IsName)
open Text.Utf8

namespace Identity

theorem isName_markerName : IsName (encode markerName) := by decide

/-- The marker of a directory is the entry of that name in it. -/
theorem keyOf_markerPath (dir : NativePath) :
    Storage.keyOf (markerPath dir) = Storage.keyOf dir ++ [encode markerName] := by
  rw [Storage.keyOf, markerPath, NativePath.names_join (by decide)]
  rfl

/-- Where no identifier is found, one is minted and written, and it is the answer if that succeeds. -/
theorem run_folderId_of_none {σ R W : Type} {backend : Storage.Backend σ R W} {dir : NativePath}
    {w : Storage.World σ} (h : (readMarker dir).run.run backend w = (.ok none, w)) :
    (folderId dir).run.run backend w =
      (((writeMarker dir (Uuid.ofNat w.minted)).run.run backend
        { w with minted := w.minted + 1 }).1.map fun _ => Uuid.ofNat w.minted,
        ((writeMarker dir (Uuid.ofNat w.minted)).run.run backend
          { w with minted := w.minted + 1 }).2) := by
  have hmint : (Storage.mint : Storage.Program R W String).run backend w =
    (Uuid.ofNat w.minted, { w with minted := w.minted + 1 }) := rfl
  rw [folderId, Storage.Attempt.run_bind, h]
  dsimp only
  rw [Storage.Attempt.run_bind, Storage.Attempt.run_lift, hmint]
  exact Storage.Attempt.run_map backend (fun _ => Uuid.ofNat w.minted) _ _

/-- What is read back of a text that is written down: the text without the blanks at its ends, if
that leaves anything. -/
theorem identifierOf?_encode (id : String) : identifierOf? (encode id) =
    if Text.trimBlanks id = "" then none else some (Text.trimBlanks id) := by
  unfold identifierOf?
  rw [decodeLossy_encode]
  simp

/-- A text that is trimmed already is read back as it is. -/
theorem identifierOf?_encode_of_trimmed {id : String} (hne : id ≠ "")
    (htrim : Text.trimBlanks id = id) : identifierOf? (encode id) = some id := by
  rw [identifierOf?_encode, htrim, if_neg hne]

end Identity

/-! ## Minted identifiers -/

namespace Uuid

theorem of_lt_sixteen {n : Nat} (h : n < 16) :
    Text.isBlank (Text.hexDigit n) = false ∧ (Text.hexDigit n).toNat < 0x80 := by
  revert n
  decide

theorem of_mem_digits {width n : Nat} {c : Char} (h : c ∈ digits width n) :
    Text.isBlank c = false ∧ c.toNat < 0x80 := by
  induction width generalizing n with
  | zero => cases h
  | succ width ih =>
    rw [digits, List.mem_append, List.mem_singleton] at h
    rcases h with h | rfl
    · exact ih h
    · exact of_lt_sixteen (Nat.mod_lt n (by decide))

@[simp]
theorem length_digits (width n : Nat) : (digits width n).length = width := by
  induction width generalizing n with
  | zero => rfl
  | succ width ih => rw [digits, List.length_append, ih, List.length_singleton]

/-- An identifier has no blanks, and only characters of one byte. -/
theorem of_mem_ofNat {n : Nat} {c : Char} (h : c ∈ (ofNat n).toList) :
    Text.isBlank c = false ∧ c.toNat < 0x80 := by
  rw [ofNat, String.toList_ofList] at h
  simp only [List.append_assoc, List.cons_append, List.mem_append, List.mem_cons] at h
  rcases h with h | rfl | h | rfl | rfl | h | rfl | rfl | h | rfl | h
  all_goals first
    | exact of_mem_digits h
    | exact of_lt_sixteen (by omega)
    | decide

theorem length_toList_ofNat (n : Nat) : (ofNat n).toList.length = 36 := by
  rw [ofNat, String.toList_ofList]
  simp

/-- An identifier is written in one byte for each character. -/
theorem encode_ofNat (n : Nat) :
    encode (ofNat n) = (ofNat n).toList.map fun c => UInt8.ofNat c.toNat :=
  encodeChars_of_lt fun _ hc => (of_mem_ofNat hc).2

theorem length_encode_ofNat (n : Nat) : (encode (ofNat n)).length = 36 := by
  rw [encode_ofNat, List.length_map, length_toList_ofNat]

/-- A text without blanks that is written down is read back. -/
theorem identifierOf?_encode {s : String} (hblank : ∀ c ∈ s.toList, Text.isBlank c = false)
    (hne : s.toList ≠ []) : Identity.identifierOf? (encode s) = some s := by
  refine Identity.identifierOf?_encode_of_trimmed ?_ (Text.trimBlanks_eq_self_iff.mpr ⟨?_, ?_⟩)
  · rintro rfl
    exact hne rfl
  · exact fun c hc => hblank c (List.mem_of_mem_head? hc)
  · exact fun c hc => hblank c (List.mem_of_getLast? hc)

/-- What is minted and written down is read back. -/
theorem identifierOf?_encode_ofNat (n : Nat) :
    Identity.identifierOf? (encode (ofNat n)) = some (ofNat n) := by
  refine identifierOf?_encode (fun c hc => (of_mem_ofNat hc).1) fun hnil => ?_
  have := length_toList_ofNat n
  rw [hnil] at this
  cases this

end Uuid

/-! ## Markers -/

namespace Storage.Failures

open Identity (identifierOf?)

variable {f : Failures} {m m' : Memory} {w : World Memory} {key : Key} {dir : NativePath}

/-- What there is to be read in a marker: none if there is none, or a blank one. -/
def marker (f : Failures) (m : Memory) (key : Key) : Except IoError (Option String) :=
  match f.content m key with
  | .ok data => .ok (identifierOf? data)
  | .error x => if x.kind = .notFound then .ok none else .error x

/-- A marker is missing, and can be written. -/
def Lacks (f : Failures) (m : Memory) (key : Key) : Prop :=
  f.marker m key = .ok none ∧ f.create key = none ∧ ¬ m.IsDirAt key

/-- The identifier in a file, which is taken to hold one. -/
def written (m : Memory) (key : Key) : Except IoError String :=
  (m.openRead key).bind fun data =>
    match identifierOf? data with
    | some id => .ok id
    | none => .error (Memory.notFound key)

/-- The identity of a collection, as it can be read off the tree after it has been asked for. -/
def identifier (f : Failures) (m : Memory) (key : Key) : Except IoError String :=
  match f.marker m key with
  | .error x => .error x
  | .ok (some id) => .ok id
  | .ok none => guarded (f.create key) (written m key)

section Congr

variable (h : m'.get? key = m.get? key)

include h

theorem marker_congr : f.marker m' key = f.marker m key := by
  unfold marker
  rw [content_congr h]

theorem lacks_congr : f.Lacks m' key ↔ f.Lacks m key := by
  unfold Lacks Memory.IsDirAt
  rw [marker_congr h, h]

theorem identifier_congr : f.identifier m' key = f.identifier m key := by
  have hwritten : written m' key = written m key := by
    unfold written Memory.openRead
    rw [h]
  unfold identifier
  rw [marker_congr h, hwritten]

end Congr

theorem run_readMarker :
    (Identity.readMarker dir : Attempt Bytes Key IoError _).run.run f.backend w =
      (f.marker w.storage (keyOf (Identity.markerPath dir)), w) := by
  refine (Program.run_bind f.backend (contentOf (Identity.markerPath dir)).run _ w).trans ?_
  rw [run_contentOf]
  unfold marker
  cases f.content w.storage (keyOf (Identity.markerPath dir)) with
  | ok data => rfl
  | error x =>
    dsimp only
    split <;> rfl

/-- Once a missing marker is written, the identity is what was written. -/
theorem Lacks.identifier_of_wrote (hlacks : f.Lacks m key) {n : Nat}
    (h : m.Wrote key (encode (Uuid.ofNat n)) m') : f.identifier m' key = .ok (Uuid.ofNat n) := by
  have hread : m'.openRead key = .ok (encode (Uuid.ofNat n)) := by
    obtain ⟨t, hfile⟩ := h.file
    rw [Memory.openRead, hfile]
  have hwritten : written m' key = .ok (Uuid.ofNat n) := by
    rw [written, hread, Except.bind, Uuid.identifierOf?_encode_ofNat]
  cases hopen : f.openRead key with
  | none =>
    have hmarker : f.marker m' key = .ok (some (Uuid.ofNat n)) := by
      simp only [marker, content, hopen, guarded, hread, Uuid.identifierOf?_encode_ofNat]
    rw [identifier, hmarker]
  | some x =>
    -- The marker is said to be missing, whatever there is.
    have hsame : f.marker m' key = f.marker m key := by
      rw [marker, marker, content, content, hopen]
      rfl
    rw [identifier, hsame, hlacks.1, hlacks.2.1]
    exact hwritten

/-- Asking for the identity of a directory. -/
theorem run_folderId {name : Bytes} {above : Key}
    (hkey : keyOf (Identity.markerPath dir) = above ++ [name]) (hdir : w.storage.IsDirAt above) :
    ∃ m' minted, (Identity.folderId dir : Attempt Bytes Key IoError _).run.run f.backend w =
        (f.identifier m' (keyOf (Identity.markerPath dir)), ⟨m', minted⟩) ∧
      (f.Lacks w.storage (keyOf (Identity.markerPath dir)) ∧
          (∃ n, w.storage.Wrote (keyOf (Identity.markerPath dir)) (encode (Uuid.ofNat n)) m') ∨
        ¬ f.Lacks w.storage (keyOf (Identity.markerPath dir)) ∧ m' = w.storage) := by
  set key := keyOf (Identity.markerPath dir) with hkeyOf
  have hread : (Identity.readMarker dir : Attempt Bytes Key IoError _).run.run f.backend w =
      (f.marker w.storage key, w) := run_readMarker
  cases hmarker : f.marker w.storage key with
  | error x =>
    refine ⟨w.storage, w.minted, ?_, Or.inr ⟨fun hlacks => ?_, rfl⟩⟩
    · rw [Identity.folderId, Attempt.run_bind, hread, hmarker, identifier, hmarker]
    · rw [Lacks, hmarker] at hlacks
      cases hlacks.1
  | ok id? =>
    cases id? with
    | some id =>
      refine ⟨w.storage, w.minted, ?_, Or.inr ⟨fun hlacks => ?_, rfl⟩⟩
      · rw [Identity.folderId, Attempt.run_bind, hread, hmarker, identifier, hmarker]
        rfl
      · rw [Lacks, hmarker] at hlacks
        cases hlacks.1
    | none =>
      rw [hmarker] at hread
      rw [Identity.run_folderId_of_none hread, Identity.writeMarker]
      cases hcreate : f.create key with
      | some x =>
        refine ⟨w.storage, w.minted + 1, ?_, Or.inr ⟨fun hlacks => ?_, rfl⟩⟩
        · rw [run_putContent_of_failure hcreate, identifier, hmarker, hcreate]
          rfl
        · rw [hlacks.2.1] at hcreate
          cases hcreate
      | none =>
        by_cases hthere : w.storage.IsDirAt key
        · refine ⟨w.storage, w.minted + 1, ?_, Or.inr ⟨fun hlacks => hlacks.2.2 hthere, rfl⟩⟩
          have hread : w.storage.openRead key = .error (Memory.isADirectory key) := by
            obtain ⟨t, ht⟩ := hthere
            rw [Memory.openRead, ht]
          rw [run_putContent_of_isDirAt (w := { w with minted := w.minted + 1 }) hcreate hkey hdir
            hthere, identifier, hmarker, hcreate]
          simp only [guarded, written, hread, Except.bind]
          rfl
        · obtain ⟨m', hput, hwrote⟩ := run_putContent (w := { w with minted := w.minted + 1 })
            (encode (Uuid.ofNat w.minted)) hcreate hkey hdir hthere
          have hlacks : f.Lacks w.storage key := ⟨hmarker, hcreate, hthere⟩
          refine ⟨m', w.minted + 1, ?_, Or.inl ⟨hlacks, w.minted, hwrote⟩⟩
          rw [hput, hlacks.identifier_of_wrote hwrote]
          rfl

/-- Where no directory is, asking for an identity fails, and changes nothing. -/
theorem run_folderId_of_not_isDirAt {name : Bytes} {above : Key} (h : w.storage.WellFormed)
    (hkey : keyOf (Identity.markerPath dir) = above ++ [name]) (hdir : ¬ w.storage.IsDirAt above) :
    ∃ x minted, (Identity.folderId dir : Attempt Bytes Key IoError _).run.run f.backend w =
      (.error x, ⟨w.storage, minted⟩) := by
  set key := keyOf (Identity.markerPath dir) with hkeyOf
  have hnone : w.storage.get? key = none := by
    rw [hkey]
    exact h.get?_below hdir
  have hread : (Identity.readMarker dir : Attempt Bytes Key IoError _).run.run f.backend w =
      (f.marker w.storage key, w) := run_readMarker
  cases hmarker : f.marker w.storage key with
  | error x =>
    refine ⟨x, w.minted, ?_⟩
    rw [Identity.folderId, Attempt.run_bind, hread, hmarker]
  | ok id? =>
    cases id? with
    | some id =>
      -- Nothing can be read where nothing is.
      have hcontent : ∀ data, f.content w.storage key ≠ .ok data := by
        intro data hdata
        unfold content guarded Memory.openRead at hdata
        rw [hnone] at hdata
        cases hopen : f.openRead key <;> simp [hopen] at hdata
      unfold marker at hmarker
      split at hmarker
      · next data hdata => exact absurd hdata (hcontent data)
      · split at hmarker <;> cases hmarker
    | none =>
      rw [hmarker] at hread
      obtain ⟨x, hput⟩ := run_putContent_of_not_isDirAt (f := f)
        (w := { w with minted := w.minted + 1 }) (encode (Uuid.ofNat w.minted)) hkey hdir
      refine ⟨x, w.minted + 1, ?_⟩
      rw [Identity.run_folderId_of_none hread, Identity.writeMarker, hput]
      rfl

end Storage.Failures

/-! ## Nodes -/

namespace Endpoint

open Storage

variable {f : Failures} {w : World Memory} {path : String}

/-- The key of the marker of a collection. -/
def markerKey (path : String) : Key :=
  keyAt path ++ [encode markerName]

theorem keyOf_markerPath_nativePath (path : String) :
    keyOf (Identity.markerPath (nativePath path)) = markerKey path := by
  rw [Identity.keyOf_markerPath, keyOf_nativePath, markerKey]

theorem key_ne_markerKey (path : String) : key path ≠ markerKey (CanonicalPath.clean path) := by
  intro heq
  have hlength := congrArg List.length heq
  simp [markerKey, key] at hlength

/-- There is no identifier at the key of a marker: nothing at all, or a blank file. -/
def Unidentified (m : Memory) (k : Key) : Prop :=
  m.get? k = none ∨ ∃ data t, m.get? k = some (.file data t) ∧ Identity.identifierOf? data = none

/-- Where no failing call is in the way, an identifier is what a marker lacks. -/
theorem lacks_iff_unidentified {m : Memory} {k : Key} (hread : f.openRead k = none)
    (hcreate : f.create k = none) : f.Lacks m k ↔ Unidentified m k := by
  unfold Failures.Lacks Failures.marker Failures.content Unidentified Memory.IsDirAt Memory.openRead
  rw [hread, hcreate]
  cases m.get? k with
  | none => simp [Failures.guarded, Memory.notFound]
  | some entry => cases entry <;> simp [Failures.guarded, Memory.isADirectory]

theorem not_unidentified_of_file {m : Memory} {k : Key} {n : Nat} {t : Timestamp}
    (hget : m.get? k = some (.file (encode (Uuid.ofNat n)) t)) : ¬ Unidentified m k := by
  rintro (hnone | ⟨data, t', hfile, hblank⟩)
  · cases hget.symm.trans hnone
  · obtain ⟨rfl, -⟩ := Entry.file.inj (Option.some.inj (hget.symm.trans hfile))
    rw [Uuid.identifierOf?_encode_ofNat] at hblank
    cases hblank

/-- The identity of a node, as it can be read off the tree after it has been asked for. -/
def identityIn (f : Failures) (m : Memory) (path : String) (isLeaf : Bool) :
    Except SyncError Node :=
  if isLeaf then
    ((f.content m (keyAt path)).mapError (SyncError.ofStorage path)).map fun data =>
      Node.leaf path (Digest.hexDigest data)
  else
    ((f.identifier m (markerKey path)).mapError (SyncError.ofStorage path)).map
      (Node.collection path)

/-- The identity of a node depends on its content, or on its marker, only. -/
theorem identityIn_congr {m m' : Memory} {isLeaf : Bool}
    (hself : m'.get? (keyAt path) = m.get? (keyAt path))
    (hmarker : m'.get? (markerKey path) = m.get? (markerKey path)) :
    identityIn f m' path isLeaf = identityIn f m path isLeaf := by
  unfold identityIn
  rw [Failures.content_congr hself, Failures.identifier_congr hmarker]

section Looks

variable {backend : Backend Memory Bytes Key}
  (hstat : ∀ native m, backend (.stat native) m = (m.stat (keyOf native), m))

include hstat

/-- Looking at a node, on any storage that can be looked at. -/
theorem run_statNode_eq :
    (statNode path : Attempt Bytes Key SyncError Metadata).run.run backend w =
      ((w.storage.stat (keyAt path)).mapError (SyncError.ofStorage path), w) := by
  have hcall : (stat (nativePath path) : Attempt Bytes Key IoError Metadata).run.run backend w =
      (w.storage.stat (keyAt path), w) := by
    simp only [stat, ExceptT.run, Program.run, hstat, keyOf_nativePath]
  rw [statNode, about, Attempt.run_withError, hcall]

theorem run_statNode_of_missing (hnone : w.storage.get? (keyAt path) = none) :
    (statNode path : Attempt Bytes Key SyncError Metadata).run.run backend w =
      (.error (.notFound path), w) := by
  rw [run_statNode_eq hstat, Memory.stat, hnone]
  rfl

variable {entry : Entry}

theorem run_statNode (hget : w.storage.get? (keyAt path) = some entry) :
    (statNode path : Attempt Bytes Key SyncError Metadata).run.run backend w =
      (.ok entry.metadata, w) := by
  rw [run_statNode_eq hstat, Memory.stat, hget]
  rfl

/-- A node that is there is loaded by asking for its identity. -/
theorem run_loadNode_of_get? (hget : w.storage.get? (key path) = some entry) :
    (loadNode path none).run.run backend w =
      (((identify (CanonicalPath.clean path) (!entry.isDir)).run.run backend w).1.map
        (withStat entry.metadata),
        ((identify (CanonicalPath.clean path) (!entry.isDir)).run.run backend w).2) := by
  rw [loadNode, Attempt.run_bind, run_statNode hstat hget]
  dsimp only
  rw [Attempt.run_map, Entry.isDir_metadata]

end Looks

theorem run_contentHash {path : NativePath} :
    (Identity.contentHash path : Attempt Bytes Key IoError String).run.run f.backend w =
      ((f.content w.storage (keyOf path)).map Digest.hexDigest, w) := by
  rw [Identity.contentHash, Attempt.run_bind, Failures.run_openRead]
  cases f.content w.storage (keyOf path) with
  | error x => rfl
  | ok data =>
    dsimp only
    rw [Attempt.run_bind, Failures.run_foldReader (fun _ => rfl) Digest.Hasher.update_append]
    rfl

theorem run_identify_leaf : (identify path true : Attempt Bytes Key SyncError Node).run.run
    f.backend w = (identityIn f w.storage path true, w) := by
  rw [identify, if_pos rfl, Attempt.run_map, about, Attempt.run_withError, run_contentHash,
    keyOf_nativePath, identityIn, if_pos rfl]
  cases f.content w.storage (keyAt path) <;> rfl

/-- Asking for the identity of a collection writes its marker if it lacks one. -/
theorem run_identify_collection (hdir : w.storage.IsDirAt (keyAt path)) :
    ∃ m' minted, (identify path false : Attempt Bytes Key SyncError Node).run.run f.backend w =
        (identityIn f m' path false, ⟨m', minted⟩) ∧
      (f.Lacks w.storage (markerKey path) ∧
          (∃ n, w.storage.Wrote (markerKey path) (encode (Uuid.ofNat n)) m') ∨
        ¬ f.Lacks w.storage (markerKey path) ∧ m' = w.storage) := by
  have hkey := keyOf_markerPath_nativePath path
  obtain ⟨m', minted, hrun, heffect⟩ := Failures.run_folderId (f := f) (w := w)
    (hkey.trans (markerKey.eq_def path)) hdir
  rw [hkey] at hrun heffect
  refine ⟨m', minted, ?_, heffect⟩
  rw [identify, if_neg (by decide), Attempt.run_map, about, Attempt.run_withError, hrun, identityIn,
    if_neg (by decide)]

/-- Asking for the identity of a collection that has one changes nothing. -/
theorem run_identify_of_identified (hdir : w.storage.IsDirAt (keyAt path))
    (hidentified : ¬ Unidentified w.storage (markerKey path)) :
    ∃ minted, (identify path false : Attempt Bytes Key SyncError Node).run.run Memory.backend w =
      (identityIn .calm w.storage path false, ⟨w.storage, minted⟩) := by
  rw [← Failures.backend_calm]
  obtain ⟨m', minted, hrun, ⟨hlacks, -⟩ | ⟨-, rfl⟩⟩ := run_identify_collection (f := .calm) hdir
  · exact absurd ((lacks_iff_unidentified rfl rfl).mp hlacks) hidentified
  · exact ⟨minted, hrun⟩

/-- Where no directory is, there is no identity of a collection, and nothing is changed. -/
theorem run_identify_of_not_isDirAt (h : w.storage.WellFormed)
    (hdir : ¬ w.storage.IsDirAt (keyAt path)) :
    ∃ x minted, (identify path false : Attempt Bytes Key SyncError Node).run.run f.backend w =
      (.error x, ⟨w.storage, minted⟩) := by
  obtain ⟨x, minted, hrun⟩ := Failures.run_folderId_of_not_isDirAt (f := f) h
    ((keyOf_markerPath_nativePath path).trans (markerKey.eq_def path)) hdir
  refine ⟨SyncError.ofStorage path x, minted, ?_⟩
  rw [identify, if_neg Bool.false_ne_true, Attempt.run_map, about, Attempt.run_withError, hrun]
  rfl

end Endpoint

end SyncEndpoint
