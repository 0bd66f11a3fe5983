import SyncEndpoint.Proofs.Endpoint.Guards
import SyncEndpoint.Proofs.Endpoint.Stability

set_option autoImplicit false

/-! # Interrupted mints

The marker of a collection is made, written and finished by one call each. On a storage on which any
call may be refused, and on which a write may stop after certain numbers of bytes, the marker may be
left with the start of an identifier in it, and whatever is in it then is taken for an identifier by
later loads. So the identifiers that loads give are those that were minted exactly if no write stops
within an identifier. -/

namespace SyncEndpoint

open Text.Utf8

namespace Storage

variable {σ R W α ε : Type} {answers answers' : Answers σ R W}

/-! ## Writes that stop short -/

theorem Program.Every.of_answers (himp : ∀ c s reply s', answers' c s reply s' → answers c s reply s')
    {p : Program R W α} {post : α → World σ → Prop} {w : World σ} (h : p.Every answers post w) :
    p.Every answers' post w := by
  induction p generalizing w with
  | done a => exact h
  | call c next ih => exact fun reply s hanswer => ih reply (h reply s (himp _ _ _ _ hanswer))
  | mint next ih => exact ih _ h

/-- Where fewer answers are given, all the more is certain. -/
theorem Ensures.of_answers (himp : ∀ c s reply s', answers' c s reply s' → answers c s reply s')
    {x : Attempt R W ε α} {ok : α → World σ → Prop} {failed : ε → World σ → Prop} {w : World σ}
    (h : Ensures answers w x ok failed) : Ensures answers' w x ok failed :=
  Program.Every.of_answers himp h

/-- The answers of a storage in memory on which any call may be refused. A write that is refused may
have written the first `n` of its bytes if `stops n`. -/
def stopping (stops : Nat → Prop) : Answers Memory Bytes Key
  | .write writer data, m => fun reply m' =>
    Memory.backend (.write writer data) m = (reply, m') ∨
      ∃ x, reply.1 = .error x ∧
        (reply.2 = writer ∧ m' = m ∨ ∃ n written, stops n ∧
          Memory.backend (.write writer (data.take n)) m = ((written, reply.2), m'))
  | c, m => unreliable Memory.backend .all c m

variable {stops : Nat → Prop}

theorem unreliable_of_stopping (c : Call Bytes Key) (m : Memory) (reply : c.Reply) (m' : Memory)
    (h : stopping stops c m reply m') : unreliable Memory.backend .all c m reply m' := by
  cases c with
  | write writer data =>
    refine h.imp_right ?_
    rintro ⟨x, hreply, hnone | ⟨n, written, -, hwritten⟩⟩
    · exact ⟨x, trivial, hreply, Or.inl hnone⟩
    · exact ⟨x, trivial, hreply, Or.inr ⟨n, written, hwritten⟩⟩
  | _ => exact h

theorem stopping_backend (stops : Nat → Prop) (c : Call Bytes Key) (m : Memory) :
    stopping stops c m (Memory.backend c m).1 (Memory.backend c m).2 := by
  have hanswer := unreliable_backend Memory.backend .all c m
  cases c with
  | write writer data => exact Or.inl rfl
  | _ => exact hanswer

/-- How much of a write may have been done: all of it also if it is refused in the end. -/
def Stops (stops : Nat → Prop) (data : Bytes) (n : Nat) : Prop :=
  n = 0 ∨ stops n ∨ data.length ≤ n

theorem Memory.Wrote.append {m m₁ m' : Memory} {key : Key} {before data : Bytes}
    (h : m.Wrote key before m₁) (happend : m₁.append key data = .ok m') :
    m.Wrote key (before ++ data) m' := by
  obtain ⟨old, t, hget, rfl⟩ := exists_file_of_append happend
  obtain ⟨stamp, hfile⟩ := h.file
  cases hget.symm.trans hfile
  exact h.trans (wrote_stamp m₁ key (before ++ data))

theorem Memory.Wrote.isDirAt {m m' : Memory} {key k : Key} {data : Bytes}
    (h : m.Wrote key data m') (hk : m.IsDirAt k) (hne : k ≠ key) : m'.IsDirAt k := by
  obtain ⟨t, hget⟩ := hk
  exact ⟨t, (h.others k hne).trans hget⟩

/-- Bytes are written to the end of a file that is there. -/
theorem Memory.Wrote.of_write {m m₁ m' : Memory} {key : Key} {before data : Bytes}
    (h : m.Wrote key before m₁) {reply : (Call.write (R := Bytes) key data).Reply}
    (hwrite : Memory.backend (.write key data) m₁ = (reply, m')) :
    reply.1 = .ok () ∧ m.Wrote key (before ++ data) m' := by
  obtain ⟨t, hfile⟩ := h.file
  have happend : m₁.append key data = .ok (m₁.stamp key (.file (before ++ data))) := by
    rw [Memory.append, hfile]
  rw [Memory.backend, happend] at hwrite
  cases hwrite
  exact ⟨rfl, h.append happend⟩

/-- The file at a key after a write, and after one that is refused. -/
theorem ensures_writeOnce_stopping {m : Memory} {key : Key} {data : Bytes} {w : World Memory}
    (h : m.Wrote key [] w.storage) :
    Ensures (stopping stops) w (writeOnce key data)
      (fun _ w' => w'.minted = w.minted ∧ m.Wrote key data w'.storage)
      fun _ w' => w'.minted = w.minted ∧
        ∃ n, Stops stops data n ∧ m.Wrote key (data.take n) w'.storage := by
  refine Program.every_bind.mpr ?_
  unfold write
  split
  · next hempty =>
    rw [List.isEmpty_iff] at hempty
    exact ⟨rfl, hempty ▸ h⟩
  · rintro ⟨result, writer⟩ m' (hdone | ⟨x, rfl, ⟨-, rfl⟩ | ⟨n, written, hstops, hwritten⟩⟩)
    · obtain ⟨rfl, hwrote⟩ := h.of_write hdone
      exact ⟨rfl, hwrote⟩
    · exact ⟨rfl, 0, Or.inl rfl, h⟩
    · exact ⟨rfl, n, Or.inr (Or.inl hstops), (h.of_write hwritten).2⟩

/-- The file at a key after it was written anew, and after this was refused. -/
theorem ensures_putContent_stopping {path : NativePath} {data : Bytes} {w : World Memory} :
    Ensures (stopping stops) w (putContent path data)
      (fun _ w' => w'.minted = w.minted ∧ w.storage.Wrote (keyOf path) data w'.storage)
      fun _ w' => w'.minted = w.minted ∧ (w'.storage = w.storage ∨
        ∃ n, Stops stops data n ∧ w.storage.Wrote (keyOf path) (data.take n) w'.storage) := by
  rw [putContent, Ensures.bind_iff]
  rintro reply m (hdone | ⟨x, -, rfl, rfl⟩)
  · cases hcreate : w.storage.create (keyOf path) with
    | error x =>
      rw [Memory.backend, hcreate] at hdone
      cases hdone
      exact ⟨rfl, Or.inl rfl⟩
    | ok made =>
      have hmade : w.storage.Wrote (keyOf path) [] made := by
        rw [Memory.eq_stamp_of_create hcreate]
        exact Memory.wrote_stamp w.storage (keyOf path) []
      rw [Memory.backend, hcreate] at hdone
      cases hdone
      refine Ensures.bind_iff.mpr ((ensures_writeOnce_stopping hmade).mono ?_ ?_)
      · rintro - w' ⟨hminted, hwrote⟩ reply m (hdone | ⟨x, -, rfl, rfl⟩)
        · cases hdone
          exact ⟨hminted, hwrote⟩
        · refine ⟨hminted, Or.inr ⟨data.length, Or.inr (Or.inr le_rfl), ?_⟩⟩
          rw [List.take_length]
          exact hwrote
      · rintro x w' ⟨hminted, hwrote⟩
        exact ⟨hminted, Or.inr hwrote⟩
  · exact ⟨rfl, Or.inl rfl⟩

end Storage

namespace Identity

open Storage

/-- The identifier in the file at a key, if it holds one. -/
def held? (m : Memory) (key : Key) : Option String :=
  match m.get? key with
  | some (.file data _) => identifierOf? data
  | _ => none

theorem held?_of_file {m : Memory} {key : Key} {data : Bytes} {t : Timestamp}
    (h : m.get? key = some (.file data t)) : held? m key = identifierOf? data := by
  rw [held?, h]

variable {stops : Nat → Prop} {dir : NativePath} {w : World Memory}

theorem ensures_readMarker_held {refusal : Refusal Bytes Key} :
    Ensures (unreliable Memory.backend refusal) w (readMarker dir)
      (fun id? w' => w' = w ∧ ∀ id, id? = some id → held? w.storage (keyOf (markerPath dir)) = some id)
      fun _ w' => w' = w := by
  have hread : Ensures (unreliable Memory.backend refusal) w (contentOf (markerPath dir))
      (fun data w' => w' = w ∧ held? w.storage (keyOf (markerPath dir)) = identifierOf? data)
      fun _ w' => w' = w :=
    ensures_contentOf (fun data t hget => ⟨rfl, held?_of_file hget⟩) (fun _ _ => rfl) fun _ _ _ => rfl
  refine Program.every_bind.mpr (Program.Every.mono hread fun res w' hpost => ?_)
  cases res with
  | ok data =>
    obtain ⟨rfl, hheld⟩ := hpost
    exact ⟨rfl, fun id hid => hheld.trans hid⟩
  | error x =>
    obtain rfl := hpost
    dsimp only
    split
    · exact ⟨rfl, fun _ hid => nomatch hid⟩
    · rfl

/-- What asking for an identifier comes to: the one that is held, or a fresh one, which is written
down. -/
def Identified (w : World Memory) (key : Key) (id : String) (w' : World Memory) : Prop :=
  w' = w ∧ held? w.storage key = some id ∨
    id = Uuid.ofNat w.minted ∧ w'.minted = w.minted + 1 ∧ w.storage.Wrote key (encode id) w'.storage

/-- What is left where asking for an identifier fails: no change, or the start of a fresh one in the
file. -/
def Interrupted (stops : Nat → Prop) (w : World Memory) (key : Key) (w' : World Memory) : Prop :=
  w.minted ≤ w'.minted ∧ w'.storage = w.storage ∨
    w'.minted = w.minted + 1 ∧ ∃ n, Stops stops (encode (Uuid.ofNat w.minted)) n ∧
      w.storage.Wrote key ((encode (Uuid.ofNat w.minted)).take n) w'.storage

theorem ensures_folderId_stopping :
    Ensures (stopping stops) w (folderId dir) (Identified w (keyOf (markerPath dir)))
      fun _ => Interrupted stops w (keyOf (markerPath dir)) := by
  rw [folderId, Ensures.bind_iff]
  refine (ensures_readMarker_held.of_answers unreliable_of_stopping).mono ?_ ?_
  · rintro id? w' ⟨rfl, hheld⟩
    cases id? with
    | some id => exact Or.inl ⟨rfl, hheld id rfl⟩
    | none =>
      rw [Ensures.bind_iff]
      refine Ensures.bind_iff.mpr (ensures_putContent_stopping.mono ?_ ?_)
      · rintro - w'' ⟨hminted, hwrote⟩
        exact Or.inr ⟨rfl, hminted, hwrote⟩
      · rintro x w'' ⟨hminted, hsame | hwrote⟩
        · exact Or.inl ⟨by rw [hminted]; exact Nat.le_succ _, hsame⟩
        · exact Or.inr ⟨hminted, hwrote⟩
  · rintro x w' rfl
    exact Or.inl ⟨le_rfl, rfl⟩

end Identity

namespace Endpoint

open CanonicalPath (clean)
open Identity (held? held?_of_file Identified Interrupted)
open Storage

variable {stops : Nat → Prop} {d id : String} {w w' : World Memory}

/-! ## Loads -/

section Loads

-- Paths count by what is known of their segments; to compute these is of no use here.
attribute [local irreducible] CanonicalPath.segments clean

theorem ensures_loadNode_stopping {knownLeaf : Option Bool} (hdir : w.storage.IsDirAt (key d)) :
    Ensures (stopping stops) w (loadNode d knownLeaf)
      (fun node => Identified w (markerKey (clean d)) node.identifier)
      fun _ => Interrupted stops w (markerKey (clean d)) := by
  have hidentify (isLeaf : Bool) : Ensures (stopping stops) w (identify (clean d) isLeaf)
      (fun node => Identified w (markerKey (clean d)) node.identifier)
      fun _ => Interrupted stops w (markerKey (clean d)) := by
    cases isLeaf with
    | true =>
      have hdir' : w.storage.IsDirAt (keyOf (nativePath (clean d))) := by
        rw [keyOf_nativePath]
        exact hdir
      rw [identify, if_pos rfl, ← bind_pure_comp, Ensures.bind_iff, ensures_about_iff]
      refine ((Identity.ensures_contentHash_of_isDirAt hdir').of_answers unreliable_of_stopping).mono
        (fun _ _ hno => hno.elim) ?_
      rintro x w' rfl
      exact Or.inl ⟨le_rfl, rfl⟩
    | false =>
      rw [identify, if_neg Bool.false_ne_true, ← bind_pure_comp, Ensures.bind_iff, ensures_about_iff,
        ← keyOf_markerPath_nativePath]
      exact Identity.ensures_folderId_stopping
  unfold loadNode
  cases knownLeaf with
  | some isLeaf => exact hidentify isLeaf
  | none =>
    have hstat : Ensures (unreliable Memory.backend .all) w (statNode (clean d)) (fun _ w' => w' = w)
        fun _ w' => w' = w := by
      rw [statNode, ensures_about_iff]
      exact ensures_stat (fun _ _ => rfl) (fun _ => rfl) fun _ _ => rfl
    rw [Ensures.bind_iff]
    refine (hstat.of_answers unreliable_of_stopping).mono ?_ ?_
    · rintro md w' rfl
      rw [← bind_pure_comp, Ensures.bind_iff]
      exact hidentify _
    · rintro x w' rfl
      exact Or.inl ⟨le_rfl, rfl⟩

end Loads

/-- The marker of a directory is missing, empty, or holds an identifier that was minted since the
count of the minted ones was at `first`. -/
structure Mints (first : Nat) (d : String) (w : World Memory) : Prop where
  dir : w.storage.IsDirAt (key d)
  later : first ≤ w.minted
  marker : ∀ data t, w.storage.get? (markerKey (clean d)) = some (.file data t) →
    data = [] ∨ ∃ k, first ≤ k ∧ k < w.minted ∧ data = encode (Uuid.ofNat k)

namespace Mints

variable {first : Nat}

theorem of_none (hdir : w.storage.IsDirAt (key d))
    (hnone : w.storage.get? (markerKey (clean d)) = none) : Mints w.minted d w := by
  refine ⟨hdir, le_rfl, fun data t hget => ?_⟩
  rw [hnone] at hget
  cases hget

/-- Nothing but the count has changed. -/
theorem of_storage_eq (h : Mints first d w) (hminted : w.minted ≤ w'.minted)
    (hstorage : w'.storage = w.storage) : Mints first d w' := by
  refine ⟨hstorage ▸ h.dir, h.later.trans hminted, fun data t hget => ?_⟩
  rw [hstorage] at hget
  refine (h.marker data t hget).imp_right ?_
  rintro ⟨k, hk, hk', hdata⟩
  exact ⟨k, hk, hk'.trans_le hminted, hdata⟩

/-- The marker was written with nothing, or with the identifier that was minted for it. -/
theorem of_wrote (h : Mints first d w) (hminted : w'.minted = w.minted + 1) {data : Bytes}
    (hwrote : w.storage.Wrote (markerKey (clean d)) data w'.storage)
    (hdata : data = [] ∨ data = encode (Uuid.ofNat w.minted)) : Mints first d w' where
  dir := hwrote.isDirAt h.dir (key_ne_markerKey d)
  later := h.later.trans (by rw [hminted]; exact Nat.le_succ _)
  marker := by
    intro data' t hget
    obtain ⟨stamp, hfile⟩ := hwrote.file
    cases hget.symm.trans hfile
    exact hdata.imp_right fun heq => ⟨w.minted, h.later, by omega, heq⟩

/-- An identifier that is given was minted, now or before. -/
theorem of_identified (h : Mints first d w) (hid : Identified w (markerKey (clean d)) id w') :
    Mints first d w' ∧ ∃ k, first ≤ k ∧ k < w'.minted ∧ id = Uuid.ofNat k := by
  rcases hid with ⟨rfl, hheld⟩ | ⟨rfl, hminted, hwrote⟩
  · refine ⟨h, ?_⟩
    rw [held?] at hheld
    split at hheld
    · next data t hget =>
      rcases h.marker data t hget with hempty | ⟨k, hk, hk', hdata⟩
      · rw [hempty] at hheld
        cases hheld
      · rw [hdata, Uuid.identifierOf?_encode_ofNat, Option.some.injEq] at hheld
        exact ⟨k, hk, hk', hheld.symm⟩
    · cases hheld
  · exact ⟨h.of_wrote hminted hwrote (Or.inr rfl), w.minted, h.later, by omega, rfl⟩

/-- Where no write stops within an identifier, none is left in parts. -/
theorem of_interrupted (hstops : ∀ n, stops n → n = 0 ∨ 36 ≤ n) (h : Mints first d w)
    (hint : Interrupted stops w (markerKey (clean d)) w') : Mints first d w' := by
  rcases hint with ⟨hminted, hsame⟩ | ⟨hminted, n, hn, hwrote⟩
  · exact h.of_storage_eq hminted hsame
  · refine h.of_wrote hminted hwrote ?_
    have hlength := Uuid.length_encode_ofNat w.minted
    have hall : n = 0 ∨ 36 ≤ n := by
      rcases hn with hnone | hn | hall
      · exact Or.inl hnone
      · exact hstops n hn
      · exact Or.inr (hlength ▸ hall)
    rcases hall with rfl | hall
    · exact Or.inl rfl
    · exact Or.inr (List.take_of_length_le (hlength ▸ hall))

end Mints

/-- A load of a directory, whatever comes of it. -/
def LoadedOnce (stops : Nat → Prop) (d : String) (w w' : World Memory) : Prop :=
  ∃ (knownLeaf : Option Bool) (res : Except SyncError Node),
    (loadNode d knownLeaf).run.Runs (stopping stops) w res w'

theorem Mints.of_loads {first : Nat} (hstops : ∀ n, stops n → n = 0 ∨ 36 ≤ n) (h : Mints first d w)
    (hloads : Relation.ReflTransGen (LoadedOnce stops d) w w') : Mints first d w' := by
  induction hloads with
  | refl => exact h
  | tail _ hload ih =>
    obtain ⟨knownLeaf, res, hruns⟩ := hload
    cases res with
    | ok node => exact (ih.of_identified ((ensures_loadNode_stopping ih.dir).of_runs_ok hruns)).1
    | error x =>
      exact ih.of_interrupted hstops ((ensures_loadNode_stopping ih.dir).of_runs_error hruns)

/-! ## Fragments -/

/-- A directory is loaded by asking for its identifier, on any storage that can be looked at. -/
theorem run_loadNode_of_isDirAt (backend : Backend Memory Bytes Key)
    (hstat : ∀ path m, backend (.stat path) m = (m.stat (keyOf path), m))
    (hdir : w.storage.IsDirAt (key d)) :
    ∃ md, (loadNode d none).run.run backend w =
      (((identify (clean d) false : Attempt Bytes Key SyncError Node).run.run backend w).1.map
        (withStat md),
        ((identify (clean d) false : Attempt Bytes Key SyncError Node).run.run backend w).2) := by
  obtain ⟨t, hget⟩ := hdir
  exact ⟨(Entry.dir t).metadata, run_loadNode_of_get? hstat hget⟩

theorem held?_eq_none_of_unidentified {m : Memory} {k : Key} (h : Unidentified m k) :
    held? m k = none := by
  unfold held?
  rcases h with hnone | ⟨data, t, hget, hblank⟩
  · rw [hnone]
  · rw [hget]
    exact hblank

/-- What is held in a marker is what a collection is identified by. -/
theorem identityIn_of_held {path : String} (hheld : held? w.storage (markerKey path) = some id) :
    identityIn .calm w.storage path false = .ok (Node.collection path id) := by
  have hmarker : Failures.calm.marker w.storage (markerKey path) = .ok (some id) := by
    rw [held?] at hheld
    split at hheld
    · next data t hget =>
      have hread : w.storage.openRead (markerKey path) = .ok data :=
        Memory.openRead_eq_ok_iff.mpr ⟨t, hget⟩
      simp [Failures.marker, Failures.content, Failures.calm, Failures.guarded, hread, hheld]
    · cases hheld
  rw [identityIn, if_neg (by decide), Failures.identifier, hmarker]
  rfl

/-- A collection with an identifier in its marker is loaded with it, and nothing is changed. -/
theorem run_loadNode_of_held (hdir : w.storage.IsDirAt (key d))
    (hheld : held? w.storage (markerKey (clean d)) = some id) :
    ∃ node minted, (loadNode d none).run.run Memory.backend w = (.ok node, ⟨w.storage, minted⟩) ∧
      node.identifier = id := by
  have hidentified : ¬ Unidentified w.storage (markerKey (clean d)) := fun hmissing => by
    rw [held?_eq_none_of_unidentified hmissing] at hheld
    cases hheld
  obtain ⟨minted, hidentify⟩ := run_identify_of_identified hdir hidentified
  obtain ⟨md, hrun⟩ := run_loadNode_of_isDirAt Memory.backend (fun _ _ => rfl) hdir
  rw [hidentify, identityIn_of_held hheld] at hrun
  exact ⟨withStat md (Node.collection (clean d) id), minted, hrun, rfl⟩

/-- The storage in memory, in which each write finds room for `n` bytes only. -/
def withRoomFor (n : Nat) : Backend Memory Bytes Key
  | .write writer data, m =>
    let (written, m') := Memory.backend (.write writer (data.take n)) m
    ((.error ⟨.storageFull, "no space left"⟩, written.2), m')
  | c, m => Memory.backend c m

theorem runs_withRoomFor {α : Type} {n : Nat} (hn : stops n) (p : Program Bytes Key α)
    (w : World Memory) :
    p.Runs (stopping stops) w (p.run (withRoomFor n) w).1 (p.run (withRoomFor n) w).2 := by
  refine p.runs_run_of_answers (fun c m => ?_) w
  have hanswer := stopping_backend stops c m
  cases c with
  | write writer data => exact Or.inr ⟨_, rfl, Or.inr ⟨n, _, hn, rfl⟩⟩
  | _ => exact hanswer

/-- The first `n` characters of an identifier. -/
def fragment (n k : Nat) : String :=
  String.ofList ((Uuid.ofNat k).toList.take n)

theorem encode_fragment (n k : Nat) :
    encode (fragment n k) = (encode (Uuid.ofNat k)).take n := by
  rw [Uuid.encode_ofNat, ← List.map_take, encode, fragment, String.toList_ofList]
  exact encodeChars_of_lt fun c hc => (Uuid.of_mem_ofNat (List.mem_of_mem_take hc)).2

theorem identifierOf?_fragment {n k : Nat} (hn : n ≠ 0) :
    Identity.identifierOf? (encode (fragment n k)) = some (fragment n k) := by
  refine Uuid.identifierOf?_encode (fun c hc => ?_) ?_
  · rw [fragment, String.toList_ofList] at hc
    exact (Uuid.of_mem_ofNat (List.mem_of_mem_take hc)).1
  · have hlength := Uuid.length_toList_ofNat k
    rw [fragment, String.toList_ofList, ne_eq, List.take_eq_nil_iff, ← List.length_eq_zero_iff]
    omega

theorem fragment_ne {n k l : Nat} (hn : n < 36) : fragment n k ≠ Uuid.ofNat l := by
  intro heq
  have hlength := Uuid.length_toList_ofNat l
  rw [← heq, fragment, String.toList_ofList, List.length_take, Uuid.length_toList_ofNat] at hlength
  omega

section Room

variable {n : Nat}

theorem run_writeOnce_withRoomFor {m : Memory} {key : Key} {data : Bytes} (hne : data ≠ [])
    (h : m.Wrote key [] w.storage) :
    ∃ x m', (writeOnce key data : Attempt Bytes Key IoError Unit).run.run (withRoomFor n) w =
      (.error x, ⟨m', w.minted⟩) ∧ m.Wrote key (data.take n) m' := by
  refine ⟨⟨.storageFull, "no space left"⟩,
    (Memory.backend (.write key (data.take n)) w.storage).2, ?_, (h.of_write rfl).2⟩
  simp only [writeOnce, write, List.isEmpty_iff, if_neg hne]
  rfl

/-- A file that is made gets as many bytes as there is room for. -/
theorem run_putContent_withRoomFor {path : NativePath} {dir : Key} {name data : Bytes}
    (hkey : keyOf path = dir ++ [name]) (hne : data ≠ []) (hdir : w.storage.IsDirAt dir)
    (hnone : w.storage.get? (keyOf path) = none) :
    ∃ x m', (putContent path data : Attempt Bytes Key IoError Unit).run.run (withRoomFor n) w =
      (.error x, ⟨m', w.minted⟩) ∧ w.storage.Wrote (keyOf path) (data.take n) m' := by
  have hfree : ¬ w.storage.IsDirAt (keyOf path) := fun hthere => hthere.ne_none hnone
  obtain ⟨made, hcreate⟩ := Memory.exists_create hdir (hkey ▸ hfree)
  rw [← hkey] at hcreate
  have hmade : w.storage.Wrote (keyOf path) [] made := by
    rw [Memory.eq_stamp_of_create hcreate]
    exact Memory.wrote_stamp w.storage (keyOf path) []
  have hrun : (create path : Attempt Bytes Key IoError Key).run.run (withRoomFor n) w =
      (.ok (keyOf path), ⟨made, w.minted⟩) := by
    have hreply : withRoomFor n (.create path) w.storage =
        w.storage.change (keyOf path) (w.storage.create (keyOf path)) := rfl
    rw [hcreate] at hreply
    simp only [create, ExceptT.run, Program.run, hreply, Memory.change]
  obtain ⟨x, m', hwrite, hwrote⟩ := run_writeOnce_withRoomFor (n := n)
    (w := ⟨made, w.minted⟩) hne hmade
  refine ⟨x, m', ?_, hwrote⟩
  rw [putContent, Attempt.run_bind, hrun]
  dsimp only
  rw [Attempt.run_bind, hwrite]

theorem run_folderId_withRoomFor {dir : NativePath} (hdir : w.storage.IsDirAt (keyOf dir))
    (hnone : w.storage.get? (keyOf (Identity.markerPath dir)) = none) :
    ∃ x m', (Identity.folderId dir : Attempt Bytes Key IoError String).run.run (withRoomFor n) w =
        (.error x, ⟨m', w.minted + 1⟩) ∧
      w.storage.Wrote (keyOf (Identity.markerPath dir))
        ((encode (Uuid.ofNat w.minted)).take n) m' := by
  have hread : (Identity.readMarker dir : Attempt Bytes Key IoError _).run.run (withRoomFor n) w =
      (.ok none, w) := by
    have hopen : (openRead (Identity.markerPath dir) : Attempt Bytes Key IoError Bytes).run.run
        (withRoomFor n) w = (w.storage.openRead (keyOf (Identity.markerPath dir)), w) := rfl
    refine (Program.run_bind _ (contentOf (Identity.markerPath dir)).run _ w).trans ?_
    rw [contentOf, Attempt.run_bind, hopen, Memory.openRead, hnone]
    rfl
  have hne : encode (Uuid.ofNat w.minted) ≠ [] := by
    rw [← List.length_pos_iff, Uuid.length_encode_ofNat]
    decide
  obtain ⟨x, m', hput, hwrote⟩ := run_putContent_withRoomFor (n := n)
    (w := { w with minted := w.minted + 1 }) (Identity.keyOf_markerPath dir) hne hdir hnone
  refine ⟨x, m', ?_, hwrote⟩
  rw [Identity.run_folderId_of_none hread, Identity.writeMarker, hput]
  rfl

end Room

/-- The first load of a directory leaves as much of its marker as there is room for. -/
theorem run_loadNode_withRoomFor (hdir : w.storage.IsDirAt (key d))
    (hnone : w.storage.get? (markerKey (clean d)) = none) (n : Nat) :
    ∃ m', ((loadNode d none).run.run (withRoomFor n) w).2 = ⟨m', w.minted + 1⟩ ∧
      w.storage.Wrote (markerKey (clean d)) (encode (fragment n w.minted)) m' := by
  have hdir' : w.storage.IsDirAt (keyOf (nativePath (clean d))) := by
    rw [keyOf_nativePath]
    exact hdir
  rw [← keyOf_markerPath_nativePath] at hnone ⊢
  obtain ⟨x, m', hfolder, hwrote⟩ := run_folderId_withRoomFor (n := n) hdir' hnone
  refine ⟨m', ?_, encode_fragment n w.minted ▸ hwrote⟩
  obtain ⟨md, hrun⟩ := run_loadNode_of_isDirAt (withRoomFor n) (fun _ _ => rfl) hdir
  rw [identify, if_neg Bool.false_ne_true, Attempt.run_map, about, Attempt.run_withError,
    hfolder] at hrun
  rw [hrun]

/-- Loads of a directory without a marker, with calls that are refused and writes that stop short,
give identifiers that were minted in the course of them, exactly if no write stops within an
identifier. -/
theorem loads_give_minted_iff (hdir : w.storage.IsDirAt (key d))
    (hnone : w.storage.get? (markerKey (clean d)) = none) :
    (∀ (w₁ w₂ : World Memory) (knownLeaf : Option Bool) (node : Node),
      Relation.ReflTransGen (LoadedOnce stops d) w w₁ →
      (loadNode d knownLeaf).run.Runs (stopping stops) w₁ (.ok node) w₂ →
      ∃ k, w.minted ≤ k ∧ k < w₂.minted ∧ node.identifier = Uuid.ofNat k) ↔
      ∀ n, stops n → n = 0 ∨ 36 ≤ n := by
  constructor
  · intro hall n hn
    by_contra hwithin
    rw [not_or, Nat.not_le] at hwithin
    -- What the first load leaves in the marker is what the second one gives.
    obtain ⟨m', hfirst, hwrote⟩ := run_loadNode_withRoomFor hdir hnone n
    have hdir' : m'.IsDirAt (key d) := hwrote.isDirAt hdir (key_ne_markerKey d)
    have hheld : held? m' (markerKey (clean d)) = some (fragment n w.minted) := by
      obtain ⟨t, hfile⟩ := hwrote.file
      rw [held?_of_file hfile, identifierOf?_fragment hwithin.1]
    obtain ⟨node, minted, hsecond, hid⟩ := run_loadNode_of_held
      (w := ⟨m', w.minted + 1⟩) hdir' hheld
    have hloaded : LoadedOnce stops d w ⟨m', w.minted + 1⟩ := by
      have hruns := runs_withRoomFor hn (loadNode d none).run w
      rw [hfirst] at hruns
      exact ⟨none, _, hruns⟩
    have hruns := Program.runs_run_of_answers (stopping_backend stops) (loadNode d none).run
      ⟨m', w.minted + 1⟩
    rw [hsecond] at hruns
    obtain ⟨k, -, -, hk⟩ := hall _ _ _ _ (.single hloaded) hruns
    exact fragment_ne hwithin.2 (hid.symm.trans hk)
  · intro hstops w₁ w₂ knownLeaf node hloads hruns
    have hmints := (Mints.of_none hdir hnone).of_loads hstops hloads
    exact (hmints.of_identified ((ensures_loadNode_stopping hmints.dir).of_runs_ok hruns)).2

section Example

theorem key_d : key "/d" = [encode "d"] := by
  rw [key_eq]
  decide

theorem markerKey_d : markerKey (clean "/d") = [encode "d", encode markerName] := by
  rw [markerKey, ← key, key_d]
  rfl

/-- A directory without a marker, on a storage on which a write is done or not. -/
theorem loads_give_minted_allOrNothing :
    (chain [encode "d"]).IsDirAt (key "/d") ∧
      (chain [encode "d"]).get? (markerKey (clean "/d")) = none ∧
      ((∀ (w₁ w₂ : World Memory) (knownLeaf : Option Bool) (node : Node),
        Relation.ReflTransGen (LoadedOnce (· = 0) "/d") ⟨chain [encode "d"], 0⟩ w₁ →
        (loadNode "/d" knownLeaf).run.Runs (stopping (· = 0)) w₁ (.ok node) w₂ →
        ∃ k, 0 ≤ k ∧ k < w₂.minted ∧ node.identifier = Uuid.ofNat k) ↔
        ∀ n, n = 0 → n = 0 ∨ 36 ≤ n) := by
  have hdir : (chain [encode "d"]).IsDirAt (key "/d") := by
    rw [key_d]
    exact isDirAt_chain _
  have hnone : (chain [encode "d"]).get? (markerKey (clean "/d")) = none := by
    rw [markerKey_d]
    rfl
  exact ⟨hdir, hnone, loads_give_minted_iff (w := ⟨chain [encode "d"], 0⟩) hdir hnone⟩

/-- A directory without a marker, and a write of it that stops after fourteen bytes. -/
theorem loads_give_fragment :
    let first := (loadNode "/d" none).run.run (withRoomFor 14) ⟨chain [encode "d"], 0⟩
    let second := (loadNode "/d" none).run.run Memory.backend first.2
    (chain [encode "d"]).WellFormed ∧
      LoadedOnce (fun _ => True) "/d" ⟨chain [encode "d"], 0⟩ first.2 ∧
      LoadedOnce (fun _ => True) "/d" first.2 second.2 ∧
      ∃ node, second.1 = .ok node ∧ node.identifier = "00000000-0000-" ∧
        ∀ k, node.identifier ≠ Uuid.ofNat k := by
  intro first second
  have hid : second.1.toOption.map Node.identifier = some "00000000-0000-" := by
    decide +kernel
  have hfirst : LoadedOnce (fun _ => True) "/d" ⟨chain [encode "d"], 0⟩ first.2 :=
    ⟨none, first.1, runs_withRoomFor trivial _ _⟩
  have hsecond : LoadedOnce (fun _ => True) "/d" first.2 second.2 :=
    ⟨none, second.1, Program.runs_run_of_answers (stopping_backend _) _ _⟩
  refine ⟨by decide, hfirst, hsecond, ?_⟩
  cases hres : second.1 with
  | error x =>
    rw [hres] at hid
    cases hid
  | ok node =>
    rw [hres] at hid
    have hnode : node.identifier = "00000000-0000-" := Option.some.inj hid
    refine ⟨node, rfl, hnode, fun k hk => ?_⟩
    have hlength := Uuid.length_toList_ofNat k
    rw [← hk, hnode] at hlength
    exact absurd hlength (by decide)

end Example

end Endpoint

end SyncEndpoint
