import SyncEndpoint.Proofs.Endpoint.Identity
import SyncEndpoint.Proofs.Storage.Spared

set_option autoImplicit false

/-! # Calls for one identifier, side by side

Programs that share a storage take turns, one call each time, in any order (`Race`). If several of them
ask for the identifier of the same directory while it has no marker, each may mint one and write it.
To make a file empties it, and to write to it adds to its end, so what is left in the marker are all
identifiers that were written after the marker was made for the last time. It is a single one exactly if
there was only one such write (`race_benign_iff`). -/

namespace SyncEndpoint

open Text.Utf8

namespace Storage

variable {σ R W α : Type}

/-! ## Taking turns -/

/-- Makes the next call of a program, or mints what it asks for. -/
def Program.advance (backend : Backend σ R W) :
    Program R W α → World σ → Program R W α × World σ
  | .done a, w => (.done a, w)
  | .call c next, w =>
    (next (backend c w.storage).1, { w with storage := (backend c w.storage).2 })
  | .mint next, w => (next (Uuid.ofNat w.minted), { w with minted := w.minted + 1 })

/-- The call that a program makes next, if it is to make one. -/
def Program.nextCall? : Program R W α → Option (Call R W)
  | .call c _ => some c
  | _ => none

/-- Programs on one storage, and the calls that they have made so far. -/
structure Race (σ R W α : Type) where
  world : World σ
  callers : List (Program R W α)
  calls : List (Call R W)

namespace Race

/-- It is the turn of one of the programs. -/
def step (backend : Backend σ R W) (r : Race σ R W α) (i : Nat) : Race σ R W α :=
  match r.callers[i]? with
  | none => r
  | some p =>
    { world := (p.advance backend r.world).2
      callers := r.callers.set i (p.advance backend r.world).1
      calls := r.calls ++ p.nextCall?.toList }

/-- The programs take turns in the given order. -/
def run (backend : Backend σ R W) (r : Race σ R W α) (schedule : List Nat) : Race σ R W α :=
  schedule.foldl (step backend) r

/-- All programs have ended. -/
def Finished (r : Race σ R W α) : Prop :=
  ∀ p ∈ r.callers, ∃ a, p = .done a

end Race

/-- A turn is the first part of a run. -/
theorem Program.run_advance (backend : Backend σ R W) (p : Program R W α) (w : World σ) :
    (p.advance backend w).1.run backend (p.advance backend w).2 = p.run backend w := by
  cases p <;> rfl

/-- A program that has all the turns comes to the same end as if it runs alone. -/
theorem Race.run_alone (backend : Backend σ R W) {p : Program R W α} {w : World σ}
    {calls : List (Call R W)} {n : Nat} {a : α}
    (h : (Race.run backend ⟨w, [p], calls⟩ (List.replicate n 0)).callers = [.done a]) :
    p.run backend w = (a, (Race.run backend ⟨w, [p], calls⟩ (List.replicate n 0)).world) := by
  induction n generalizing p w calls with
  | zero =>
    obtain rfl : p = .done a := List.singleton_inj.mp h
    rfl
  | succ n ih =>
    rw [← p.run_advance]
    exact ih h

end Storage

namespace Identity

open Storage

variable {dir : NativePath}

/-! ## Stages of a call -/

/-- What is left to do once it is clear that there is no identifier. -/
def mintMarker (dir : NativePath) : Program Bytes Key (Except IoError String) :=
  .mint fun id => (do writeMarker dir id; pure id : Attempt Bytes Key IoError String).run

/-- What is left to do once the marker has been read. -/
def afterReading (dir : NativePath) :
    Except IoError Bytes → Program Bytes Key (Except IoError String)
  | .ok content =>
    match identifierOf? content with
    | some id => .done (.ok id)
    | none => mintMarker dir
  | .error x => if x.kind = .notFound then mintMarker dir else .done (.error x)

theorem folderId_eq (dir : NativePath) : (folderId dir : Attempt Bytes Key IoError String).run =
    (contentOf (markerPath dir)).run.bind (afterReading dir) := by
  refine (Program.bind_assoc _ _ _).trans (congrArg _ (funext fun res => ?_))
  cases res with
  | ok content =>
    dsimp only [afterReading]
    cases identifierOf? content <;> rfl
  | error x =>
    dsimp only [afterReading]
    split <;> rfl

/-- How far a call for an identifier has come. Identifiers are given by the numbers that they are
minted from. -/
inductive Stage where
  | opening
  | measuring (reader : Bytes)
  | reading (fuel : Nat) (before reader : Bytes)
  | minting
  | making (n : Nat)
  | writing (n : Nat)
  | closing (n : Nat)
  | done (id : String)

namespace Stage

/-- What is left to do. -/
def program (dir : NativePath) : Stage → Program Bytes Key (Except IoError String)
  | opening => (folderId dir).run
  | measuring reader => (readToEnd reader).run.bind (afterReading dir)
  | reading fuel before reader =>
    (foldChunks (· ++ ·) (fuel + 1) before reader).run.bind (afterReading dir)
  | minting => mintMarker dir
  | making n =>
    (do writeMarker dir (Uuid.ofNat n)
        pure (Uuid.ofNat n) : Attempt Bytes Key IoError String).run
  | writing n =>
    (do writeOnce (keyOf (markerPath dir)) (encode (Uuid.ofNat n))
        shutdown (keyOf (markerPath dir))
        pure (Uuid.ofNat n) : Attempt Bytes Key IoError String).run
  | closing n =>
    (do shutdown (keyOf (markerPath dir))
        pure (Uuid.ofNat n) : Attempt Bytes Key IoError String).run
  | done id => .done (.ok id)

/-- No call that has come only so far has found or made a marker. -/
def Early : Stage → Prop
  | opening | minting | making _ => True
  | _ => False

/-- What follows on the content of a marker. -/
def afterContent (content : Bytes) : Stage :=
  match identifierOf? content with
  | some id => done id
  | none => minting

theorem program_afterContent (content : Bytes) :
    (afterContent content).program dir = afterReading dir (.ok content) := by
  rw [afterContent, afterReading]
  cases identifierOf? content <;> rfl

end Stage

/-- The text that comes of writing identifiers one behind the other. -/
def joined (ns : List Nat) : String :=
  String.ofList (ns.flatMap fun n => (Uuid.ofNat n).toList)

theorem encode_joined (ns : List Nat) :
    encode (joined ns) = ns.flatMap fun n => encode (Uuid.ofNat n) := by
  rw [encode, joined, String.toList_ofList, encodeChars, List.flatMap_assoc]
  rfl

theorem encode_joined_concat (ns : List Nat) (n : Nat) :
    encode (joined (ns ++ [n])) = encode (joined ns) ++ encode (Uuid.ofNat n) := by
  simp only [encode_joined, List.flatMap_append, List.flatMap_singleton]

theorem length_encode_joined (ns : List Nat) : (encode (joined ns)).length = 36 * ns.length := by
  induction ns with
  | nil => rfl
  | cons n ns ih =>
    rw [encode_joined] at ih
    rw [encode_joined, List.flatMap_cons, List.length_append, ih, Uuid.length_encode_ofNat,
      List.length_cons]
    omega

theorem identifierOf?_encode_joined {ns : List Nat} (h : ns ≠ []) :
    identifierOf? (encode (joined ns)) = some (joined ns) := by
  refine Uuid.identifierOf?_encode (fun c hc => ?_) fun hnil => ?_
  · rw [joined, String.toList_ofList, List.mem_flatMap] at hc
    obtain ⟨n, -, hc⟩ := hc
    exact (Uuid.of_mem_ofNat hc).1
  · have hlength := length_encode_joined ns
    rw [encode, hnil] at hlength
    have := List.length_pos_iff.mpr h
    simp only [encodeChars_nil, List.length_nil] at hlength
    omega

/-! ## One turn -/

/-- The identifiers that were written to the marker since it was made for the last time, if it was
made. -/
abbrev Written := Option (List Nat)

/-- How a call goes on in its turn, and what becomes of the marker. -/
inductive Moves : Stage → Written → Stage → Written → Prop
  | missing : Moves .opening none .minting none
  | opened (ns : List Nat) : Moves .opening (some ns) (.measuring (encode (joined ns))) (some ns)
  | measured (reader : Bytes) (ns? : Written) :
    Moves (.measuring reader) ns? (.reading reader.length [] reader) ns?
  | read (fuel : Nat) (before reader before' reader' : Bytes) (ns? : Written) :
    Moves (.reading (fuel + 1) before reader) ns? (.reading fuel before' reader') ns?
  | found (fuel : Nat) (before reader : Bytes) (id : String) (ns? : Written) :
    Moves (.reading fuel before reader) ns? (.done id) ns?
  | blank (fuel : Nat) (before reader : Bytes) (ns? : Written) :
    Moves (.reading fuel before reader) ns? .minting ns?
  | minted (n : Nat) (ns? : Written) : Moves .minting ns? (.making n) ns?
  | made (n : Nat) (ns? : Written) : Moves (.making n) ns? (.writing n) (some [])
  | wrote (n : Nat) (ns : List Nat) : Moves (.writing n) (some ns) (.closing n) (some (ns ++ [n]))
  | closed (n : Nat) (ns? : Written) : Moves (.closing n) ns? (.done (Uuid.ofNat n)) ns?
  | ended (id : String) (ns? : Written) : Moves (.done id) ns? (.done id) ns?

theorem moves_afterContent (fuel : Nat) (before reader content : Bytes) (ns? : Written) :
    Moves (.reading fuel before reader) ns? (.afterContent content) ns? := by
  rw [Stage.afterContent]
  cases identifierOf? content with
  | none => exact .blank ..
  | some id => exact .found ..

/-- The marker is there with what was written to it, or it is missing with nothing in its way. -/
def MarkerIs (m : Memory) (key : Key) : Written → Prop
  | none => m.get? key = none ∧ ∀ k, k <+: key → k ≠ key → m.IsDirAt k
  | some ns => m.IsFileAt key (encode (joined ns))

section Marker

variable {m : Memory} {above : Key} {name : Bytes} {ns? : Written}

/-- A marker can always be made; if it is there, it is emptied. -/
theorem MarkerIs.create (h : MarkerIs m (above ++ [name]) ns?) :
    ∃ m', m.create (above ++ [name]) = .ok m' ∧ MarkerIs m' (above ++ [name]) (some []) := by
  have hclear : ¬ m.IsDirAt (above ++ [name]) ∧
      ∀ k, k <+: above ++ [name] → k ≠ above ++ [name] → m.IsDirAt k := by
    cases ns? with
    | none => exact ⟨fun hdir => hdir.ne_none h.1, h.2⟩
    | some ns =>
      obtain ⟨t, hget⟩ := h.file
      exact ⟨Memory.not_isDirAt_of_file hget, h.above⟩
  obtain ⟨m', hm'⟩ := Memory.exists_create (hclear.2 above (List.prefix_append _ _) (by simp))
    hclear.1
  refine ⟨m', hm', ?_⟩
  rw [Memory.eq_stamp_of_create hm']
  exact Memory.isFileAt_stamp hclear.2 []

theorem MarkerIs.append {key : Key} {ns : List Nat} (h : MarkerIs m key (some ns)) (n : Nat) :
    ∃ m', m.append key (encode (Uuid.ofNat n)) = .ok m' ∧
      MarkerIs m' key (some (ns ++ [n])) := by
  obtain ⟨m', hm'⟩ := Memory.IsFileAt.exists_append h (encode (Uuid.ofNat n))
  refine ⟨m', hm', ?_⟩
  rw [MarkerIs, encode_joined_concat]
  exact Memory.IsFileAt.append h hm'

end Marker

/-- What was written since a file was made for the last time, as far as it is seen from a call. -/
def note : Option (List Bytes) → Call Bytes Key → Option (List Bytes)
  | _, .create _ => some []
  | written, .write _ data => written.map (· ++ [data])
  | written, _ => written

/-- The bytes of a list of minted identifiers. -/
def texts (ns : List Nat) : List Bytes :=
  ns.map fun n => encode (Uuid.ofNat n)

section Turn

-- What follows on a content is known by its equation; to compute it is of no use here.
attribute [local irreducible] afterReading

variable {w : World Memory} {ns? : Written}

theorem advance_opening_of_file {reader : Bytes}
    (h : w.storage.openRead (keyOf (markerPath dir)) = .ok reader) :
    (Stage.opening.program dir).advance Memory.backend w =
      ((Stage.measuring reader).program dir, w) := by
  have hcall : Memory.backend (.openRead (markerPath dir)) w.storage = (.ok reader, w.storage) := by
    rw [Memory.backend, h]
  have hprogram : Stage.opening.program dir = .call (.openRead (markerPath dir)) fun reply =>
      (ExceptT.bindCont readToEnd reply).bind (afterReading dir) := folderId_eq dir
  rw [hprogram, Program.advance, hcall]
  rfl

theorem advance_opening_of_missing
    (h : w.storage.get? (keyOf (markerPath dir)) = none) :
    (Stage.opening.program dir).advance Memory.backend w = (Stage.minting.program dir, w) := by
  have hcall : Memory.backend (.openRead (markerPath dir)) w.storage =
      (.error (Memory.notFound (keyOf (markerPath dir))), w.storage) := by
    rw [Memory.backend, Memory.openRead, h]
  have hprogram : Stage.opening.program dir = .call (.openRead (markerPath dir)) fun reply =>
      (ExceptT.bindCont readToEnd reply).bind (afterReading dir) := folderId_eq dir
  have hafter : afterReading dir (.error (Memory.notFound (keyOf (markerPath dir)))) =
      mintMarker dir := by
    rw [afterReading, Memory.notFound, if_pos rfl]
  rw [hprogram, Program.advance, hcall]
  exact congrArg (·, w) hafter

theorem advance_reading (dir : NativePath) (w : World Memory) (ns? : Written) (fuel : Nat)
    (before reader : Bytes) :
    ∃ s, ((Stage.reading fuel before reader).program dir).advance Memory.backend w =
        (s.program dir, w) ∧ Moves (.reading fuel before reader) ns? s ns? := by
  have hprogram : (Stage.reading fuel before reader).program dir =
      .call (.read reader chunkSize) fun reply =>
        (ExceptT.bindCont (fun x : Bytes × Bytes =>
          if x.1.isEmpty then pure before else foldChunks (· ++ ·) fuel (before ++ x.1) x.2)
          reply).bind (afterReading dir) := rfl
  have hend (content : Bytes) : Program.bind (pure content : Attempt Bytes Key IoError Bytes)
      (afterReading dir) = (Stage.afterContent content).program dir := by
    rw [Stage.program_afterContent]
    rfl
  have hcall : Memory.backend (.read reader chunkSize) w.storage =
      (.ok (reader.take chunkSize, reader.drop chunkSize), w.storage) := rfl
  rw [hprogram, Program.advance, hcall]
  dsimp only [ExceptT.bindCont]
  split
  · exact ⟨.afterContent before, by rw [hend], moves_afterContent ..⟩
  · cases fuel with
    | zero =>
      rw [foldChunks]
      exact ⟨.afterContent (before ++ reader.take chunkSize), by rw [hend], moves_afterContent ..⟩
    | succ fuel => exact ⟨.reading fuel _ _, rfl, .read ..⟩

theorem advance_making {n : Nat} {m : Memory}
    (h : w.storage.create (keyOf (markerPath dir)) = .ok m) :
    ((Stage.making n).program dir).advance Memory.backend w =
      ((Stage.writing n).program dir, { w with storage := m }) := by
  have hprogram : (Stage.making n).program dir = .call (.create (markerPath dir)) fun reply =>
      ExceptT.bindCont (fun writer => do
        writeOnce writer (encode (Uuid.ofNat n))
        shutdown writer
        pure (Uuid.ofNat n) : Key → Attempt Bytes Key IoError String) reply := by
    rw [Stage.program, writeMarker, putContent]
    simp only [bind_assoc]
    rfl
  have hcall : Memory.backend (.create (markerPath dir)) w.storage =
      (.ok (keyOf (markerPath dir)), m) := by
    rw [Memory.backend, h]
    rfl
  rw [hprogram, Program.advance, hcall]
  rfl

theorem program_writing (n : Nat) : (Stage.writing n).program dir =
    .call (.write (keyOf (markerPath dir)) (encode (Uuid.ofNat n))) fun reply =>
      ExceptT.bindCont (fun _ => do
        shutdown (keyOf (markerPath dir))
        pure (Uuid.ofNat n) : Unit → Attempt Bytes Key IoError String) reply.1 := by
  have hne : ¬ (encode (Uuid.ofNat n)).isEmpty := by
    rw [List.isEmpty_iff_length_eq_zero, Uuid.length_encode_ofNat]
    decide
  rw [Stage.program, writeOnce, write, if_neg hne]
  rfl

theorem advance_writing {n : Nat} {m : Memory}
    (h : w.storage.append (keyOf (markerPath dir)) (encode (Uuid.ofNat n)) = .ok m) :
    ((Stage.writing n).program dir).advance Memory.backend w =
      ((Stage.closing n).program dir, { w with storage := m }) := by
  have hcall : Memory.backend (.write (keyOf (markerPath dir)) (encode (Uuid.ofNat n))) w.storage =
      ((.ok (), keyOf (markerPath dir)), m) := by
    rw [Memory.backend, h]
    rfl
  rw [program_writing, Program.advance, hcall]
  rfl

/-- In its turn a call goes on to its next stage, and what has become of the marker is seen from
the call that it makes. -/
theorem exists_moves (s : Stage) (hearly : ns? = none → s.Early)
    (h : MarkerIs w.storage (keyOf (markerPath dir)) ns?) :
    ∃ s' ns'? w', (s.program dir).advance Memory.backend w = (s'.program dir, w') ∧
      MarkerIs w'.storage (keyOf (markerPath dir)) ns'? ∧ Moves s ns? s' ns'? ∧
      (s.program dir).nextCall?.toList.foldl note (ns?.map texts) = ns'?.map texts := by
  cases s with
  | opening =>
    cases ns? with
    | none => exact ⟨.minting, none, w, advance_opening_of_missing h.1, h, .missing, rfl⟩
    | some ns =>
      have hopen := Memory.openRead_eq_ok_iff.mpr h.file
      exact ⟨_, some ns, w, advance_opening_of_file hopen, h, .opened ns, rfl⟩
  | measuring reader => exact ⟨.reading reader.length [] reader, ns?, w, rfl, h, .measured .., rfl⟩
  | reading fuel before reader =>
    obtain ⟨s', hadvance, hmoves⟩ := advance_reading dir w ns? fuel before reader
    exact ⟨s', ns?, w, hadvance, h, hmoves, rfl⟩
  | minting =>
    exact ⟨.making w.minted, ns?, { w with minted := w.minted + 1 }, rfl, h, .minted .., rfl⟩
  | making n =>
    rw [keyOf_markerPath] at h
    obtain ⟨m', hcreate, hm'⟩ := h.create
    rw [← keyOf_markerPath] at hcreate hm'
    exact ⟨.writing n, some [], { w with storage := m' }, advance_making hcreate, hm', .made ..,
      rfl⟩
  | writing n =>
    cases ns? with
    | none => exact (hearly rfl).elim
    | some ns =>
      obtain ⟨m', happend, hm'⟩ := h.append n
      refine ⟨.closing n, some (ns ++ [n]), { w with storage := m' }, advance_writing happend, hm',
        .wrote .., ?_⟩
      rw [program_writing]
      simp [Program.nextCall?, note, texts]
  | closing n => exact ⟨.done (Uuid.ofNat n), ns?, w, rfl, h, .closed .., rfl⟩
  | done id => exact ⟨.done id, ns?, w, rfl, h, .ended .., rfl⟩

end Turn

/-! ## All calls together -/

/-- What the stages of all calls say of the marker: until it is made nobody has come far, whoever has
emptied it is about to write, and what was written will be or was returned. -/
structure Consistent (stages : List Stage) (ns? : Written) : Prop where
  early : ns? = none → ∀ s ∈ stages, s.Early
  pending : ns? = some [] → ∃ n, .writing n ∈ stages
  returned : ∀ ns, ns? = some ns → ∀ n ∈ ns,
    .closing n ∈ stages ∨ .done (Uuid.ofNat n) ∈ stages

section Moves

variable {s s' : Stage} {ns? ns'? : Written}

theorem Moves.early (h : Moves s ns? s' none) : ns? = none ∧ (s.Early → s'.Early) := by
  cases h with
  | missing | minted | measured | read | found | blank | closed | ended => simp [Stage.Early]

theorem Moves.pending (h : Moves s ns? s' ns'?) (hempty : ns'? = some []) :
    (∃ n, s' = .writing n) ∨ ns? = some [] ∧ ∀ n, s ≠ .writing n := by
  cases h with
  | made n => exact Or.inl ⟨n, rfl⟩
  | wrote n ns => simp at hempty
  | _ => exact Or.inr ⟨hempty, fun _ => nofun⟩

/-- What is written to the marker stays there until it is made again, and whoever wrote it goes on to
return it. -/
theorem Moves.returned (h : Moves s ns? s' ns'?) {ns : List Nat} (hns : ns'? = some ns) {n : Nat}
    (hn : n ∈ ns) : s' = .closing n ∨ (∃ ns₀, ns? = some ns₀ ∧ n ∈ ns₀) ∧
      (s = .closing n ∨ s = .done (Uuid.ofNat n) → s' = .done (Uuid.ofNat n)) := by
  cases h with
  | missing => cases hns
  | made =>
    cases hns
    cases hn
  | wrote n' ns₀ =>
    cases hns
    rcases List.mem_append.mp hn with hold | hnew
    · exact Or.inr ⟨⟨ns₀, rfl, hold⟩, by simp⟩
    · rw [List.mem_singleton] at hnew
      exact Or.inl (hnew ▸ rfl)
  | closed n' =>
    refine Or.inr ⟨⟨ns, hns, hn⟩, ?_⟩
    rintro (heq | heq)
    · cases heq
      rfl
    · cases heq
  | ended id => exact Or.inr ⟨⟨ns, hns, hn⟩, by simp⟩
  | _ => exact Or.inr ⟨⟨ns, hns, hn⟩, by simp⟩

end Moves

/-- What is elsewhere in a list stays when one of its entries is replaced. -/
theorem mem_set_of_ne {α : Type} {l : List α} {i : Nat} {a b c : α} (h : a ∈ l)
    (hget : l[i]? = some b) (hne : a ≠ b) : a ∈ l.set i c := by
  obtain ⟨j, hj⟩ := List.mem_iff_getElem?.mp h
  refine List.mem_iff_getElem?.mpr ⟨j, ?_⟩
  rw [List.getElem?_set_ne, hj]
  rintro rfl
  exact hne (Option.some.inj (hj.symm.trans hget))

theorem mem_set_self {α : Type} {l : List α} {i : Nat} {b c : α} (hget : l[i]? = some b) :
    c ∈ l.set i c := by
  obtain ⟨hi, -⟩ := List.getElem?_eq_some_iff.mp hget
  exact List.mem_iff_getElem?.mpr ⟨i, by rw [List.getElem?_set_self hi]⟩

/-- A turn of one call keeps what the stages of all calls say of the marker. -/
theorem Consistent.move {stages : List Stage} {ns? ns'? : Written} (h : Consistent stages ns?)
    {i : Nat} {s s' : Stage} (hget : stages[i]? = some s) (hmoves : Moves s ns? s' ns'?) :
    Consistent (stages.set i s') ns'? where
  early := by
    rintro rfl t ht
    obtain ⟨hnone, hearly⟩ := hmoves.early
    rcases List.mem_or_eq_of_mem_set ht with hold | rfl
    · exact h.early hnone t hold
    · exact hearly (h.early hnone s (List.mem_of_getElem? hget))
  pending := by
    intro hempty
    rcases hmoves.pending hempty with ⟨n, rfl⟩ | ⟨hempty, hne⟩
    · exact ⟨n, mem_set_self hget⟩
    · obtain ⟨n, hn⟩ := h.pending hempty
      exact ⟨n, mem_set_of_ne hn hget (hne n).symm⟩
  returned := by
    intro ns hns n hn
    rcases hmoves.returned hns hn with rfl | ⟨⟨ns₀, hns₀, hold⟩, hgoes⟩
    · exact Or.inl (mem_set_self hget)
    · by_cases hs : s = .closing n ∨ s = .done (Uuid.ofNat n)
      · exact Or.inr (hgoes hs ▸ mem_set_self hget)
      · rw [not_or] at hs
        exact (h.returned ns₀ hns₀ n hold).imp (mem_set_of_ne · hget (Ne.symm hs.1))
          (mem_set_of_ne · hget (Ne.symm hs.2))

/-- Any number of calls for the identifier of a directory, after their turns. -/
def race (dir : NativePath) (callers : Nat) (w : World Memory) (schedule : List Nat) :
    Race Memory Bytes Key (Except IoError String) :=
  Race.run Memory.backend ⟨w, List.replicate callers (folderId dir).run, []⟩ schedule

/-- What was written to the file that was made last, call by call. -/
def writtenSince (calls : List (Call Bytes Key)) : Option (List Bytes) :=
  calls.foldl note none

/-- Each call is at a stage, and the marker is as these say. -/
structure Racing (dir : NativePath) (stages : List Stage) (ns? : Written)
    (r : Race Memory Bytes Key (Except IoError String)) : Prop where
  callers : r.callers = stages.map (Stage.program dir)
  marker : MarkerIs r.world.storage (keyOf (markerPath dir)) ns?
  calls : writtenSince r.calls = ns?.map texts
  consistent : Consistent stages ns?

theorem Racing.step {stages : List Stage} {ns? : Written}
    {r : Race Memory Bytes Key (Except IoError String)} (h : Racing dir stages ns? r) (i : Nat) :
    ∃ stages' ns'?, stages'.length = stages.length ∧
      Racing dir stages' ns'? (r.step Memory.backend i) := by
  rw [Race.step]
  cases hp : r.callers[i]? with
  | none => exact ⟨stages, ns?, rfl, h⟩
  | some p =>
    rw [h.callers, List.getElem?_map, Option.map_eq_some_iff] at hp
    obtain ⟨s, hget, rfl⟩ := hp
    have hearly (hnone : ns? = none) : s.Early :=
      h.consistent.early hnone s (List.mem_of_getElem? hget)
    obtain ⟨s', ns'?, w', hadvance, hmarker, hmoves, hnote⟩ := exists_moves s hearly h.marker
    refine ⟨stages.set i s', ns'?, List.length_set, ?_⟩
    dsimp only
    rw [hadvance]
    exact {
      callers := by
        rw [h.callers, List.map_set]
      marker := hmarker
      calls := by
        rw [writtenSince, List.foldl_append, ← writtenSince, h.calls, hnote]
      consistent := h.consistent.move hget hmoves }

theorem Racing.run {stages : List Stage} {ns? : Written}
    {r : Race Memory Bytes Key (Except IoError String)} (h : Racing dir stages ns? r)
    (schedule : List Nat) : ∃ stages' ns'?, stages'.length = stages.length ∧
      Racing dir stages' ns'? (r.run Memory.backend schedule) := by
  induction schedule generalizing stages ns? r with
  | nil => exact ⟨stages, ns?, rfl, h⟩
  | cons i schedule ih =>
    obtain ⟨stages₁, ns₁, hlength₁, h₁⟩ := h.step i
    obtain ⟨stages₂, ns₂, hlength₂, h₂⟩ := ih h₁
    exact ⟨stages₂, ns₂, hlength₂.trans hlength₁, h₂⟩

theorem Stage.eq_done_of_program {s : Stage} {res : Except IoError String}
    (h : s.program dir = .done res) : ∃ id, s = .done id := by
  cases s with
  | done id => exact ⟨id, rfl⟩
  | writing n =>
    rw [program_writing] at h
    cases h
  | _ => cases h

/-- What a marker is read as is what its content stands for. -/
theorem run_readMarker_of_isFileAt {w : World Memory} {data : Bytes}
    (h : w.storage.IsFileAt (keyOf (markerPath dir)) data) :
    (readMarker dir).run.run Memory.backend w = (.ok (identifierOf? data), w) := by
  rw [← Failures.backend_calm, Failures.run_readMarker, Failures.marker, Failures.content,
    Memory.openRead_eq_ok_iff.mpr h.file]
  rfl

/-- Once there is an identifier in the marker, it is what a call returns. -/
theorem run_folderId_of_isFileAt {w : World Memory} {data : Bytes} {id : String}
    (h : w.storage.IsFileAt (keyOf (markerPath dir)) data) (hid : identifierOf? data = some id) :
    (folderId dir).run.run Memory.backend w = (.ok id, w) := by
  rw [folderId, Attempt.run_bind, run_readMarker_of_isFileAt h, hid]
  rfl

section Results

variable {w : World Memory} {callers : Nat} {schedule : List Nat}

theorem racing_start (h : w.storage.WellFormed) (hdir : w.storage.IsDirAt (keyOf dir))
    (hmissing : w.storage.get? (keyOf (markerPath dir)) = none) (callers : Nat) :
    Racing dir (List.replicate callers .opening) none
      ⟨w, List.replicate callers (folderId dir).run, []⟩ where
  callers := by
    rw [List.map_replicate]
    rfl
  marker := by
    refine ⟨hmissing, fun k hk hne => ?_⟩
    rw [keyOf_markerPath] at hk hne
    have hpre : k <+: keyOf dir := (List.prefix_concat_iff.mp hk).resolve_left hne
    by_cases heq : k = keyOf dir
    · exact heq ▸ hdir
    · exact h.isDirAt_above hdir.ne_none hpre heq
  calls := rfl
  consistent :=
    { early := fun _ s hs => List.eq_of_mem_replicate hs ▸ trivial
      pending := nofun
      returned := nofun }

/-- Nobody fails, and in the end the marker holds what was written since it was made for the last time:
one or more of the identifiers that were returned, one behind the other. They are taken for a single
identifier from then on. -/
theorem marker_after_race (h : w.storage.WellFormed) (hdir : w.storage.IsDirAt (keyOf dir))
    (hmissing : w.storage.get? (keyOf (markerPath dir)) = none) (hcallers : 0 < callers)
    (hfinished : (race dir callers w schedule).Finished) :
    (∀ p ∈ (race dir callers w schedule).callers, ∃ id, p = .done (.ok id)) ∧
    ∃ ns, ns ≠ [] ∧ writtenSince (race dir callers w schedule).calls = some (texts ns) ∧
      (∀ n ∈ ns, .done (.ok (Uuid.ofNat n)) ∈ (race dir callers w schedule).callers) ∧
      (race dir callers w schedule).world.storage.IsFileAt (keyOf (markerPath dir))
        (encode (joined ns)) ∧
      (folderId dir).run.run Memory.backend (race dir callers w schedule).world =
        (.ok (joined ns), (race dir callers w schedule).world) := by
  obtain ⟨stages, ns?, hlength, hrace⟩ := (racing_start h hdir hmissing callers).run schedule
  rw [← race] at hrace
  have hdone : ∀ s ∈ stages, ∃ id, s = .done id := by
    intro s hs
    obtain ⟨res, hres⟩ := hfinished _ (hrace.callers ▸ List.mem_map_of_mem hs)
    exact Stage.eq_done_of_program hres
  refine ⟨fun p hp => ?_, ?_⟩
  · rw [hrace.callers, List.mem_map] at hp
    obtain ⟨s, hs, rfl⟩ := hp
    obtain ⟨id, rfl⟩ := hdone s hs
    exact ⟨id, rfl⟩
  · cases ns? with
    | none =>
      -- Somebody has come to an end, which nobody does without a marker.
      rw [List.length_replicate] at hlength
      obtain ⟨s, hs⟩ := List.exists_mem_of_length_pos (hlength ▸ hcallers)
      obtain ⟨id, rfl⟩ := hdone s hs
      exact (hrace.consistent.early rfl _ hs).elim
    | some ns =>
      have hne : ns ≠ [] := by
        rintro rfl
        obtain ⟨n, hn⟩ := hrace.consistent.pending rfl
        obtain ⟨id, hid⟩ := hdone _ hn
        cases hid
      refine ⟨ns, hne, hrace.calls, fun n hn => ?_, hrace.marker,
        run_folderId_of_isFileAt hrace.marker (identifierOf?_encode_joined hne)⟩
      rcases hrace.consistent.returned ns rfl n hn with hclosing | hreturned
      · obtain ⟨id, hid⟩ := hdone _ hclosing
        cases hid
      · rw [hrace.callers]
        exact List.mem_map_of_mem hreturned

/-- The identifier is that of the marker, for whoever asks later. -/
def MarkerGives (dir : NativePath) (w : World Memory) (id : String) : Prop :=
  w.storage.IsFileAt (keyOf (markerPath dir)) (encode id) ∧
    (folderId dir).run.run Memory.backend w = (.ok id, w)

/-- However the calls for the identifier of a directory without a marker take turns, none of them
fails. Whoever asks later is given an identifier that was minted and returned by one of them exactly
if only one has been written to the marker since it was made for the last time. -/
theorem race_benign_iff (h : w.storage.WellFormed) (hdir : w.storage.IsDirAt (keyOf dir))
    (hmissing : w.storage.get? (keyOf (markerPath dir)) = none) (hcallers : 0 < callers)
    (hfinished : (race dir callers w schedule).Finished) :
    (∀ p ∈ (race dir callers w schedule).callers, ∃ id, p = .done (.ok id)) ∧
    ((∃ n, .done (.ok (Uuid.ofNat n)) ∈ (race dir callers w schedule).callers ∧
        MarkerGives dir (race dir callers w schedule).world (Uuid.ofNat n)) ↔
      ∃ data, writtenSince (race dir callers w schedule).calls = some [data]) := by
  obtain ⟨hok, ns, hne, hcalls, hreturned, hfile, hlater⟩ :=
    marker_after_race h hdir hmissing hcallers hfinished
  refine ⟨hok, ?_, ?_⟩
  · rintro ⟨n, -, hgives, -⟩
    have hlength : ns.length = 1 := by
      have hsame := congrArg List.length (hfile.eq hgives)
      rw [length_encode_joined, Uuid.length_encode_ofNat] at hsame
      omega
    obtain ⟨n', rfl⟩ := List.length_eq_one_iff.mp hlength
    exact ⟨_, hcalls⟩
  · rintro ⟨data, hdata⟩
    rw [hcalls] at hdata
    have hlength : ns.length = 1 := by
      rw [← List.length_map (fun n => encode (Uuid.ofNat n)), ← texts, Option.some.inj hdata]
      rfl
    obtain ⟨n, rfl⟩ := List.length_eq_one_iff.mp hlength
    have hsingle : joined [n] = Uuid.ofNat n := by
      rw [joined, List.flatMap_singleton, String.ofList_toList]
    rw [hsingle] at hfile hlater
    exact ⟨n, hreturned n (List.mem_singleton_self n), hfile, hlater⟩

/-- Two calls on a storage with nothing but its root. -/
def twoCalls (schedule : List Nat) : Race Memory Bytes Key (Except IoError String) :=
  race (NativePath.ofString "/") 2 ⟨Memory.empty ⟨0, 0⟩, 0⟩ schedule

/-- The second makes the marker again when the first has come to its end. -/
theorem race_benign_inTurns :
    let r := twoCalls [0, 1, 0, 1, 0, 0, 0, 1, 1, 1]
    ∃ n, .done (.ok (Uuid.ofNat n)) ∈ r.callers ∧
      MarkerGives (NativePath.ofString "/") r.world (Uuid.ofNat n) := by
  have hcallers : (twoCalls [0, 1, 0, 1, 0, 0, 0, 1, 1, 1]).callers =
      [.done (.ok (Uuid.ofNat 0)), .done (.ok (Uuid.ofNat 1))] := by rfl
  have hcalls : writtenSince (twoCalls [0, 1, 0, 1, 0, 0, 0, 1, 1, 1]).calls =
      some [encode (Uuid.ofNat 1)] := by rfl
  have hfinished : (twoCalls [0, 1, 0, 1, 0, 0, 0, 1, 1, 1]).Finished := by
    rw [Race.Finished, hcallers]
    simp
  exact (race_benign_iff (Memory.wellFormed_empty _) ⟨⟨0, 0⟩, by decide⟩ (by decide) Nat.two_pos
    hfinished).2.mpr ⟨_, hcalls⟩

/-- Both write to the marker after it was made for the last time. So it holds none of the identifiers
that they return. -/
theorem race_writes_twice :
    let r := twoCalls [0, 1, 0, 1, 0, 1, 0, 1, 0, 1]
    r.callers = [.done (.ok (Uuid.ofNat 0)), .done (.ok (Uuid.ofNat 1))] ∧
      ∀ id, .done (.ok id) ∈ r.callers → ¬ MarkerGives (NativePath.ofString "/") r.world id := by
  have hcallers : (twoCalls [0, 1, 0, 1, 0, 1, 0, 1, 0, 1]).callers =
      [.done (.ok (Uuid.ofNat 0)), .done (.ok (Uuid.ofNat 1))] := by rfl
  have hget : (twoCalls [0, 1, 0, 1, 0, 1, 0, 1, 0, 1]).world.storage.get?
      (keyOf (markerPath (NativePath.ofString "/"))) =
        some (.file (encode (joined [0, 1])) ⟨0, 0⟩) := by decide +kernel
  refine ⟨hcallers, ?_⟩
  rintro id hid ⟨⟨-, t, hfile⟩, -⟩
  have hlength : (encode id).length = 36 := by
    rw [hcallers] at hid
    simp only [List.mem_cons, List.not_mem_nil, or_false, Program.done.injEq, Except.ok.injEq] at hid
    rcases hid with rfl | rfl <;> exact Uuid.length_encode_ofNat _
  have hdata : encode id = encode (joined [0, 1]) :=
    (Entry.file.inj (Option.some.inj (hfile.symm.trans hget))).1
  rw [hdata, length_encode_joined] at hlength
  cases hlength

end Results

end Identity

end SyncEndpoint
