import SyncEndpoint.Proofs.Storage.Listing
import SyncEndpoint.Proofs.Storage.Reading

set_option autoImplicit false

/-! # Chosen calls that fail

A storage in memory on which some calls always fail, chosen by what they do and by the key they are
about. A call that fails changes nothing. What reading and writing whole files comes to on such a
storage is computed here once and for all. -/

namespace SyncEndpoint.Storage

open Text.Utf8

/-! ## Written files -/

namespace Memory

variable {m m' : Memory} {dir : Key} {name data : Bytes}

/-- A tree after a file was written, whenever that was. -/
structure Wrote (m : Memory) (key : Key) (data : Bytes) (m' : Memory) : Prop where
  file : ∃ t, m'.get? key = some (.file data t)
  others : ∀ k, k ≠ key → m'.get? k = m.get? k
  unique : (m.entries.map Prod.fst).Nodup → (m'.entries.map Prod.fst).Nodup

theorem wrote_stamp (m : Memory) (key : Key) (data : Bytes) :
    m.Wrote key data (m.stamp key (.file data)) where
  file := ⟨m.now, (get?_stamp m key key _).trans (if_pos rfl)⟩
  others := fun k hk => (get?_stamp m key k _).trans (if_neg hk)
  unique := fun hunique => unique_insert hunique _ _

/-- Of two contents that are written to a file the second one counts. -/
theorem Wrote.trans {m₁ : Memory} {key : Key} {before : Bytes} (h : m.Wrote key before m₁)
    (h' : m₁.Wrote key data m') : m.Wrote key data m' where
  file := h'.file
  others := fun k hk => (h'.others k hk).trans (h.others k hk)
  unique := fun hunique => h'.unique (h.unique hunique)

/-- What is written is put in with some stamp. -/
theorem Wrote.exists_get?_eq_insert {key : Key} (h : m.Wrote key data m') :
    ∃ t, ∀ k, m'.get? k = (m.insert key (.file data t)).get? k := by
  obtain ⟨t, hfile⟩ := h.file
  refine ⟨t, fun k => ?_⟩
  rw [get?_insert]
  split
  · next heq => rw [heq, hfile]
  · next hne => exact h.others k hne

/-- A file that is written where no directory is keeps the tree well formed. -/
theorem Wrote.wellFormed (hwrote : m.Wrote (dir ++ [name]) data m') (h : m.WellFormed)
    (hdir : m.IsDirAt dir) (hname : NativePath.IsName name)
    (hfree : ¬ m.IsDirAt (dir ++ [name])) : m'.WellFormed := by
  obtain ⟨t, hget⟩ := hwrote.exists_get?_eq_insert
  exact (h.insert hdir hname fun hthere => absurd hthere hfree).of_get?_eq (hwrote.unique h.unique)
    hget

theorem Wrote.textual (hwrote : m.Wrote (dir ++ [name]) data m') (ht : m.Textual)
    (hdir : m.IsDirAt dir) (hname : ∃ text : String, name = encode text) : m'.Textual := by
  obtain ⟨t, hget⟩ := hwrote.exists_get?_eq_insert
  intro key hne
  rw [hget] at hne
  exact ht.insert hdir.ne_none hname _ key hne

end Memory

/-! ## Failures -/

/-- The calls that fail, and with what. -/
structure Failures where
  stat : Key → Option IoError := fun _ => none
  openRead : Key → Option IoError := fun _ => none
  create : Key → Option IoError := fun _ => none
  readDir : Key → Option IoError := fun _ => none
  /-- The look at an entry that is listed. -/
  entry : Key → Option IoError := fun _ => none

namespace Failures

/-- No call fails. -/
def calm : Failures := {}

/-- An answer, unless there is a failure in its place. -/
def guarded {α : Type} (failure : Option IoError) (answer : Except IoError α) : Except IoError α :=
  match failure with
  | some x => .error x
  | none => answer

/-- An entry of a directory as it is listed. -/
def look (f : Failures) (dir : Key) (l : Listed) : Listed :=
  match f.entry (dir ++ [encode l.name]) with
  | some x => { l with metadata := .error x }
  | none => l

/-- What there is to be seen of a directory. -/
def list (f : Failures) (m : Memory) (dir : Key) : Except IoError (List Listed) :=
  guarded (f.readDir dir) ((m.readDir dir).map (List.map (f.look dir)))

/-- What there is to be read in a file. -/
def content (f : Failures) (m : Memory) (key : Key) : Except IoError Bytes :=
  guarded (f.openRead key) (m.openRead key)

def backend (f : Failures) : Backend Memory Bytes Key
  | .stat path, m => (guarded (f.stat (keyOf path)) (m.stat (keyOf path)), m)
  | .openRead path, m => (f.content m (keyOf path), m)
  | .create path, m =>
    match f.create (keyOf path) with
    | some x => (.error x, m)
    | none => Memory.backend (.create path) m
  | .readDir path, m => (f.list m (keyOf path), m)
  | c, m => Memory.backend c m

theorem list_calm (m : Memory) (dir : Key) : calm.list m dir = m.readDir dir := by
  have hlook : List.map (calm.look dir) = id := funext fun ls => List.map_id' ls
  show (m.readDir dir).map (List.map (calm.look dir)) = m.readDir dir
  rw [hlook]
  cases m.readDir dir <;> rfl

theorem backend_calm : calm.backend = Memory.backend := by
  funext c m
  cases c with
  | readDir path => exact congrArg (·, m) (list_calm m (keyOf path))
  | _ => rfl

/-! ## Listings -/

variable {f : Failures} {m m' : Memory}

/-- What there is to be seen of a directory depends on it and on what is directly in it only. -/
theorem list_congr (h : m.WellFormed) (ht : m.Textual) (h' : m'.WellFormed) (ht' : m'.Textual)
    {dir : Key} (hself : m'.get? dir = m.get? dir)
    (hget : ∀ name, m'.get? (dir ++ [name]) = m.get? (dir ++ [name])) :
    f.list m' dir = f.list m dir := by
  unfold list
  rw [Memory.readDir_congr h ht h' ht' hself hget]

/-- Whether a directory can be listed depends on it only. -/
theorem list_eq_error_iff {dir : Key} {x : IoError} :
    f.list m dir = .error x ↔ guarded (f.readDir dir) (m.requireDir dir) = .error x := by
  unfold list Memory.readDir
  cases f.readDir dir <;> cases m.requireDir dir <;>
    simp [guarded, Except.map, bind, Except.bind, pure, Except.pure]

/-! ## Reading -/

theorem content_congr {key : Key} (h : m'.get? key = m.get? key) :
    f.content m' key = f.content m key := by
  unfold content Memory.openRead
  rw [h]

variable {w : World Memory} {path : NativePath}

/-- A file is given in chunks. -/
theorem delivers (f : Failures) (m : Memory) (data : Bytes) :
    ∃ pieces, pieces.flatten = data ∧ Delivers f.backend data m pieces (.ok ()) m := by
  induction hn : data.length using Nat.strongRecOn generalizing data with
  | ind n ih =>
    subst hn
    by_cases hdata : data = []
    · subst hdata
      exact ⟨[], rfl, .finished rfl⟩
    · have hpos := List.length_pos_iff.mpr hdata
      have hchunk : 0 < chunkSize := by decide
      have hne : data.take chunkSize ≠ [] := by
        rw [← List.length_pos_iff, List.length_take]
        omega
      have hlt : (data.drop chunkSize).length < data.length := by
        rw [List.length_drop]
        omega
      obtain ⟨pieces, hpieces, hrest⟩ := ih _ hlt _ rfl
      refine ⟨data.take chunkSize :: pieces, ?_, .piece hne rfl hrest⟩
      rw [List.flatten_cons, hpieces, List.take_append_drop]

/-- Reading in chunks is like reading all at once, if the reader of the chunks does not mind. -/
theorem run_foldReader {β : Type} {g : β → Bytes → β} (hnil : ∀ b, g b [] = b)
    (happend : ∀ b xs ys, g b (xs ++ ys) = g (g b xs) ys) (b : β) (data : Bytes) :
    (foldReader g b data).run.run f.backend w = (.ok (g b data), w) := by
  obtain ⟨pieces, rfl, hdelivers⟩ := delivers f w.storage data
  rw [hdelivers.run_foldReader rfl (Nat.le_refl _) b w.minted, foldl_eq_flatten hnil happend]
  rfl

theorem run_openRead :
    (Storage.openRead path : Attempt Bytes Key IoError Bytes).run.run f.backend w =
      (f.content w.storage (keyOf path), w) := rfl

theorem run_contentOf : (contentOf path : Attempt Bytes Key IoError Bytes).run.run f.backend w =
    (f.content w.storage (keyOf path), w) := by
  rw [contentOf, Attempt.run_bind, run_openRead]
  cases f.content w.storage (keyOf path) with
  | error x => rfl
  | ok data =>
    exact run_foldReader List.append_nil (fun b xs ys => (List.append_assoc b xs ys).symm) [] data

/-! ## Writing -/

section Writing

variable {data : Bytes} {dir : Key} {name : Bytes}

theorem run_create : (Storage.create path : Attempt Bytes Key IoError Key).run.run f.backend w =
    ((f.backend (.create path) w.storage).1,
      { w with storage := (f.backend (.create path) w.storage).2 }) := rfl

theorem requireParent_of_isDirAt (hkey : keyOf path = dir ++ [name]) (hdir : m.IsDirAt dir) :
    m.requireParent (keyOf path) = .ok () := by
  rw [hkey, Memory.requireParent_append]
  exact (Memory.requireDir_eq_ok_iff m dir).mpr hdir

theorem run_putContent_of_failure {x : IoError} (h : f.create (keyOf path) = some x) :
    (putContent path data : Attempt Bytes Key IoError Unit).run.run f.backend w =
      (.error x, w) := by
  rw [putContent, Attempt.run_bind, run_create]
  simp only [backend, h]

/-- A directory is not replaced by a file. -/
theorem run_putContent_of_isDirAt (h : f.create (keyOf path) = none)
    (hkey : keyOf path = dir ++ [name]) (hdir : w.storage.IsDirAt dir)
    (hthere : w.storage.IsDirAt (keyOf path)) :
    (putContent path data : Attempt Bytes Key IoError Unit).run.run f.backend w =
      (.error (Memory.isADirectory (keyOf path)), w) := by
  have hcreate : w.storage.create (keyOf path) = .error (Memory.isADirectory (keyOf path)) := by
    obtain ⟨t, ht⟩ := hthere
    rw [Memory.create, requireParent_of_isDirAt hkey hdir, ht]
    rfl
  rw [putContent, Attempt.run_bind, run_create]
  simp only [backend, h, Memory.backend, hcreate, Memory.change]

/-- Nothing is written where no directory is. -/
theorem run_putContent_of_not_isDirAt (data : Bytes) (hkey : keyOf path = dir ++ [name])
    (hdir : ¬ w.storage.IsDirAt dir) :
    ∃ x, (putContent path data : Attempt Bytes Key IoError Unit).run.run f.backend w =
      (.error x, w) := by
  cases h : f.create (keyOf path) with
  | some x => exact ⟨x, run_putContent_of_failure h⟩
  | none =>
    cases hparent : w.storage.requireParent (keyOf path) with
    | ok u =>
      rw [hkey, Memory.requireParent_append, Memory.requireDir_eq_ok_iff] at hparent
      exact absurd hparent hdir
    | error x =>
      have hcreate : w.storage.create (keyOf path) = .error x := by
        rw [Memory.create, hparent]
        rfl
      refine ⟨x, ?_⟩
      rw [putContent, Attempt.run_bind, run_create]
      simp only [backend, h, Memory.backend, hcreate, Memory.change]

/-- Writing to an empty file. -/
theorem run_writeOnce {key : Key} {t : Timestamp} (data : Bytes)
    (h : w.storage.get? key = some (.file [] t)) :
    ∃ m', (writeOnce key data : Attempt Bytes Key IoError Unit).run.run f.backend w =
      (.ok (), { w with storage := m' }) ∧ w.storage.Wrote key data m' := by
  by_cases hempty : data = []
  · -- Then there is no call.
    subst hempty
    exact ⟨w.storage, rfl, ⟨t, h⟩, fun _ _ => rfl, id⟩
  · have hwrite : w.storage.append key data = .ok (w.storage.stamp key (.file data)) := by
      rw [Memory.append, h]
      rfl
    refine ⟨w.storage.stamp key (.file data), ?_, Memory.wrote_stamp ..⟩
    simp only [writeOnce, write, List.isEmpty_iff, if_neg hempty, ExceptT.run, Program.bind,
      Program.run, backend, Memory.backend, hwrite, Memory.change]

/-- A file is made in a directory, or one is replaced. -/
theorem run_putContent (data : Bytes) (h : f.create (keyOf path) = none)
    (hkey : keyOf path = dir ++ [name]) (hdir : w.storage.IsDirAt dir)
    (hfree : ¬ w.storage.IsDirAt (keyOf path)) :
    ∃ m', (putContent path data : Attempt Bytes Key IoError Unit).run.run f.backend w =
      (.ok (), { w with storage := m' }) ∧ w.storage.Wrote (keyOf path) data m' := by
  set key := keyOf path with hkeyOf
  set made := w.storage.stamp key (.file []) with hmade
  have hcreate : w.storage.create key = .ok made := by
    rw [Memory.create, requireParent_of_isDirAt hkey hdir]
    cases hget : w.storage.get? key with
    | none => rfl
    | some e =>
      cases e with
      | dir t => exact absurd ⟨t, hget⟩ hfree
      | file old t => rfl
  rw [putContent, Attempt.run_bind, run_create]
  simp only [backend, ← hkeyOf, h, Memory.backend, hcreate, Memory.change]
  obtain ⟨m', hwrite, hwrote⟩ := run_writeOnce (f := f) (w := { w with storage := made }) data
    ((Memory.get?_stamp ..).trans (if_pos rfl))
  refine ⟨m', ?_, (Memory.wrote_stamp w.storage key []).trans hwrote⟩
  rw [Attempt.run_bind, hwrite]
  rfl

end Writing

end Failures

end SyncEndpoint.Storage
