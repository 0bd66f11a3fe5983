import SyncEndpoint.Proofs.Storage.Frame

set_option autoImplicit false

/-! # What calls leave alone

What is kept here of a storage in memory is that a certain file is there, with a certain content.
`Call.Spares` says of a call that it is about something else, and such a call keeps the file. What is
read of such a file, and how it comes to be there, is said by one rule for each program on whole
files. -/

namespace SyncEndpoint.Storage

open NativePath (IsName)

/-! ## A file in memory -/

namespace Memory

variable {m m' : Memory} {key : Key} {data : Bytes} {c : Call Bytes Key}

/-- A file with this content is at the key, and directories are above it. -/
structure IsFileAt (m : Memory) (key : Key) (data : Bytes) : Prop where
  above : ∀ k, k <+: key → k ≠ key → m.IsDirAt k
  file : ∃ t, m.get? key = some (.file data t)

theorem openRead_eq_ok_iff : m.openRead key = .ok data ↔ ∃ t, m.get? key = some (.file data t) := by
  unfold openRead
  cases m.get? key with
  | none => simp
  | some entry => cases entry <;> simp

theorem WellFormed.isFileAt (h : m.WellFormed) {t : Timestamp}
    (hget : m.get? key = some (.file data t)) : m.IsFileAt key data where
  above := fun k => h.isDirAt_above (by simp [hget])
  file := ⟨t, hget⟩

theorem IsFileAt.eq (h : m.IsFileAt key data) {data' : Bytes} (h' : m.IsFileAt key data') :
    data = data' := by
  obtain ⟨t, hget⟩ := h.file
  obtain ⟨t', hget'⟩ := h'.file
  cases hget.symm.trans hget'
  rfl

theorem IsFileAt.ne_none (h : m.IsFileAt key data) {k : Key} (hk : k <+: key) :
    m.get? k ≠ none := by
  by_cases heq : k = key
  · obtain ⟨t, hget⟩ := h.file
    simp [heq, hget]
  · exact (h.above k hk heq).ne_none

/-- Only the keys on the way to a file matter for it. -/
theorem IsFileAt.congr (h : m.IsFileAt key data) (hget : ∀ k, k <+: key → m'.get? k = m.get? k) :
    m'.IsFileAt key data where
  above := by
    intro k hk hne
    rw [IsDirAt, hget k hk]
    exact h.above k hk hne
  file := by
    rw [hget key (List.prefix_refl _)]
    exact h.file

/-- Another place, where no directory is, is not on the way to the file. -/
theorem IsFileAt.ne_of_above (h : m.IsFileAt key data) {k k' : Key} (hne : k ≠ key)
    (hfree : ¬ m.IsDirAt k) (hk' : k' <+: key) : k' ≠ k := by
  rintro rfl
  exact hfree (h.above k' hk' hne)

theorem IsFileAt.stamp (h : m.IsFileAt key data) {k : Key} (hne : k ≠ key)
    (hfree : ¬ m.IsDirAt k) (stamped : Timestamp → Entry) : (m.stamp k stamped).IsFileAt key data :=
  h.congr fun k' hk' => (get?_stamp m k k' stamped).trans (if_neg (h.ne_of_above hne hfree hk'))

theorem eq_stamp_of_create (h : m.create key = .ok m') : m' = m.stamp key (.file []) := by
  rw [create] at h
  cases hparent : m.requireParent key with
  | error x =>
    rw [hparent] at h
    cases h
  | ok u =>
    rw [hparent] at h
    cases hget : m.get? key with
    | none =>
      simp only [hget] at h
      cases h
      rfl
    | some entry =>
      cases entry <;> simp only [hget] at h <;> cases h
      rfl

/-- A file that is made in a tree is empty. -/
theorem WellFormed.isFileAt_of_create (h : m.WellFormed) (hnames : ∀ name ∈ key, IsName name)
    (hcreate : m.create key = .ok m') : m'.IsFileAt key [] := by
  refine ((filed_of_create hcreate).wellFormed h hnames).isFileAt (t := m.now) ?_
  rw [eq_stamp_of_create hcreate, get?_stamp, if_pos rfl]

theorem isFileAt_stamp (habove : ∀ k, k <+: key → k ≠ key → m.IsDirAt k) (data : Bytes) :
    (m.stamp key (.file data)).IsFileAt key data where
  above := by
    intro k hk hne
    rw [IsDirAt, get?_stamp, if_neg hne]
    exact habove k hk hne
  file := ⟨m.now, by rw [get?_stamp, if_pos rfl]⟩

/-- What is written goes to the end of the file. -/
theorem IsFileAt.append (h : m.IsFileAt key data) {bytes : Bytes}
    (happend : m.append key bytes = .ok m') : m'.IsFileAt key (data ++ bytes) := by
  obtain ⟨old, t, hget, rfl⟩ := exists_file_of_append happend
  obtain ⟨t', hfile⟩ := h.file
  cases hget.symm.trans hfile
  exact isFileAt_stamp h.above _

theorem IsFileAt.exists_append (h : m.IsFileAt key data) (bytes : Bytes) :
    ∃ m', m.append key bytes = .ok m' := by
  obtain ⟨t, hget⟩ := h.file
  exact ⟨m.stamp key (.file (data ++ bytes)), by rw [Memory.append, hget]⟩

/-- A file can be made in a directory, where no directory is. -/
theorem exists_create {dir : Key} {name : Bytes} (hdir : m.IsDirAt dir)
    (hfree : ¬ m.IsDirAt (dir ++ [name])) : ∃ m', m.create (dir ++ [name]) = .ok m' := by
  have hparent : m.requireParent (dir ++ [name]) = .ok () := by
    rw [requireParent, (parentKey?_eq_some_iff _ _).mpr ⟨name, rfl⟩]
    exact (requireDir_eq_ok_iff m dir).mpr hdir
  refine ⟨m.stamp (dir ++ [name]) (.file []), ?_⟩
  rw [create, hparent]
  cases hget : m.get? (dir ++ [name]) with
  | none => rfl
  | some entry =>
    cases entry with
    | dir t => exact absurd ⟨t, hget⟩ hfree
    | file old t => rfl

theorem not_isDirAt_of_file {k : Key} {t : Timestamp} (h : m.get? k = some (.file data t)) :
    ¬ m.IsDirAt k := by
  rintro ⟨t', hdir⟩
  cases h.symm.trans hdir

theorem exists_file_of_openWrite {k : Key} (h : m.openWrite k = .ok m') :
    ∃ old t, m.get? k = some (.file old t) ∧ m' = m.stamp k (.file []) := by
  unfold openWrite at h
  split at h
  · next old t hget =>
    cases h
    exact ⟨old, t, hget, rfl⟩
  · cases h
  · cases h

end Memory

/-- The call is about something else than the entry at a key or a directory above it. -/
def Call.Spares (key : Key) : Call Bytes Key → Prop
  | .create path | .openWrite path => keyOf path ≠ key
  | .removeAll path => ¬ keyOf path <+: key
  | .rename source target => ¬ keyOf source <+: key ∧ ¬ keyOf target <+: key
  | .write writer _ => writer ≠ key
  | _ => True

namespace Memory

variable {m m' : Memory} {key : Key} {data : Bytes} {c : Call Bytes Key}

/-- What is not at or below the key that is removed stays. -/
theorem get?_of_removeAll_of_not_below {k : Key} (h : m.removeAll key = .ok m')
    (hk : ¬ key <+: k) (hne : m.get? k ≠ none) : m'.get? k = m.get? k := by
  have hrest := get?_filter_not_prefix m key k
  rw [if_neg hk] at hrest
  rw [Memory.removeAll] at h
  split at h
  · cases h
  · dsimp only at h
    split at h
    · cases h
      exact hrest
    · next hroot =>
      cases h
      rw [get?_stamp, if_neg]
      · exact hrest
      · rintro rfl
        exact hne (hrest.symm.trans hroot)

/-- A call that is about something else leaves the file alone. -/
theorem IsFileAt.backend (h : m.IsFileAt key data) (hc : c.Spares key) :
    (backend c m).2.IsFileAt key data := by
  cases c with
  | create path =>
    refine inv_change (IsFileAt · key data) h fun m' hm' => ?_
    obtain ⟨-, hfree, written, hwrote⟩ := filed_of_create hm'
    exact h.congr fun k hk => hwrote.others k (h.ne_of_above hc hfree hk)
  | openWrite path =>
    refine inv_change (IsFileAt · key data) h fun m' hm' => ?_
    obtain ⟨old, t, hget, rfl⟩ := exists_file_of_openWrite hm'
    exact h.stamp hc (not_isDirAt_of_file hget) _
  | createDirAll path =>
    refine h.congr fun k hk => ?_
    cases hget : m.get? k with
    | none => exact absurd hget (h.ne_none hk)
    | some e => exact (m.createDirAll_grown (keyOf path)).kept k e hget
  | removeAll path =>
    refine inv_change (IsFileAt · key data) h fun m' hm' => h.congr fun k hk => ?_
    exact get?_of_removeAll_of_not_below hm' (fun hpre => hc (hpre.trans hk)) (h.ne_none hk)
  | rename source target =>
    refine inv_change (IsFileAt · key data) h fun m' hm' => h.congr fun k hk => ?_
    by_cases hsame : keyOf source = keyOf target
    · rw [rename, if_pos hsame] at hm'
      cases hm'
      rfl
    · obtain ⟨entry, hrenamed⟩ := renamed_of_eq_ok hsame hm'
      rw [hrenamed.get?_eq, if_neg, if_neg]
      · rintro rfl
        exact hc.1 hk
      · rintro rfl
        exact hc.2 hk
  | write writer written =>
    have hkept : (m.change () (m.append writer written)).2.IsFileAt key data := by
      refine inv_change (IsFileAt · key data) h fun m' hm' => ?_
      obtain ⟨old, t, hget, rfl⟩ := exists_file_of_append hm'
      exact h.stamp hc (not_isDirAt_of_file hget) _
    exact hkept
  | _ => exact h

end Memory

theorem Call.Spares.keeps {key : Key} {data : Bytes} {c : Call Bytes Key} (hc : c.Spares key) :
    c.Keeps Memory.backend (Memory.IsFileAt · key data) := by
  cases c with
  | write writer written => exact fun n m h => h.backend (c := .write writer (written.take n)) hc
  | _ => exact fun m h => h.backend hc

/-- Any call may be refused, but none in such a way that something seems to be missing. -/
def Refusal.noticed {R W : Type} : Refusal R W :=
  ⟨fun _ x => x.kind ≠ .notFound, fun _ _ _ => True⟩

/-! ## Reading -/

section Reading

variable {refusal : Refusal Bytes Key} {w : World Memory} {ok : Bytes → World Memory → Prop}
  {failed : IoError → World Memory → Prop} {reader : Bytes}

theorem ensures_read {n : Nat} {ok : Bytes × Bytes → World Memory → Prop}
    (hok : ok (reader.take n, reader.drop n) w) (hrefused : ∀ c x, refusal.call c x → failed x w) :
    Ensures (unreliable Memory.backend refusal) w (read reader n) ok failed := by
  rintro reply s (hdone | ⟨x, href, rfl, rfl⟩)
  · cases hdone
    exact hok
  · exact hrefused _ x href

/-- Reading on to the end of an open file, with enough calls. -/
theorem ensures_foldChunks {n : Nat} {before : Bytes} (hn : reader.length < n)
    (hok : ok (before ++ reader) w) (hrefused : ∀ c x, refusal.call c x → failed x w) :
    Ensures (unreliable Memory.backend refusal) w (foldChunks (· ++ ·) n before reader) ok failed := by
  induction n generalizing before reader with
  | zero => exact absurd hn (Nat.not_lt_zero _)
  | succ n ih =>
    rw [foldChunks, Ensures.bind_iff]
    refine ensures_read ?_ hrefused
    dsimp only
    split
    · next hempty =>
      rw [List.isEmpty_iff, List.take_eq_nil_iff] at hempty
      obtain rfl : reader = [] := hempty.resolve_left (by decide)
      rw [List.append_nil] at hok
      exact hok
    · next hmore =>
      rw [List.isEmpty_iff, List.take_eq_nil_iff, not_or] at hmore
      refine ih ?_ ?_
      · have hpos := List.length_pos_iff.mpr hmore.2
        have hchunk : 0 < chunkSize := by decide
        rw [List.length_drop]
        omega
      · rw [List.append_assoc, List.take_append_drop]
        exact hok

/-- Reading a file gives its content, if nothing is refused on the way. -/
theorem ensures_contentOf {path : NativePath}
    (hok : ∀ data t, w.storage.get? (keyOf path) = some (.file data t) → ok data w)
    (hfailed : ∀ x, w.storage.openRead (keyOf path) = .error x → failed x w)
    (hrefused : ∀ c x, refusal.call c x → failed x w) :
    Ensures (unreliable Memory.backend refusal) w (contentOf path) ok failed := by
  have hread (data : Bytes) (hdata : ok data w) :
      Ensures (unreliable Memory.backend refusal) w (readToEnd data) ok failed := by
    refine Ensures.bind_iff.mpr ?_
    rintro left s hleft
    cases hleft
    exact ensures_foldChunks (Nat.lt_succ_self _) hdata hrefused
  rw [contentOf, Ensures.bind_iff]
  rintro reply s (hdone | ⟨x, href, rfl, rfl⟩)
  · cases hopen : w.storage.openRead (keyOf path) with
    | error x =>
      rw [Memory.backend, hopen] at hdone
      cases hdone
      exact hfailed x hopen
    | ok data =>
      rw [Memory.backend, hopen] at hdone
      cases hdone
      obtain ⟨t, hget⟩ := Memory.openRead_eq_ok_iff.mp hopen
      exact hread data (hok data t hget)
  · exact hrefused _ x href

/-- What is written goes to the end of a file, or else there is an error. -/
theorem ensures_writeOnce {key : Key} {before data : Bytes} (h : w.storage.IsFileAt key before) :
    Ensures (unreliable Memory.backend refusal) w (writeOnce key data)
      (fun _ w' => w'.storage.IsFileAt key (before ++ data)) fun _ _ => True := by
  refine Program.every_bind.mpr ?_
  unfold write
  split
  · next hempty =>
    rw [List.isEmpty_iff] at hempty
    rw [hempty, List.append_nil]
    exact h
  · rintro ⟨result, writer⟩ s (hdone | ⟨x, -, rfl, -⟩)
    · cases happend : w.storage.append key data with
      | error x =>
        rw [Memory.backend, happend] at hdone
        cases hdone
        trivial
      | ok m =>
        rw [Memory.backend, happend] at hdone
        cases hdone
        exact h.append happend
    · trivial

/-- A file that is written holds what was to be written. -/
theorem ensures_putContent {path : NativePath} {data : Bytes} (h : w.storage.WellFormed) :
    Ensures (unreliable Memory.backend refusal) w (putContent path data)
      (fun _ w' => w'.storage.IsFileAt (keyOf path) data) fun _ _ => True := by
  have hcreate : Ensures (unreliable Memory.backend refusal) w (create path)
      (fun writer w' => writer = keyOf path ∧ w'.storage.IsFileAt (keyOf path) [])
      fun _ _ => True := by
    rintro reply s (hdone | ⟨x, -, rfl, rfl⟩)
    · cases hresult : w.storage.create (keyOf path) with
      | error x =>
        rw [Memory.backend, hresult] at hdone
        cases hdone
        trivial
      | ok m =>
        rw [Memory.backend, hresult] at hdone
        cases hdone
        exact ⟨rfl, h.isFileAt_of_create isName_of_mem_keyOf hresult⟩
    · trivial
  rw [putContent, Ensures.bind_iff]
  refine hcreate.mono ?_ fun _ _ _ => trivial
  rintro writer w' ⟨rfl, hempty⟩
  rw [Ensures.bind_iff]
  refine (ensures_writeOnce hempty).mono (fun _ w'' hwritten => ?_) fun _ _ _ => trivial
  rintro reply s (hdone | ⟨x, -, rfl, rfl⟩)
  · cases hdone
    exact hwritten
  · trivial

end Reading

/-! ## Attempts that spare a file -/

/-- An attempt leaves the file at a key alone, whatever calls are refused. -/
abbrev KeepsFile {ε α : Type} (refusal : Refusal Bytes Key) (key : Key) (data : Bytes)
    (x : Attempt Bytes Key ε α) (result : α → Prop) : Prop :=
  Keeps (unreliable Memory.backend refusal) (Memory.IsFileAt · key data) x result

/-- Writing another file. -/
theorem keepsFile_putContent {refusal : Refusal Bytes Key} {key : Key} {data written : Bytes}
    {path : NativePath} (h : keyOf path ≠ key) :
    KeepsFile refusal key data (putContent path written) fun _ => True := by
  have hcreate : Call.Spares key (.create path) := h
  have hwrite : Call.Spares key (.write (keyOf path) written) := h
  exact keeps_putContent hcreate.keeps hwrite.keeps

end SyncEndpoint.Storage
