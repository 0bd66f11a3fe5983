import Mathlib.Data.List.Nodup
import Mathlib.Data.List.Infix
import SyncEndpoint.Storage.Memory
import SyncEndpoint.Proofs.Path.Native

set_option autoImplicit false

/-! # The storage in memory as a tree

A storage in memory is a flat map, and nothing in its type makes it a tree. `WellFormed` says that
it is one: a directory at the root, and every other entry in a directory. Each change is described
by what it does to `get?`, and shown to keep the tree well formed where it does. -/

namespace SyncEndpoint.Storage

open NativePath (IsName)

@[simp]
theorem Entry.isDir_dir (modified : Timestamp) : (Entry.dir modified).isDir = true := rfl

@[simp]
theorem Entry.isDir_file (data : Bytes) (modified : Timestamp) :
    (Entry.file data modified).isDir = false := rfl

theorem Entry.isDir_metadata (entry : Entry) : entry.metadata.isDir = entry.isDir := by
  cases entry <;> rfl

namespace Memory

/-! ## The map -/

section Map

variable (m : Memory) (key k : Key) (entry : Entry)

theorem get?_erase : (m.erase key).get? k = if k = key then none else m.get? k := by
  simp only [get?, erase, List.find?_filter]
  by_cases hk : k = key
  · subst hk
    rw [if_pos rfl, List.find?_eq_none.mpr]
    · rfl
    · rintro ⟨k', e⟩ _
      simp
  · rw [if_neg hk]
    congr 2
    funext ⟨k', e⟩
    by_cases hk' : k' = k
    · subst hk'
      simp [hk]
    · simp [hk']

theorem get?_insert :
    (m.insert key entry).get? k = if k = key then some entry else m.get? k := by
  by_cases hk : k = key
  · subst hk
    simp [get?, insert]
  · have := get?_erase m key k
    rw [if_neg hk] at this ⊢
    rw [← this]
    have hne : (key == k) = false := by simpa using fun h => hk h.symm
    simp [get?, insert, hne]

/-- What is put in with a stamp is found like what is put in, and nothing else is. -/
theorem get?_stamp (k : Key) (stamped : Timestamp → Entry) :
    (m.stamp key stamped).get? k = if k = key then some (stamped m.now) else m.get? k :=
  m.get?_insert key k (stamped m.now)

theorem get?_eq_none_iff : m.get? key = none ↔ ∀ e, (key, e) ∉ m.entries := by
  rw [get?, Option.map_eq_none_iff, List.find?_eq_none]
  constructor
  · intro h e he
    simpa using h _ he
  · rintro h ⟨k', e⟩ he hk
    rw [beq_iff_eq] at hk
    subst hk
    exact h e he

theorem mem_entries_of_get? {e : Entry} (h : m.get? key = some e) : (key, e) ∈ m.entries := by
  rw [get?, Option.map_eq_some_iff] at h
  obtain ⟨⟨k', e'⟩, hfind, rfl⟩ := h
  have hk : k' = key := by simpa using List.find?_some hfind
  subst hk
  exact List.mem_of_find?_eq_some hfind

/-- If no key occurs twice, the entries are what `get?` finds. -/
theorem mem_entries_iff (hunique : (m.entries.map Prod.fst).Nodup) :
    (key, entry) ∈ m.entries ↔ m.get? key = some entry := by
  refine ⟨fun h => ?_, m.mem_entries_of_get? key⟩
  cases hget : m.get? key with
  | none => exact absurd h ((m.get?_eq_none_iff key).mp hget entry)
  | some e =>
    have hmem := m.mem_entries_of_get? key hget
    have heq : (key, entry) = (key, e) := List.inj_on_of_nodup_map hunique h hmem rfl
    rw [(Prod.mk.inj heq).2]

end Map

/-! ## Trees -/

/-- The key is that of a directory. -/
def IsDirAt (m : Memory) (key : Key) : Prop :=
  ∃ modified, m.get? key = some (.dir modified)

/-- A map that is a tree. -/
structure WellFormed (m : Memory) : Prop where
  /-- No key occurs twice. -/
  unique : (m.entries.map Prod.fst).Nodup
  /-- The root is a directory. -/
  root : m.IsDirAt []
  /-- What an entry lies in is a directory. -/
  parent : ∀ key name, m.get? (key ++ [name]) ≠ none → m.IsDirAt key
  /-- Keys are made of names. -/
  names : ∀ key, m.get? key ≠ none → ∀ name ∈ key, IsName name

/-- All names are UTF-8. -/
def Textual (m : Memory) : Prop :=
  ∀ key, m.get? key ≠ none → ∀ name ∈ key, ∃ text : String, name = Text.Utf8.encode text

theorem IsDirAt.ne_none {m : Memory} {key : Key} (h : m.IsDirAt key) : m.get? key ≠ none := by
  obtain ⟨modified, h⟩ := h
  simp [h]

/-- Everything above an entry is a directory. -/
theorem WellFormed.above {m : Memory} (h : m.WellFormed) {key : Key} {name : Bytes} {rest : Key}
    (hget : m.get? (key ++ name :: rest) ≠ none) : m.IsDirAt key := by
  induction rest using List.reverseRecOn with
  | nil => exact h.parent key name hget
  | append_singleton rest last ih =>
    rw [← List.cons_append, ← List.append_assoc] at hget
    exact ih (h.parent _ last hget).ne_none

theorem WellFormed.isDirAt_above {m : Memory} (h : m.WellFormed) {key above : Key}
    (hget : m.get? key ≠ none) (hpre : above <+: key) (hne : above ≠ key) : m.IsDirAt above := by
  obtain ⟨rest, rfl⟩ := hpre
  cases rest with
  | nil => exact absurd (List.append_nil above).symm hne
  | cons name rest => exact h.above hget

/-- Nothing lies below what is not a directory. -/
theorem WellFormed.get?_below {m : Memory} (h : m.WellFormed) {key : Key} (hkey : ¬ m.IsDirAt key)
    {name : Bytes} {rest : Key} : m.get? (key ++ name :: rest) = none := by
  by_contra hget
  exact hkey (h.above hget)

/-- If nothing lies directly in a directory, nothing lies below it. -/
theorem WellFormed.get?_of_no_children {m : Memory} (h : m.WellFormed) {key : Key}
    (hkey : ∀ name, m.get? (key ++ [name]) = none) {name : Bytes} {rest : Key} :
    m.get? (key ++ name :: rest) = none := by
  cases rest with
  | nil => exact hkey name
  | cons next rest =>
    rw [List.append_cons]
    refine h.get?_below fun hdir => ?_
    exact hdir.ne_none (hkey name)

/-- Whether a map is a tree is seen from what is found in it. -/
theorem WellFormed.of_get?_eq {m m' : Memory} (h : m.WellFormed)
    (hunique : (m'.entries.map Prod.fst).Nodup) (hget : ∀ k, m'.get? k = m.get? k) :
    m'.WellFormed where
  unique := hunique
  root := by
    rw [IsDirAt, hget]
    exact h.root
  parent := by
    intro key name hne
    rw [IsDirAt, hget]
    exact h.parent key name (hget _ ▸ hne)
  names := fun key hne => h.names key (hget key ▸ hne)

/-- The clock does not matter for a tree. -/
theorem WellFormed.of_entries_eq {m m' : Memory} (h : m.WellFormed) (heq : m'.entries = m.entries) :
    m'.WellFormed :=
  h.of_get?_eq (heq ▸ h.unique) fun k => by rw [get?, heq, get?]

/-! ## Checking for a tree -/

instance (m : Memory) (key : Key) : Decidable (m.IsDirAt key) :=
  match h : m.get? key with
  | some (.dir modified) => .isTrue ⟨modified, h⟩
  | some (.file data modified) => .isFalse fun ⟨t, ht⟩ => by simp [h] at ht
  | none => .isFalse fun ⟨t, ht⟩ => by simp [h] at ht

/-- A map is a tree if each of its entries fits into it. -/
theorem wellFormed_iff (m : Memory) :
    m.WellFormed ↔ (m.entries.map Prod.fst).Nodup ∧ m.IsDirAt [] ∧
      ∀ entry ∈ m.entries, (entry.1 = [] ∨ m.IsDirAt entry.1.dropLast) ∧
        ∀ name ∈ entry.1, IsName name := by
  constructor
  · rintro h
    refine ⟨h.unique, h.root, fun entry hentry => ?_⟩
    have hget : m.get? entry.1 ≠ none := by
      rw [(m.mem_entries_iff _ _ h.unique).mp hentry]
      simp
    refine ⟨?_, h.names _ hget⟩
    rcases List.eq_nil_or_concat' entry.1 with hnil | ⟨above, name, heq⟩
    · exact Or.inl hnil
    · rw [heq] at hget ⊢
      rw [List.dropLast_concat]
      exact Or.inr (h.parent above name hget)
  · rintro ⟨hunique, hroot, hentries⟩
    refine ⟨hunique, hroot, fun key name hget => ?_, fun key hget => ?_⟩
    · obtain ⟨e, he⟩ := Option.ne_none_iff_exists'.mp hget
      have hparent := (hentries _ (m.mem_entries_of_get? _ he)).1
      simpa using hparent
    · obtain ⟨e, he⟩ := Option.ne_none_iff_exists'.mp hget
      exact (hentries _ (m.mem_entries_of_get? _ he)).2

instance (m : Memory) : Decidable m.WellFormed :=
  decidable_of_iff' _ m.wellFormed_iff

theorem Textual.of_entries {m : Memory}
    (h : ∀ entry ∈ m.entries, ∀ name ∈ entry.1, ∃ text : String, name = Text.Utf8.encode text) :
    m.Textual := by
  intro key hget
  obtain ⟨e, he⟩ := Option.ne_none_iff_exists'.mp hget
  exact h _ (m.mem_entries_of_get? _ he)

theorem wellFormed_new (clock : Nat → Timestamp) : (new clock).WellFormed := by
  refine (wellFormed_iff _).mpr ⟨List.nodup_singleton _, ⟨clock 0, rfl⟩, ?_⟩
  intro entry hentry
  rw [List.mem_singleton.mp hentry]
  exact ⟨Or.inl rfl, by simp⟩

theorem wellFormed_empty (now : Timestamp) : (empty now).WellFormed :=
  wellFormed_new _

theorem textual_empty (now : Timestamp) : (empty now).Textual :=
  .of_entries (by simp [empty, new])

/-! ## Keys stay unique -/

theorem map_fst_erase (m : Memory) (key : Key) :
    (m.erase key).entries.map Prod.fst = (m.entries.map Prod.fst).filter (· != key) := by
  rw [List.filter_map]
  rfl

theorem unique_erase {m : Memory} (h : (m.entries.map Prod.fst).Nodup) (key : Key) :
    ((m.erase key).entries.map Prod.fst).Nodup := by
  rw [map_fst_erase]
  exact h.filter _

theorem unique_insert {m : Memory} (h : (m.entries.map Prod.fst).Nodup) (key : Key)
    (entry : Entry) : ((m.insert key entry).entries.map Prod.fst).Nodup := by
  rw [insert, List.map_cons, List.nodup_cons]
  refine ⟨?_, unique_erase h key⟩
  rw [map_fst_erase]
  simp

/-! ## Putting entries in -/

/-- An entry that is put into a directory keeps the tree well formed, unless a file takes the place
of a directory. -/
theorem WellFormed.insert {m : Memory} (h : m.WellFormed) {key : Key} {name : Bytes}
    (hparent : m.IsDirAt key) (hname : IsName name) {entry : Entry}
    (hentry : m.IsDirAt (key ++ [name]) → entry.isDir = true) :
    (m.insert (key ++ [name]) entry).WellFormed where
  unique := unique_insert h.unique _ _
  root := by
    obtain ⟨t, ht⟩ := h.root
    exact ⟨t, by rw [get?_insert, if_neg (by simp), ht]⟩
  parent := by
    intro k n hget
    rw [get?_insert] at hget
    have hdir : m.IsDirAt k := by
      split at hget
      · next heq =>
        rw [List.append_inj_left' heq rfl]
        exact hparent
      · exact h.parent k n hget
    obtain ⟨t, ht⟩ := hdir
    by_cases hk : k = key ++ [name]
    · have hisDir := hentry (hk ▸ ⟨t, ht⟩)
      cases entry with
      | dir modified => exact ⟨modified, by rw [get?_insert, if_pos hk]⟩
      | file data modified => cases hisDir
    · exact ⟨t, by rw [get?_insert, if_neg hk, ht]⟩
  names := by
    intro k hget n hn
    rw [get?_insert] at hget
    split at hget
    · next heq =>
      subst heq
      rcases List.mem_append.mp hn with hn | hn
      · exact h.names key hparent.ne_none n hn
      · rw [List.mem_singleton.mp hn]
        exact hname
    · exact h.names k hget n hn

theorem Textual.insert {m : Memory} (h : m.Textual) {key : Key} {name : Bytes}
    (hparent : m.get? key ≠ none) (hname : ∃ text : String, name = Text.Utf8.encode text)
    (entry : Entry) : (m.insert (key ++ [name]) entry).Textual := by
  intro k hget n hn
  rw [get?_insert] at hget
  split at hget
  · next heq =>
    subst heq
    rcases List.mem_append.mp hn with hn | hn
    · exact h key hparent n hn
    · rw [List.mem_singleton.mp hn]
      exact hname
  · exact h k hget n hn

theorem WellFormed.stamp {m : Memory} (h : m.WellFormed) {key : Key} {name : Bytes}
    (hparent : m.IsDirAt key) (hname : IsName name) {stamped : Timestamp → Entry}
    (hentry : m.IsDirAt (key ++ [name]) → (stamped m.now).isDir = true) :
    (m.stamp (key ++ [name]) stamped).WellFormed :=
  (h.insert hparent hname hentry).of_entries_eq rfl

/-! ## Making directories -/

/-- What is there stays, and only directories at or above `key` come to it. -/
structure Grown (m : Memory) (key : Key) (m' : Memory) : Prop where
  kept : ∀ k e, m.get? k = some e → m'.get? k = some e
  made : ∀ k e, m'.get? k = some e → m.get? k = some e ∨ m.get? k = none ∧ k <+: key ∧ ∃ t, e = .dir t

theorem Grown.refl (m : Memory) (key : Key) : m.Grown key m :=
  ⟨fun _ _ h => h, fun _ _ h => Or.inl h⟩

theorem Grown.mono {m m' : Memory} {key key' : Key} (h : m.Grown key m') (hkey : key <+: key') :
    m.Grown key' m' where
  kept := h.kept
  made := fun k e hget => (h.made k e hget).imp_right fun hnew =>
    ⟨hnew.1, hnew.2.1.trans hkey, hnew.2.2⟩

theorem Grown.isDirAt {m m' : Memory} {key k : Key} (h : m.Grown key m') (hk : m.IsDirAt k) :
    m'.IsDirAt k := by
  obtain ⟨t, ht⟩ := hk
  exact ⟨t, h.kept k _ ht⟩

/-- What is not at or above `key` stays as it is, missing or not. -/
theorem Grown.get?_eq {m m' : Memory} {key k : Key} (h : m.Grown key m') (hk : ¬ k <+: key) :
    m'.get? k = m.get? k := by
  cases hget : m.get? k with
  | some e => exact h.kept k e hget
  | none =>
    cases hget' : m'.get? k with
    | none => rfl
    | some e =>
      rcases h.made k e hget' with hold | ⟨_, hpre, _⟩
      · rw [hget] at hold
        cases hold
      · exact absurd hpre hk

/-- Files stay as they are, and none is made. -/
theorem Grown.get?_file_iff {m m' : Memory} {key k : Key} (h : m.Grown key m') {data : Bytes}
    {modified : Timestamp} :
    m'.get? k = some (.file data modified) ↔ m.get? k = some (.file data modified) := by
  refine ⟨fun hget => ?_, h.kept k _⟩
  rcases h.made k _ hget with hold | ⟨_, _, t, hdir⟩
  · exact hold
  · cases hdir

/-- A file is in the way of a directory at the key. -/
def Blocked (m : Memory) (key : Key) : Prop :=
  ∃ k data modified, k <+: key ∧ m.get? k = some (.file data modified)

theorem createDirs_grown (above : Key) (names : List Bytes) (m : Memory) :
    m.Grown (above ++ names) (createDirs above names m).2 := by
  induction names generalizing above m with
  | nil => exact .refl m _
  | cons name names ih =>
    have hkey : above ++ name :: names = (above ++ [name]) ++ names := List.append_cons above name names
    rw [createDirs, hkey]
    split
    · exact ih _ m
    · exact .refl m _
    · next hnone =>
      have hnext := ih (above ++ [name]) (m.stamp (above ++ [name]) .dir)
      refine ⟨fun k e hget => hnext.kept k e ?_, fun k e hget => ?_⟩
      · rw [get?_stamp, if_neg, hget]
        rintro rfl
        rw [hnone] at hget
        cases hget
      · -- What is there in the end was there, or is the new directory, or one of the rest.
        rcases hnext.made k e hget with hold | ⟨hnew, hpre, hdir⟩
        · rw [get?_stamp] at hold
          split at hold
          · next heq =>
            subst heq
            cases hold
            exact Or.inr ⟨hnone, List.prefix_append _ _, m.now, rfl⟩
          · exact Or.inl hold
        · rw [get?_stamp] at hnew
          split at hnew
          · cases hnew
          · exact Or.inr ⟨hnew, hpre, hdir⟩

/-- Making directories succeeds unless a file is in the way. -/
theorem createDirs_ok (above : Key) (names : List Bytes) (m : Memory)
    (h : ∀ k data modified, above <+: k → k <+: above ++ names →
      m.get? k ≠ some (.file data modified)) : (createDirs above names m).1 = .ok () := by
  induction names generalizing above m with
  | nil => rfl
  | cons name names ih =>
    have hkey : above ++ name :: names = (above ++ [name]) ++ names := List.append_cons above name names
    rw [hkey] at h
    rw [createDirs]
    split
    · refine ih _ m fun k data modified hk hk' => h k data modified ?_ hk'
      exact (List.prefix_append above [name]).trans hk
    · next data t hget =>
      exact absurd hget (h _ data t (List.prefix_append above [name]) (List.prefix_append _ names))
    · next hget =>
      refine ih _ _ fun k data modified hk hk' => ?_
      rw [get?_stamp]
      split
      · simp
      · exact h k data modified ((List.prefix_append above [name]).trans hk) hk'

/-- If making directories succeeds, they are there. -/
theorem createDirs_isDirAt (above : Key) (names : List Bytes) (m : Memory)
    (h : (createDirs above names m).1 = .ok ()) (habove : m.IsDirAt above) :
    (createDirs above names m).2.IsDirAt (above ++ names) := by
  induction names generalizing above m with
  | nil =>
    rw [List.append_nil]
    exact habove
  | cons name names ih =>
    rw [List.append_cons]
    rw [createDirs] at h ⊢
    split
    · next t hget =>
      simp only [hget] at h
      exact ih _ m h ⟨t, hget⟩
    · next data t hget =>
      simp only [hget] at h
      cases h
    · next hget =>
      simp only [hget] at h
      exact ih _ _ h ⟨m.now, by rw [get?_stamp, if_pos rfl]⟩

theorem createDirs_wellFormed (above : Key) (names : List Bytes) (m : Memory) (h : m.WellFormed)
    (habove : m.IsDirAt above) (hnames : ∀ name ∈ names, IsName name) :
    (createDirs above names m).2.WellFormed := by
  induction names generalizing above m with
  | nil => exact h
  | cons name names ih =>
    have hrest : ∀ n ∈ names, IsName n := fun n hn => hnames n (List.mem_cons_of_mem _ hn)
    rw [createDirs]
    split
    · next t hget => exact ih _ m h ⟨t, hget⟩ hrest
    · exact h
    · next hget =>
      refine ih _ _ (h.stamp habove (hnames name List.mem_cons_self) fun _ => rfl) ?_ hrest
      exact ⟨m.now, by rw [get?_stamp, if_pos rfl]⟩

theorem createDirAll_grown (m : Memory) (key : Key) : m.Grown key (m.createDirAll key).2 :=
  createDirs_grown [] key m

theorem createDirAll_ok {m : Memory} {key : Key} (h : ¬ m.Blocked key) :
    (m.createDirAll key).1 = .ok () :=
  createDirs_ok [] key m fun k data modified _ hk hget => h ⟨k, data, modified, hk, hget⟩

theorem WellFormed.createDirAll_isDirAt {m : Memory} (h : m.WellFormed) {key : Key}
    (hok : (m.createDirAll key).1 = .ok ()) : (m.createDirAll key).2.IsDirAt key :=
  createDirs_isDirAt [] key m hok h.root

theorem WellFormed.createDirAll {m : Memory} (h : m.WellFormed) {key : Key}
    (hnames : ∀ name ∈ key, IsName name) : (m.createDirAll key).2.WellFormed :=
  createDirs_wellFormed [] key m h h.root hnames

theorem Textual.grown {m m' : Memory} {key : Key} (h : m.Textual) (hgrown : m.Grown key m')
    (hkey : ∀ name ∈ key, ∃ text : String, name = Text.Utf8.encode text) : m'.Textual := by
  intro k hget name hname
  obtain ⟨e, he⟩ := Option.ne_none_iff_exists'.mp hget
  rcases hgrown.made k e he with hold | ⟨_, hpre, _⟩
  · exact h k (by simp [hold]) name hname
  · exact hkey name (hpre.subset hname)

/-! ## Removing -/

theorem removeAll_of_get?_none {m : Memory} {key : Key} (h : m.get? key = none) :
    m.removeAll key = .error (notFound key) := by
  rw [removeAll, h]

/-- The map without what is at or below a key. -/
theorem get?_filter_not_prefix (m : Memory) (key k : Key) :
    Memory.get? { m with entries := m.entries.filter fun (k, _) => !key.isPrefixOf k } k =
      if key <+: k then none else m.get? k := by
  simp only [get?, List.find?_filter]
  by_cases hk : key <+: k
  · rw [if_pos hk, List.find?_eq_none.mpr]
    · rfl
    · rintro ⟨k', e⟩ _ hk'
      simp only [Bool.not_eq_true', decide_eq_true_eq, beq_iff_eq] at hk'
      obtain ⟨hno, rfl⟩ := hk'
      rw [← Bool.not_eq_true, List.isPrefixOf_iff_prefix] at hno
      exact hno hk
  · rw [if_neg hk]
    congr 2
    funext ⟨k', e⟩
    by_cases hk' : k' = k
    · subst hk'
      have : key.isPrefixOf k' = false := by
        rw [← Bool.not_eq_true, List.isPrefixOf_iff_prefix]
        exact hk
      simp [this]
    · simp [hk']

theorem removeAll_ok {m : Memory} {key : Key} (h : m.get? key ≠ none) :
    ∃ m', m.removeAll key = .ok m' := by
  obtain ⟨e, he⟩ := Option.ne_none_iff_exists'.mp h
  rw [removeAll, he]
  dsimp only
  split
  · exact ⟨_, rfl⟩
  · exact ⟨_, rfl⟩

/-- Removing takes away exactly what is at or below the key, if one leaves aside the root. -/
theorem get?_of_removeAll_eq_ok {m m' : Memory} {key k : Key} (h : m.removeAll key = .ok m')
    (hk : k ≠ []) : m'.get? k = if key <+: k then none else m.get? k := by
  rw [removeAll] at h
  split at h
  · cases h
  · dsimp only at h
    split at h
    · cases h
      exact get?_filter_not_prefix m key k
    · cases h
      rw [get?_stamp, if_neg hk]
      exact get?_filter_not_prefix m key k

/-- Removing something else than the root takes away exactly what is at or below the key. -/
theorem WellFormed.removeAll {m m' : Memory} (h : m.WellFormed) {key : Key} (hkey : key ≠ [])
    (hremove : m.removeAll key = .ok m') :
    m'.WellFormed ∧ ∀ k, m'.get? k = if key <+: k then none else m.get? k := by
  set rest : Memory := { m with entries := m.entries.filter fun (k, _) => !key.isPrefixOf k }
    with hrest_eq
  have hrest : ∀ k, rest.get? k = if key <+: k then none else m.get? k :=
    get?_filter_not_prefix m key
  have hkept : ∀ k, rest.get? k ≠ none → ¬ key <+: k ∧ rest.get? k = m.get? k := by
    intro k hne
    rw [hrest] at hne ⊢
    split at hne
    · exact absurd rfl hne
    · next hno => exact ⟨hno, if_neg hno⟩
  have hno : ¬ key <+: [] := fun hpre => hkey (List.prefix_nil.mp hpre)
  obtain ⟨t, ht⟩ := h.root
  have hroot : rest.get? [] = some (.dir t) := by rw [hrest, if_neg hno, ht]
  -- The root is still there, so that none is put in its place.
  have hm' : m' = rest := by
    rw [Memory.removeAll] at hremove
    split at hremove
    · cases hremove
    · rw [← hrest_eq] at hremove
      dsimp only at hremove
      rw [hroot] at hremove
      exact (Except.ok.inj hremove).symm
  rw [hm']
  refine ⟨?_, hrest⟩
  constructor
  case unique => exact h.unique.sublist (List.filter_sublist.map _)
  case root => exact ⟨t, hroot⟩
  case parent =>
    intro k name hne
    obtain ⟨hpre, heq⟩ := hkept _ hne
    rw [heq] at hne
    obtain ⟨t', ht'⟩ := h.parent k name hne
    refine ⟨t', ?_⟩
    rw [hrest, if_neg, ht']
    exact fun hk => hpre (hk.trans (List.prefix_append k [name]))
  case names =>
    intro k hne
    rw [(hkept k hne).2] at hne
    exact h.names k hne

/-- Removing something that has nothing in it takes away that one entry. -/
theorem WellFormed.removeAll_of_no_children {m m' : Memory} (h : m.WellFormed) {key : Key}
    (hkey : key ≠ []) (hempty : ∀ name, m.get? (key ++ [name]) = none)
    (hremove : m.removeAll key = .ok m') :
    m'.WellFormed ∧ ∀ k, m'.get? k = if k = key then none else m.get? k := by
  obtain ⟨hwellFormed, hget⟩ := h.removeAll hkey hremove
  refine ⟨hwellFormed, fun k => ?_⟩
  rw [hget]
  by_cases hk : k = key
  · rw [if_pos hk, if_pos (hk ▸ List.prefix_refl _)]
  · rw [if_neg hk, ite_eq_right_iff]
    rintro ⟨rest, rfl⟩
    cases rest with
    | nil => simp at hk
    | cons name rest => exact (h.get?_of_no_children hempty).symm

/-! ## Renaming -/

theorem hasChildren_iff (m : Memory) (key : Key) :
    m.hasChildren key = true ↔ ∃ k, m.get? k ≠ none ∧ key <+: k ∧ k ≠ key := by
  rw [hasChildren, List.any_eq_true]
  constructor
  · rintro ⟨⟨k, e⟩, hmem, h⟩
    simp only [Bool.and_eq_true, bne_iff_ne, List.isPrefixOf_iff_prefix] at h
    exact ⟨k, fun hnone => (m.get?_eq_none_iff k).mp hnone e hmem, h.2, h.1⟩
  · rintro ⟨k, hget, hpre, hne⟩
    obtain ⟨e, he⟩ := Option.ne_none_iff_exists'.mp hget
    refine ⟨(k, e), m.mem_entries_of_get? k he, ?_⟩
    simp [hne, List.isPrefixOf_iff_prefix.mpr hpre]

theorem hasChildren_eq_false_iff (m : Memory) (key : Key) :
    m.hasChildren key = false ↔ ∀ k, key <+: k → k ≠ key → m.get? k = none := by
  rw [← Bool.not_eq_true, hasChildren_iff]
  constructor
  · intro h k hpre hne
    by_contra hget
    exact h ⟨k, hget, hpre, hne⟩
  · rintro h ⟨k, hget, hpre, hne⟩
    exact hget (h k hpre hne)

theorem requireDir_eq_ok_iff (m : Memory) (key : Key) :
    m.requireDir key = .ok () ↔ m.IsDirAt key := by
  rw [requireDir, IsDirAt]
  cases m.get? key with
  | none => simp
  | some e => cases e <;> simp

theorem parentKey?_eq_some_iff (k key : Key) :
    parentKey? k = some key ↔ ∃ name, k = key ++ [name] := by
  induction k using List.reverseRecOn with
  | nil => simp [parentKey?]
  | append_singleton above last _ =>
    have hparent : parentKey? (above ++ [last]) = some above := by
      cases above with
      | nil => rfl
      | cons first rest =>
        rw [List.cons_append, parentKey?, ← List.cons_append, List.dropLast_concat]
    rw [hparent, Option.some_inj]
    constructor
    · rintro rfl
      exact ⟨last, rfl⟩
    · rintro ⟨name, heq⟩
      exact List.append_inj_left' heq rfl

theorem requireParent_append (m : Memory) (key : Key) (name : Bytes) :
    m.requireParent (key ++ [name]) = m.requireDir key := by
  rw [requireParent, (parentKey?_eq_some_iff _ key).mpr ⟨name, rfl⟩]

/-- What a rename that succeeds has checked, and what it then does: the one entry gets another
key. -/
structure Renamed (m : Memory) (source target : Key) (entry : Entry) (m' : Memory) : Prop where
  source_eq : m.get? source = some entry
  parent : m.requireParent target = .ok ()
  empty : entry.isDir → ∀ k, source <+: k → k ≠ source → m.get? k = none
  replaced : ∀ old, m.get? target = some old → old.isDir = entry.isDir ∧
    (old.isDir → ∀ k, target <+: k → k ≠ target → m.get? k = none)
  get?_eq : ∀ k, m'.get? k = if k = target then some entry else if k = source then none else m.get? k
  unique : (m.entries.map Prod.fst).Nodup → (m'.entries.map Prod.fst).Nodup

theorem renamed_erase_insert {m : Memory} {source target : Key} {entry : Entry}
    (hsource : m.get? source = some entry) (hparent : m.requireParent target = .ok ())
    (hempty : (entry.isDir && m.hasChildren source) = false)
    (hreplaced : ∀ old, m.get? target = some old →
      (old.isDir && m.hasChildren target) = false ∧ (old.isDir != entry.isDir) = false) :
    m.Renamed source target entry ((m.erase source).insert target entry) where
  source_eq := hsource
  parent := hparent
  empty := by
    intro hdir
    rw [hdir, Bool.true_and, hasChildren_eq_false_iff] at hempty
    exact hempty
  replaced := by
    intro old hold
    obtain ⟨hchildren, htype⟩ := hreplaced old hold
    refine ⟨by simpa using htype, fun hdir => ?_⟩
    rw [hdir, Bool.true_and, hasChildren_eq_false_iff] at hchildren
    exact hchildren
  get?_eq := by
    intro k
    rw [get?_insert, get?_erase]
  unique := fun h => unique_insert (unique_erase h source) target entry

theorem renamed_of_eq_ok {m m' : Memory} {source target : Key} (hne : source ≠ target)
    (h : m.rename source target = .ok m') : ∃ entry, m.Renamed source target entry m' := by
  rw [rename, if_neg hne] at h
  split at h
  · cases h
  · next entry hsource =>
    refine ⟨entry, ?_⟩
    cases hparent : m.requireParent target with
    | error e =>
      rw [hparent] at h
      cases h
    | ok u =>
      rw [hparent] at h
      simp only [bind, Except.bind, pure, Except.pure] at h
      split at h
      · cases h
      · next hempty =>
        rw [Bool.not_eq_true] at hempty
        split at h
        · next old hold =>
          split at h
          · cases h
          · next hchildren =>
            split at h
            · cases h
            · next htype =>
              cases h
              refine renamed_erase_insert hsource hparent hempty fun old' hold' => ?_
              rw [hold] at hold'
              cases hold'
              exact ⟨by simpa using hchildren, by simpa using htype⟩
        · next hnone =>
          cases h
          refine renamed_erase_insert hsource hparent hempty fun old hold => ?_
          rw [hnone] at hold
          cases hold

/-- A file can be renamed to a key that is free, in a directory. -/
theorem rename_file_ok {m : Memory} {source target : Key} {data : Bytes} {modified : Timestamp}
    (hsource : m.get? source = some (.file data modified))
    (hparent : m.requireParent target = .ok ()) (htarget : m.get? target = none) :
    ∃ m', m.rename source target = .ok m' := by
  have hne : source ≠ target := by
    rintro rfl
    rw [hsource] at htarget
    cases htarget
  rw [rename, if_neg hne, hsource]
  simp only [hparent, htarget]
  exact ⟨_, rfl⟩

/-- A rename keeps the tree well formed, unless it puts a directory into itself. -/
theorem WellFormed.renamed {m m' : Memory} (h : m.WellFormed) {source : Key} {entry : Entry}
    {above : Key} {name : Bytes} (hm' : m.Renamed source (above ++ [name]) entry m')
    (hsource : source ≠ []) (hbelow : ¬ source <+: above ++ [name])
    (hname : IsName name) : m'.WellFormed := by
  have habove : m.IsDirAt above := by
    have hparent := hm'.parent
    rwa [requireParent_append, requireDir_eq_ok_iff] at hparent
  have hkept : ∀ k, m.IsDirAt k → k ≠ source → k ≠ above ++ [name] → m'.IsDirAt k := by
    rintro k ⟨t, ht⟩ hks hkt
    exact ⟨t, by rw [hm'.get?_eq, if_neg hkt, if_neg hks, ht]⟩
  -- A child of the target is there after the rename only if both entries are directories.
  have htarget : ∀ n, m'.get? ((above ++ [name]) ++ [n]) = none := by
    intro n
    rw [hm'.get?_eq, if_neg (by simp)]
    split
    · rfl
    · by_contra hne
      obtain ⟨t, ht⟩ := h.parent _ n hne
      refine hne ((hm'.replaced _ ht).2 rfl _ (List.prefix_append _ [n]) (by simp))
  constructor
  case unique => exact hm'.unique h.unique
  case root => exact hkept [] h.root hsource.symm (by simp)
  case parent =>
    -- What an entry lies in is neither the target, which is empty, nor the source, which was.
    intro k n hget
    have hkt : k ≠ above ++ [name] := by
      rintro rfl
      exact hget (htarget n)
    rw [hm'.get?_eq] at hget
    split at hget
    · next heq =>
      rw [List.append_inj_left' heq rfl] at hkt ⊢
      refine hkept above habove ?_ (by simp)
      rintro rfl
      exact hbelow (List.prefix_append _ [name])
    · split at hget
      · exact absurd rfl hget
      · have hdir := h.parent k n hget
        refine hkept k hdir ?_ hkt
        rintro rfl
        obtain ⟨t, ht⟩ := hdir
        rw [hm'.source_eq] at ht
        cases ht
        exact hget (hm'.empty rfl _ (List.prefix_append k [n]) (by simp))
  case names =>
    intro k hget n hn
    rw [hm'.get?_eq] at hget
    split at hget
    · next heq =>
      subst heq
      rcases List.mem_append.mp hn with hn | hn
      · exact h.names above habove.ne_none n hn
      · rw [List.mem_singleton.mp hn]
        exact hname
    · split at hget
      · exact absurd rfl hget
      · exact h.names k hget n hn

end Memory

end SyncEndpoint.Storage
