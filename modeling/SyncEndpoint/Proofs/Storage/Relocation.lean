import SyncEndpoint.Proofs.Storage.Tree

set_option autoImplicit false

/-! # Relocations

A subtree that is moved entry by entry is for a while partly at its old key and partly at the new
one. `Partway` says which maps may occur in between: each entry is where it was or where it goes
to, files at one of the two only, and nothing else is touched. Every step of a move keeps it, and
once nothing is left at the old key the tree is the one with the subtree renamed. -/

namespace SyncEndpoint.Storage

open NativePath (IsName)
open Text.Utf8

/-! ## Trees as functions -/

/-- What an entry is, leaving aside the times of directories. -/
inductive Item where
  | dir
  | file (data : Bytes) (modified : Timestamp)

def Entry.item : Entry → Item
  | .dir _ => .dir
  | .file data modified => .file data modified

@[simp]
theorem Entry.item_eq_file_iff (e : Entry) (data : Bytes) (modified : Timestamp) :
    e.item = .file data modified ↔ e = .file data modified := by
  cases e <;> simp [Entry.item]

/-- A tree with what is at or below `source` at or below `target`, and directories above that. -/
def renameSubtree (tree : Key → Option Item) (source target : Key) : Key → Option Item := fun k =>
  if source <+: k then none
  else if target <+: k then tree (source ++ k.drop target.length)
  else if k <+: target then some .dir
  else tree k

namespace Memory

/-- What a map says of each key, leaving aside the times of directories. -/
def tree (m : Memory) : Key → Option Item := fun k =>
  (m.get? k).map Entry.item

/-! ## What can be relocated -/

/-- What is at `source` can go to `target`, where nothing is: the tree has room for it, and the two
are apart. -/
structure Relocatable (before : Memory) (source target : Key) : Prop where
  wellFormed : before.WellFormed
  textual : before.Textual
  source_ne : before.get? source ≠ none
  target_eq : before.get? target = none
  target_names : ∀ name ∈ target, IsName name ∧ ∃ text : String, name = encode text
  not_below : ¬ source <+: target
  free : ∀ k data modified, k <+: target → before.get? k ≠ some (.file data modified)

namespace Relocatable

variable {before : Memory} {source target : Key}

theorem not_above (h : before.Relocatable source target) : ¬ target <+: source := by
  rintro ⟨rest, hrest⟩
  cases rest with
  | nil =>
    rw [List.append_nil] at hrest
    exact h.source_ne (hrest ▸ h.target_eq)
  | cons name rest =>
    have hget : before.get? (target ++ name :: rest) ≠ none := by
      rw [hrest]
      exact h.source_ne
    exact (h.wellFormed.above hget).ne_none h.target_eq

/-- The two subtrees have no key in common. -/
theorem not_prefix_append (h : before.Relocatable source target) (rest : Key) :
    ¬ source <+: target ++ rest := fun hpre =>
  (List.prefix_or_prefix_of_prefix hpre (List.prefix_append target rest)).elim h.not_below
    h.not_above

theorem append_ne (h : before.Relocatable source target) (s s' : Key) :
    target ++ s ≠ source ++ s' := fun heq =>
  h.not_prefix_append s (heq ▸ List.prefix_append source s')

theorem source_ne_nil (h : before.Relocatable source target) : source ≠ [] := by
  rintro rfl
  exact h.not_below List.nil_prefix

theorem target_ne_nil (h : before.Relocatable source target) : target ≠ [] := by
  rintro rfl
  exact h.not_above List.nil_prefix

theorem get?_target_append (h : before.Relocatable source target) (s : Key) :
    before.get? (target ++ s) = none := by
  cases s with
  | nil => rw [List.append_nil, h.target_eq]
  | cons name s => exact h.wellFormed.get?_below fun hdir => hdir.ne_none h.target_eq

/-- What is above an entry of the subtree is a directory. -/
theorem isDirAt_of_prefix (h : before.Relocatable source target) {s s' : Key} (hs : s <+: s')
    (hdir : before.IsDirAt (source ++ s')) : before.IsDirAt (source ++ s) := by
  obtain ⟨rest, rfl⟩ := hs
  cases rest with
  | nil => rwa [List.append_nil] at hdir
  | cons name rest =>
    rw [← List.append_assoc] at hdir
    exact h.wellFormed.above hdir.ne_none

end Relocatable

/-- The key of a directory that may have to be made on the way: it lies above the target, or it is
that of a directory of the subtree. -/
def OnTheWay (before : Memory) (source target key : Key) : Prop :=
  key <+: target ∧ key ≠ target ∨ ∃ s, key = target ++ s ∧ before.IsDirAt (source ++ s)

/-- What an entry goes into is on its way. -/
theorem Relocatable.onTheWay {before : Memory} {source target : Key}
    (h : before.Relocatable source target) {s above : Key} {name : Bytes}
    (heq : target ++ s = above ++ [name]) (hget : before.get? (source ++ s) ≠ none) :
    before.OnTheWay source target above := by
  rcases List.eq_nil_or_concat' s with rfl | ⟨s', name', rfl⟩
  · rw [List.append_nil] at heq
    rw [heq]
    exact Or.inl ⟨List.prefix_append above [name], by simp⟩
  · rw [← List.append_assoc] at heq hget
    exact Or.inr ⟨s', (List.append_inj_left' heq rfl).symm, h.wellFormed.parent _ name' hget⟩

/-- Making directories on the way leaves the source as it is. -/
theorem Relocatable.get?_of_grown {before : Memory} {source target : Key}
    (h : before.Relocatable source target) {m m' : Memory} {key k : Key} (hgrown : m.Grown key m')
    (hkey : before.OnTheWay source target key) (hk : source <+: k) : m'.get? k = m.get? k := by
  refine hgrown.get?_eq fun hpre => ?_
  have hsource : source <+: key := hk.trans hpre
  rcases hkey with ⟨habove, _⟩ | ⟨s, rfl, _⟩
  · exact h.not_below (hsource.trans habove)
  · exact h.not_prefix_append s hsource

/-! ## Partway -/

/-- A map in the course of a relocation. -/
structure Partway (before : Memory) (source target : Key) (m : Memory) : Prop where
  wellFormed : m.WellFormed
  textual : m.Textual
  /-- What is at the source was there. -/
  at_source : ∀ s, m.get? (source ++ s) = before.get? (source ++ s) ∨ m.get? (source ++ s) = none
  /-- What is at the target was at the source. -/
  at_target : ∀ s e, m.get? (target ++ s) = some e →
    ∃ e', before.get? (source ++ s) = some e' ∧ e.item = e'.item
  /-- What is gone from the source is at the target. -/
  somewhere : ∀ s, before.get? (source ++ s) ≠ none → m.get? (source ++ s) = none →
    m.get? (target ++ s) ≠ none
  /-- A file that is at the source is not yet at the target. -/
  once : ∀ s data modified, m.get? (source ++ s) = some (.file data modified) →
    m.get? (target ++ s) = none
  /-- Above the target directories were made. -/
  above : ∀ k, k <+: target → k ≠ target → m.get? k = before.get? k ∨
    before.get? k = none ∧ m.IsDirAt k
  elsewhere : ∀ k, ¬ source <+: k → ¬ target <+: k → ¬ k <+: target → m.get? k = before.get? k

namespace Partway

variable {before m m' : Memory} {source target : Key}

/-- A relocation starts with nothing done. -/
theorem start (hr : before.Relocatable source target) : Partway before source target before where
  wellFormed := hr.wellFormed
  textual := hr.textual
  at_source := fun _ => Or.inl rfl
  at_target := by
    intro s e hget
    rw [hr.get?_target_append] at hget
    cases hget
  somewhere := fun s hne hget => absurd hget hne
  once := fun s _ _ _ => hr.get?_target_append s
  above := fun _ _ _ => Or.inl rfl
  elsewhere := fun _ _ _ _ => rfl

/-- No file is above the target. -/
theorem above_ne_file (hr : before.Relocatable source target) (h : Partway before source target m)
    {k : Key} (hk : k <+: target) (hne : k ≠ target) (data : Bytes) (modified : Timestamp) :
    m.get? k ≠ some (.file data modified) := by
  intro hget
  rcases h.above k hk hne with heq | ⟨_, t, ht⟩
  · rw [heq] at hget
    exact hr.free k data modified hk hget
  · rw [hget] at ht
    cases ht

/-- No file is at the target, or in it, where the source has a directory. -/
theorem target_ne_file (h : Partway before source target m) {s : Key}
    (hdir : before.IsDirAt (source ++ s)) (data : Bytes) (modified : Timestamp) :
    m.get? (target ++ s) ≠ some (.file data modified) := by
  intro hget
  obtain ⟨e, he, hitem⟩ := h.at_target s _ hget
  obtain ⟨t, ht⟩ := hdir
  rw [ht] at he
  cases he
  simp [Entry.item] at hitem

/-- No file is in the way of the directories that have to be made. -/
theorem not_blocked (hr : before.Relocatable source target) (h : Partway before source target m)
    {key : Key} (hkey : before.OnTheWay source target key) : ¬ m.Blocked key := by
  rintro ⟨k, data, modified, hk, hget⟩
  rcases hkey with ⟨habove, hne⟩ | ⟨s, rfl, hdir⟩
  · refine h.above_ne_file hr (hk.trans habove) ?_ data modified hget
    rintro rfl
    exact hne (habove.eq_of_length_le hk.length_le)
  · rcases List.prefix_or_prefix_of_prefix hk (List.prefix_append target s) with habove | ⟨s', rfl⟩
    · by_cases hne : k = target
      · rw [hne, ← List.append_nil target] at hget
        exact h.target_ne_file (hr.isDirAt_of_prefix List.nil_prefix hdir) data modified hget
      · exact h.above_ne_file hr habove hne data modified hget
    · rw [List.prefix_append_right_inj] at hk
      exact h.target_ne_file (hr.isDirAt_of_prefix hk hdir) data modified hget

/-- What is left at the source was there before. -/
theorem get?_before (h : Partway before source target m) {s : Key} {e : Entry}
    (hget : m.get? (source ++ s) = some e) : before.get? (source ++ s) = some e := by
  rcases h.at_source s with heq | hnone
  · rw [← heq, hget]
  · rw [hget] at hnone
    cases hnone

/-! ### Steps -/

/-- Making directories on the way. -/
theorem grown (hr : before.Relocatable source target) (h : Partway before source target m)
    {key : Key} (hgrown : m.Grown key m') (hm' : m'.WellFormed)
    (hkey : before.OnTheWay source target key) : Partway before source target m' := by
  have hsource : ∀ s, m'.get? (source ++ s) = m.get? (source ++ s) :=
    fun s => hr.get?_of_grown hgrown hkey (List.prefix_append source s)
  -- What is made in the target is made where the source has a directory.
  have hmade : ∀ s, target ++ s <+: key → before.IsDirAt (source ++ s) := by
    intro s hpre
    rcases hkey with ⟨habove, hne⟩ | ⟨s', rfl, hdir⟩
    · have htarget : target <+: key := (List.prefix_append target s).trans hpre
      exact absurd (habove.eq_of_length_le htarget.length_le) hne
    · rw [List.prefix_append_right_inj] at hpre
      exact hr.isDirAt_of_prefix hpre hdir
  constructor
  case wellFormed => exact hm'
  case textual =>
    refine h.textual.grown hgrown fun name hname => ?_
    rcases hkey with ⟨habove, _⟩ | ⟨s, rfl, hdir⟩
    · exact (hr.target_names name (habove.subset hname)).2
    · rcases List.mem_append.mp hname with hname | hname
      · exact (hr.target_names name hname).2
      · exact hr.textual _ hdir.ne_none name (List.mem_append_right _ hname)
  case at_source =>
    intro s
    rw [hsource]
    exact h.at_source s
  case at_target =>
    intro s e hget
    rcases hgrown.made _ e hget with hold | ⟨_, hpre, made, rfl⟩
    · exact h.at_target s e hold
    · obtain ⟨t, ht⟩ := hmade s hpre
      exact ⟨_, ht, rfl⟩
  case somewhere =>
    intro s hne hnone
    rw [hsource] at hnone
    obtain ⟨e, he⟩ := Option.ne_none_iff_exists'.mp (h.somewhere s hne hnone)
    rw [hgrown.kept _ e he]
    simp
  case once =>
    intro s data modified hget
    rw [hsource] at hget
    rw [hgrown.get?_eq, h.once s data modified hget]
    intro hpre
    obtain ⟨t, ht⟩ := hmade s hpre
    rw [h.get?_before hget] at ht
    cases ht
  case above =>
    intro k hk hne
    rcases h.above k hk hne with heq | ⟨hnone, hdir⟩
    · cases hget : m.get? k with
      | some e =>
        rw [hgrown.kept k e hget, ← heq, hget]
        exact Or.inl rfl
      | none =>
        rw [← heq, hget]
        cases hget' : m'.get? k with
        | none => exact Or.inl rfl
        | some e =>
          rcases hgrown.made k e hget' with hold | ⟨_, _, made, rfl⟩
          · rw [hget] at hold
            cases hold
          · exact Or.inr ⟨rfl, _, hget'⟩
    · exact Or.inr ⟨hnone, hgrown.isDirAt hdir⟩
  case elsewhere =>
    intro k hsource htarget hnot
    rw [hgrown.get?_eq, h.elsewhere k hsource htarget hnot]
    intro hpre
    rcases hkey with ⟨habove, _⟩ | ⟨s, rfl, _⟩
    · exact hnot (hpre.trans habove)
    · exact (List.prefix_or_prefix_of_prefix hpre (List.prefix_append target s)).elim hnot htarget

/-- Taking away an entry of the source that is at the target. -/
theorem erased (hr : before.Relocatable source target) (h : Partway before source target m)
    {s : Key} (hm' : m'.WellFormed) (htarget : m.get? (target ++ s) ≠ none)
    (herased : ∀ k, m'.get? k = if k = source ++ s then none else m.get? k) :
    Partway before source target m' := by
  have hsub : ∀ k e, m'.get? k = some e → m.get? k = some e := by
    intro k e hget
    rw [herased] at hget
    split at hget
    · cases hget
    · exact hget
  have hout : ∀ k, ¬ source <+: k → m'.get? k = m.get? k := by
    intro k hk
    rw [herased, if_neg]
    rintro rfl
    exact hk (List.prefix_append source s)
  have hout_target : ∀ s', m'.get? (target ++ s') = m.get? (target ++ s') :=
    fun s' => hout _ (hr.not_prefix_append s')
  constructor
  case wellFormed => exact hm'
  case textual =>
    intro k hne
    obtain ⟨e, he⟩ := Option.ne_none_iff_exists'.mp hne
    exact h.textual k (by simp [hsub k e he])
  case at_source =>
    intro s'
    rw [herased]
    split
    · exact Or.inr rfl
    · exact h.at_source s'
  case at_target =>
    intro s' e hget
    rw [hout_target] at hget
    exact h.at_target s' e hget
  case somewhere =>
    intro s' hne hnone
    rw [hout_target]
    rw [herased] at hnone
    split at hnone
    · next heq =>
      rw [List.append_cancel_left heq]
      exact htarget
    · exact h.somewhere s' hne hnone
  case once =>
    intro s' data modified hget
    rw [hout_target]
    exact h.once s' data modified (hsub _ _ hget)
  case above =>
    intro k hk hne
    have heq : m'.get? k = m.get? k := hout k fun hsource => hr.not_below (hsource.trans hk)
    rcases h.above k hk hne with habove | ⟨hnone, t, ht⟩
    · exact Or.inl (heq.trans habove)
    · exact Or.inr ⟨hnone, t, heq.trans ht⟩
  case elsewhere =>
    intro k hsource htarget hnot
    rw [hout k hsource, h.elsewhere k hsource htarget hnot]

/-- Renaming an entry of the source to where it goes. -/
theorem renamed (hr : before.Relocatable source target) (h : Partway before source target m)
    {s : Key} {entry : Entry} (hm' : m.Renamed (source ++ s) (target ++ s) entry m') :
    Partway before source target m' := by
  have hold : before.get? (source ++ s) = some entry := h.get?_before hm'.source_eq
  have hnames : ∀ name ∈ target ++ s, IsName name ∧ ∃ text : String, name = encode text := by
    intro name hname
    rcases List.mem_append.mp hname with hname | hname
    · exact hr.target_names name hname
    · have hne : before.get? (source ++ s) ≠ none := by simp [hold]
      have hmem : name ∈ source ++ s := List.mem_append_right _ hname
      exact ⟨hr.wellFormed.names _ hne name hmem, hr.textual _ hne name hmem⟩
  have hout : ∀ k, k ≠ source ++ s → k ≠ target ++ s → m'.get? k = m.get? k := by
    intro k hsource htarget
    rw [hm'.get?_eq, if_neg htarget, if_neg hsource]
  have htarget_eq : m'.get? (target ++ s) = some entry := by rw [hm'.get?_eq, if_pos rfl]
  -- The entry itself goes from the source to the target; for any other nothing changes.
  have hsource_eq : m'.get? (source ++ s) = none := by
    rw [hm'.get?_eq, if_neg (hr.append_ne s s).symm, if_pos rfl]
  have hsource : ∀ s', s' ≠ s → m'.get? (source ++ s') = m.get? (source ++ s') := fun s' hs' =>
    hout _ (fun heq => hs' (List.append_cancel_left heq)) (hr.append_ne s s').symm
  have htarget : ∀ s', s' ≠ s → m'.get? (target ++ s') = m.get? (target ++ s') := fun s' hs' =>
    hout _ (hr.append_ne s' s) fun heq => hs' (List.append_cancel_left heq)
  constructor
  case wellFormed =>
    obtain ⟨above, name, heq⟩ : ∃ above name, target ++ s = above ++ [name] := by
      rcases List.eq_nil_or_concat' (target ++ s) with hnil | hconcat
      · exact absurd (List.append_eq_nil_iff.mp hnil).1 hr.target_ne_nil
      · exact hconcat
    rw [heq] at hm' hnames
    refine h.wellFormed.renamed hm' (by simp [hr.source_ne_nil]) ?_ (hnames name (by simp)).1
    rw [← heq]
    exact fun hpre => hr.not_prefix_append s ((List.prefix_append source s).trans hpre)
  case textual =>
    intro k hne
    by_cases hk : k = target ++ s
    · rw [hk]
      exact fun name hname => (hnames name hname).2
    · refine h.textual k fun hnone => hne ?_
      rw [hm'.get?_eq, if_neg hk, hnone, ite_self]
  case at_source =>
    intro s'
    by_cases hs' : s' = s
    · rw [hs', hsource_eq]
      exact Or.inr rfl
    · rw [hsource s' hs']
      exact h.at_source s'
  case at_target =>
    intro s' e hget
    by_cases hs' : s' = s
    · rw [hs', htarget_eq] at hget
      cases hget
      exact ⟨entry, by rw [hs', hold], rfl⟩
    · rw [htarget s' hs'] at hget
      exact h.at_target s' e hget
  case somewhere =>
    intro s' hne hnone
    by_cases hs' : s' = s
    · rw [hs', htarget_eq]
      simp
    · rw [hsource s' hs'] at hnone
      rw [htarget s' hs']
      exact h.somewhere s' hne hnone
  case once =>
    intro s' data modified hget
    by_cases hs' : s' = s
    · rw [hs', hsource_eq] at hget
      cases hget
    · rw [hsource s' hs'] at hget
      rw [htarget s' hs']
      exact h.once s' data modified hget
  case above =>
    intro k hk hne
    have heq : m'.get? k = m.get? k := by
      refine hout k ?_ ?_
      · rintro rfl
        exact hr.not_below ((List.prefix_append source s).trans hk)
      · rintro rfl
        exact hne (hk.eq_of_length_le (List.prefix_append target s).length_le)
    rcases h.above k hk hne with habove | ⟨hnone, t, ht⟩
    · exact Or.inl (heq.trans habove)
    · exact Or.inr ⟨hnone, t, heq.trans ht⟩
  case elsewhere =>
    intro k hks hkt hnot
    rw [hout, h.elsewhere k hks hkt hnot]
    · rintro rfl
      exact hks (List.prefix_append source s)
    · rintro rfl
      exact hkt (List.prefix_append target s)

/-! ### What is known on the way, and at the end -/

/-- Each file is at one of its two places, as it was. -/
theorem file (h : Partway before source target m) {s : Key} {data : Bytes} {modified : Timestamp}
    (hget : before.get? (source ++ s) = some (.file data modified)) :
    m.get? (source ++ s) = some (.file data modified) ∧ m.get? (target ++ s) = none ∨
      m.get? (source ++ s) = none ∧ m.get? (target ++ s) = some (.file data modified) := by
  rcases h.at_source s with heq | hnone
  · rw [hget] at heq
    exact Or.inl ⟨heq, h.once s data modified heq⟩
  · obtain ⟨e, he⟩ := Option.ne_none_iff_exists'.mp (h.somewhere s (by simp [hget]) hnone)
    obtain ⟨e', he', hitem⟩ := h.at_target s e he
    rw [hget] at he'
    cases he'
    rw [Entry.item, Entry.item_eq_file_iff] at hitem
    rw [he, hitem]
    exact Or.inr ⟨hnone, rfl⟩

/-- No other entry changes. -/
theorem kept (hr : before.Relocatable source target) (h : Partway before source target m) {k : Key}
    {e : Entry} (hk : ¬ source <+: k) (hget : before.get? k = some e) : m.get? k = some e := by
  by_cases htarget : target <+: k
  · obtain ⟨s, rfl⟩ := htarget
    rw [hr.get?_target_append] at hget
    cases hget
  · by_cases habove : k <+: target
    · rcases h.above k habove fun heq => htarget (heq ▸ List.prefix_refl _) with heq | ⟨hnone, _⟩
      · rw [heq, hget]
      · rw [hnone] at hget
        cases hget
    · rw [h.elsewhere k hk htarget habove, hget]

/-- Files outside of both subtrees stay as they are, and none is made there. -/
theorem get?_file_iff (h : Partway before source target m) {k : Key} (hsource : ¬ source <+: k)
    (htarget : ¬ target <+: k) (data : Bytes) (modified : Timestamp) :
    m.get? k = some (.file data modified) ↔ before.get? k = some (.file data modified) := by
  by_cases habove : k <+: target
  · rcases h.above k habove fun heq => htarget (heq ▸ List.prefix_refl _) with heq | ⟨hnone, t, ht⟩
    · rw [heq]
    · rw [hnone, ht]
      simp
  · rw [h.elsewhere k hsource htarget habove]

/-- Once nothing is left at the source, the subtree is renamed. -/
theorem tree_eq (hr : before.Relocatable source target) (h : Partway before source target m)
    (hgone : m.get? source = none) : m.tree = renameSubtree before.tree source target := by
  -- Nothing is left below the source either, and then all of it is at the target.
  have hsource : ∀ s, m.get? (source ++ s) = none := by
    intro s
    cases s with
    | nil => rw [List.append_nil, hgone]
    | cons name s => exact h.wellFormed.get?_below fun hdir => hdir.ne_none hgone
  have htarget : ∀ s, m.tree (target ++ s) = before.tree (source ++ s) := by
    intro s
    rw [tree, tree]
    cases hget : m.get? (target ++ s) with
    | some e =>
      obtain ⟨e', he', hitem⟩ := h.at_target s e hget
      rw [he', Option.map_some, Option.map_some, hitem]
    | none =>
      cases hbefore : before.get? (source ++ s) with
      | none => rfl
      | some e => exact absurd hget (h.somewhere s (by simp [hbefore]) (hsource s))
  have hne : m.get? target ≠ none := by
    have := h.somewhere [] (by simp [hr.source_ne]) (by simp [hgone])
    rwa [List.append_nil] at this
  funext k
  rw [renameSubtree]
  split
  · next hk =>
    obtain ⟨s, rfl⟩ := hk
    rw [tree, hsource, Option.map_none]
  · next hks =>
    split
    · next hk =>
      obtain ⟨s, rfl⟩ := hk
      rw [List.drop_left, htarget]
    · next hkt =>
      split
      · next hk =>
        obtain ⟨rest, rfl⟩ := hk
        cases rest with
        | nil => exact absurd (by rw [List.append_nil]) hkt
        | cons name rest =>
          obtain ⟨t, ht⟩ := h.wellFormed.above hne
          rw [tree, ht]
          rfl
      · next hnot => rw [tree, tree, h.elsewhere k hks hkt hnot]

end Partway

end Memory

end SyncEndpoint.Storage
