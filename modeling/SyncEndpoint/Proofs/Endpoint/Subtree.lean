import Mathlib.Data.List.Sort
import SyncEndpoint.Endpoint.Mutation
import SyncEndpoint.Proofs.Endpoint.Key
import SyncEndpoint.Proofs.Storage.Keeping
import SyncEndpoint.Proofs.Storage.Listing

set_option autoImplicit false

/-! # The subtree of a directory

What is listed before a directory is moved: every entry at or below it once, and of each whether it
is a directory. On a storage whose calls may fail, an entry that cannot be looked at counts as a
single one; what is below it is not listed then. The order of the move puts deeper entries before
those above them. -/

namespace SyncEndpoint.Endpoint

open CanonicalPath (segments depth join)
open NativePath (IsName)
open Storage
open Text.Utf8

/-- The branches of a subtree whose top is at `path`: each once, all that is in a listed directory,
and of each whether it is a directory, unless it is not known, which may happen if `blind`. -/
structure Subtree (blind : Prop) (m : Memory) (top : Branch) (branches : List Branch) : Prop where
  top_mem : top ∈ branches
  unique : (branches.map fun b => keyAt b.1).Nodup
  below : ∀ b ∈ branches, ∃ ss, segments b.1 = segments top.1 ++ ss ∧ ∀ s ∈ ss, IsPlain s
  sound : ∀ b ∈ branches, ∃ e, m.get? (keyAt b.1) = some e ∧ (b.2 = e.isDir ∨ blind ∧ b.2 = false)
  children : ∀ b ∈ branches, b.2 = true → ∀ name, m.get? (keyAt b.1 ++ [name]) ≠ none →
    ∃ c ∈ branches, keyAt c.1 = keyAt b.1 ++ [name]

variable {blind : Prop} {m : Memory}

theorem Subtree.prefix_keyAt {top : Branch} {branches : List Branch}
    (h : Subtree blind m top branches) {b : Branch} (hb : b ∈ branches) :
    keyAt top.1 <+: keyAt b.1 := by
  obtain ⟨ss, hss, _⟩ := h.below b hb
  exact keyAt_prefix hss

/-- Everything at or below the top is listed, if all of it can be looked at. -/
theorem Subtree.complete {top : Branch} {branches : List Branch} (h : Subtree blind m top branches)
    (hblind : ¬ blind) (hm : m.WellFormed) (s : Key) {e : Entry}
    (hget : m.get? (keyAt top.1 ++ s) = some e) :
    ∃ b ∈ branches, keyAt b.1 = keyAt top.1 ++ s ∧ b.2 = e.isDir := by
  have hkind : ∀ b ∈ branches, ∀ e, m.get? (keyAt b.1) = some e → b.2 = e.isDir := by
    intro b hb e hget
    obtain ⟨e', hget', hdir⟩ := h.sound b hb
    rw [hget] at hget'
    cases hget'
    exact hdir.resolve_right fun hdim => hblind hdim.1
  induction s using List.reverseRecOn generalizing e with
  | nil =>
    rw [List.append_nil] at hget ⊢
    exact ⟨top, h.top_mem, rfl, hkind top h.top_mem e hget⟩
  | append_singleton s name ih =>
    rw [← List.append_assoc] at hget ⊢
    have hne : m.get? (keyAt top.1 ++ s ++ [name]) ≠ none := by
      rw [hget]
      simp
    obtain ⟨t, ht⟩ := hm.parent _ name hne
    obtain ⟨b, hb, hkey, hdir⟩ := ih ht
    rw [← hkey] at hne hget ⊢
    obtain ⟨c, hc, hckey⟩ := h.children b hb hdir name hne
    exact ⟨c, hc, hckey, hkind c hc e (hckey ▸ hget)⟩

/-- An entry that counts as a single one. -/
theorem subtree_single {path : String} {e : Entry} (hget : m.get? (keyAt path) = some e)
    (hdir : e.isDir = false ∨ blind) : Subtree blind m (path, false) [(path, false)] where
  top_mem := List.mem_singleton.mpr rfl
  unique := List.nodup_singleton _
  below := by
    rintro b hb
    rw [List.mem_singleton.mp hb]
    exact ⟨[], by simp, by simp⟩
  sound := by
    rintro b hb
    rw [List.mem_singleton.mp hb]
    exact ⟨e, hget, hdir.imp Eq.symm fun hblind => ⟨hblind, rfl⟩⟩
  children := by
    rintro b hb hdir
    rw [List.mem_singleton.mp hb] at hdir
    cases hdir

/-! ## From the parts to the whole -/

/-- The branches of several subtrees whose tops are different entries of one directory. -/
theorem unique_flatten {above : Key} {tops : List Branch} {parts : List (List Branch)}
    (h : List.Forall₂ (fun top part => Subtree blind m top part) tops parts)
    (htops : ∀ top ∈ tops, ∃ name, keyAt top.1 = above ++ [name])
    (hunique : (tops.map fun top => keyAt top.1).Nodup) :
    (parts.flatten.map fun b => keyAt b.1).Nodup := by
  induction h with
  | nil => exact List.nodup_nil
  | @cons top part tops parts hpart hparts ih =>
    rw [List.map_cons, List.nodup_cons] at hunique
    rw [List.flatten_cons, List.map_append, List.nodup_append]
    refine ⟨hpart.unique, ih (fun t ht => htops t (List.mem_cons_of_mem _ ht)) hunique.2, ?_⟩
    -- A key in both parts would lie below two tops of the same depth, which are then the same.
    rintro k hk k' hk' rfl
    obtain ⟨b, hb, rfl⟩ := List.mem_map.mp hk
    obtain ⟨c, hc, hkey⟩ := List.mem_map.mp hk'
    obtain ⟨part', hpart', hc'⟩ := List.mem_flatten.mp hc
    obtain ⟨top', htop', hsubtree⟩ := exists_left_of_mem hparts hpart'
    have hbelow : keyAt top.1 <+: keyAt b.1 := hpart.prefix_keyAt hb
    have hbelow' : keyAt top'.1 <+: keyAt b.1 := by
      rw [← hkey]
      exact hsubtree.prefix_keyAt hc'
    have hlength : (keyAt top.1).length = (keyAt top'.1).length := by
      obtain ⟨name, hname⟩ := htops top List.mem_cons_self
      obtain ⟨name', hname'⟩ := htops top' (List.mem_cons_of_mem _ htop')
      simp [hname, hname']
    refine hunique.1 (List.mem_map.mpr ⟨top', htop', ?_⟩)
    exact (List.prefix_of_prefix_length_le hbelow' hbelow hlength.ge).eq_of_length hlength.symm

section Listed

variable {path : String} {listed : List Listed}

theorem isName_of_mem_listed (h : m.WellFormed) (hlists : m.Lists blind (keyAt path) listed)
    {l : Listed} (hl : l ∈ listed) : IsName (encode l.name) := by
  obtain ⟨e, hget, _⟩ := hlists.sound l hl
  exact h.names _ (by rw [hget]; simp) _ (List.mem_append_right _ (List.mem_singleton.mpr rfl))

/-- The entries of a directory are different. -/
theorem nodup_listed (h : m.WellFormed) (hlists : m.Lists blind (keyAt path) listed) :
    ((listed.map fun l => (join path l.name, l.isDir)).map fun top => keyAt top.1).Nodup := by
  have hmap : ((listed.map fun l => (join path l.name, l.isDir)).map fun top => keyAt top.1) =
      (listed.map Listed.name).map fun name => keyAt path ++ [encode name] := by
    rw [List.map_map, List.map_map]
    exact List.map_congr_left fun l hl => keyAt_join path (isName_of_mem_listed h hlists hl)
  rw [hmap]
  refine hlists.unique.map fun a b hab => ?_
  simp only [List.append_cancel_left_eq, List.cons.injEq, encode_inj, and_true] at hab
  exact hab

end Listed

/-- A listed directory with the subtrees of its entries. -/
theorem subtree_of_parts {path : String} {listed : List Listed} {parts : List (List Branch)}
    (h : m.WellFormed) (hdir : m.IsDirAt (keyAt path)) (hlists : m.Lists blind (keyAt path) listed)
    (hparts : List.Forall₂ (fun top part => Subtree blind m top part)
      (listed.map fun l => (join path l.name, l.isDir)) parts) :
    Subtree blind m (path, true) ((path, true) :: parts.flatten) := by
  set tops := listed.map fun l => (join path l.name, l.isDir) with htops
  have hname : ∀ l ∈ listed, IsName (encode l.name) := fun l hl => isName_of_mem_listed h hlists hl
  have htop : ∀ top ∈ tops, ∃ l ∈ listed, top = (join path l.name, l.isDir) ∧
      keyAt top.1 = keyAt path ++ [encode l.name] := by
    intro top hmem
    obtain ⟨l, hl, rfl⟩ := List.mem_map.mp hmem
    exact ⟨l, hl, rfl, keyAt_join path (hname l hl)⟩
  have hpart : ∀ b ∈ parts.flatten, ∃ top ∈ tops, ∃ part, Subtree blind m top part ∧ b ∈ part := by
    intro b hb
    obtain ⟨part, hmem, hb⟩ := List.mem_flatten.mp hb
    obtain ⟨top, htop, hsubtree⟩ := exists_left_of_mem hparts hmem
    exact ⟨top, htop, part, hsubtree, hb⟩
  -- What holds of each part holds of all; the directory itself is what is left to look at.
  constructor
  case top_mem => exact List.mem_cons_self
  case unique =>
    rw [List.map_cons, List.nodup_cons]
    refine ⟨fun hmem => ?_, ?_⟩
    · obtain ⟨b, hb, hkey⟩ := List.mem_map.mp hmem
      obtain ⟨top, htopmem, part, hsubtree, hb⟩ := hpart b hb
      obtain ⟨l, _, _, htopkey⟩ := htop top htopmem
      have hkey : keyAt b.1 = keyAt path := hkey
      have hlength := (hsubtree.prefix_keyAt hb).length_le
      rw [htopkey, hkey, List.length_append, List.length_singleton] at hlength
      omega
    · have hbelow : ∀ top ∈ tops, ∃ name, keyAt top.1 = keyAt path ++ [name] := by
        intro top hmem
        obtain ⟨l, _, _, htopkey⟩ := htop top hmem
        exact ⟨_, htopkey⟩
      exact unique_flatten hparts hbelow (nodup_listed h hlists)
  case below =>
    intro b hb
    rcases List.mem_cons.mp hb with rfl | hb
    · exact ⟨[], by simp, by simp⟩
    · obtain ⟨top, htopmem, part, hsubtree, hb⟩ := hpart b hb
      obtain ⟨l, hl, rfl, _⟩ := htop top htopmem
      obtain ⟨hsegment, hplain⟩ := (NativePath.isName_encode_iff l.name).mp (hname l hl)
      obtain ⟨ss, hss, hssplain⟩ := hsubtree.below b hb
      refine ⟨l.name :: ss, ?_, List.forall_mem_cons.mpr ⟨hplain, hssplain⟩⟩
      rw [hss, CanonicalPath.segments_join, CanonicalPath.segments_of_isSegment hsegment,
        List.append_assoc, List.singleton_append]
  case sound =>
    intro b hb
    rcases List.mem_cons.mp hb with rfl | hb
    · obtain ⟨modified, hget⟩ := hdir
      exact ⟨_, hget, Or.inl rfl⟩
    · obtain ⟨top, _, part, hsubtree, hb⟩ := hpart b hb
      exact hsubtree.sound b hb
  case children =>
    intro b hb hbdir name hget
    rcases List.mem_cons.mp hb with rfl | hb
    · obtain ⟨l, hl, hlname⟩ := hlists.complete name hget
      have htopmem : (join path l.name, l.isDir) ∈ tops := List.mem_map_of_mem hl
      obtain ⟨part, hpartmem, hsubtree⟩ := exists_right_of_mem hparts htopmem
      refine ⟨_, List.mem_cons_of_mem _ (List.mem_flatten.mpr
        ⟨part, hpartmem, hsubtree.top_mem⟩), ?_⟩
      rw [keyAt_join path (hname l hl), hlname]
    · obtain ⟨part, hpartmem, hb⟩ := List.mem_flatten.mp hb
      obtain ⟨top, _, hsubtree⟩ := exists_left_of_mem hparts hpartmem
      obtain ⟨c, hc, hckey⟩ := hsubtree.children b hb hbdir name hget
      exact ⟨c, List.mem_cons_of_mem _ (List.mem_flatten.mpr ⟨part, hpartmem, hc⟩), hckey⟩

/-- What can be said of listed branches step by step: of a single entry, and of a directory once it can
be said of the branches of each of its entries. -/
structure Inductive (blind : Prop) (m : Memory) (P : Branch → List Branch → Prop) : Prop where
  single : ∀ {path : String} {e : Entry}, m.get? (keyAt path) = some e →
    e.isDir = false ∨ blind → P (path, false) [(path, false)]
  parts : ∀ {path : String} {listed : List Listed} {parts : List (List Branch)},
    m.IsDirAt (keyAt path) → m.Lists blind (keyAt path) listed →
    List.Forall₂ P (listed.map fun l => (join path l.name, l.isDir)) parts →
    P (path, true) ((path, true) :: parts.flatten)

theorem inductive_subtree (h : m.WellFormed) : Inductive blind m (Subtree blind m) where
  single := subtree_single
  parts := subtree_of_parts h

/-! ## The order of a move -/

/-- A list of branches to go through: none twice, all below the top, and deeper ones first. -/
structure Queue (top : Branch) (branches : List Branch) : Prop where
  unique : (branches.map fun b => keyAt b.1).Nodup
  below : ∀ b ∈ branches, ∃ ss, segments b.1 = segments top.1 ++ ss ∧ ∀ s ∈ ss, IsPlain s
  sorted : branches.Pairwise fun a b => (keyAt b.1).length ≤ (keyAt a.1).length

namespace Queue

variable {top b c : Branch} {branches : List Branch}

theorem prefix_keyAt (h : Queue top branches) (hb : b ∈ branches) :
    keyAt top.1 <+: keyAt b.1 := by
  obtain ⟨ss, hss, _⟩ := h.below b hb
  exact keyAt_prefix hss

theorem tail (h : Queue top (b :: branches)) : Queue top branches where
  unique := (List.nodup_cons.mp h.unique).2
  below := fun c hc => h.below c (List.mem_cons_of_mem _ hc)
  sorted := (List.pairwise_cons.mp h.sorted).2

theorem ne_of_mem (h : Queue top (b :: branches)) (hc : c ∈ branches) : keyAt c.1 ≠ keyAt b.1 := by
  intro heq
  have hnot : keyAt b.1 ∉ branches.map fun b => keyAt b.1 := (List.nodup_cons.mp h.unique).1
  exact hnot (List.mem_map.mpr ⟨c, hc, heq⟩)

/-- What is still to come is not below what is at the head. -/
theorem not_below (h : Queue top (b :: branches)) (hc : c ∈ branches) :
    ¬ keyAt b.1 <+: keyAt c.1 := by
  intro hbelow
  have hlength := (List.pairwise_cons.mp h.sorted).1 c hc
  exact h.ne_of_mem hc (hbelow.eq_of_length_le hlength).symm

/-- The top comes last. -/
theorem eq_nil (h : Queue top (b :: branches)) (hb : keyAt b.1 = keyAt top.1) : branches = [] := by
  refine List.eq_nil_iff_forall_not_mem.mpr fun c hc => h.not_below hc ?_
  rw [hb]
  exact h.tail.prefix_keyAt hc

end Queue

theorem moveOrder_perm (branches : List Branch) : (moveOrder branches).Perm branches :=
  (List.mergeSort_perm _ _).trans (List.reverse_perm _)

theorem mem_moveOrder {b : Branch} {branches : List Branch} :
    b ∈ moveOrder branches ↔ b ∈ branches :=
  (moveOrder_perm branches).mem_iff

/-- The listed subtree in the order of a move. -/
theorem Subtree.queue {top : Branch} {branches : List Branch} (h : Subtree blind m top branches) :
    Queue top (moveOrder branches) := by
  have hdepth : (moveOrder branches).Pairwise fun a b => depth b.1 ≤ depth a.1 := by
    have hle : (moveOrder branches).Pairwise fun a b => decide (depth b.1 ≤ depth a.1) = true := by
      refine List.pairwise_mergeSort (fun a b c hab hbc => ?_) (fun a b => ?_) branches.reverse
      · rw [decide_eq_true_eq] at hab hbc ⊢
        exact hbc.trans hab
      · rw [Bool.or_eq_true, decide_eq_true_eq, decide_eq_true_eq]
        exact le_total _ _
    exact hle.imp of_decide_eq_true
  refine ⟨?_, fun b hb => h.below b (mem_moveOrder.mp hb), ?_⟩
  · rw [((moveOrder_perm branches).map _).nodup_iff]
    exact h.unique
  · -- Below the top all segments are plain, so that depth is the length of the key.
    refine hdepth.imp_of_mem fun {a b} ha hb hab => ?_
    obtain ⟨ss, hss, hplain⟩ := h.below a (mem_moveOrder.mp ha)
    obtain ⟨ts, hts, hplain'⟩ := h.below b (mem_moveOrder.mp hb)
    rw [depth, depth, hss, hts, List.length_append, List.length_append] at hab
    rw [keyAt_of_segments hss hplain, keyAt_of_segments hts hplain', List.length_append,
      List.length_append, List.length_map, List.length_map]
    omega

/-! ## What the program lists -/

section Program

variable {refusal : Refusal Bytes Key} {w : World Memory}

theorem ensures_readDir {path : String} {ok : List Listed → World Memory → Prop}
    {failed : SyncError → World Memory → Prop} (h : w.storage.WellFormed)
    (ht : w.storage.Textual) (hdir : w.storage.IsDirAt (keyAt path))
    (hok : ∀ listed, w.storage.Lists refusal.Possible (keyAt path) listed → ok listed w)
    (hfailed : refusal.Possible → ∀ e, failed e w) :
    Ensures (unreliable Memory.backend refusal) w (about path (readDir (nativePath path))) ok
      failed := by
  rw [about, Ensures.withError_iff]
  obtain ⟨listed, hlisted, hlists⟩ := h.lists ht hdir
  rintro reply s ⟨listed', hread, hdim⟩
  rw [Memory.backend, keyOf_nativePath, hlisted] at hread
  have hblind : ∀ name e, refusal.entry (nativePath path) name e → refusal.Possible :=
    fun name e href => Or.inr ⟨nativePath path, name, e, href⟩
  rcases hread with hread | ⟨e, href, rfl, rfl⟩
  · cases hread
    cases reply with
    | ok shown =>
      have hshown := hlists.dimmed hblind hdim
      exact hok shown hshown
    | error e =>
      simp only [DimmedReply] at hdim
  · have hpossible : refusal.Possible := Or.inl ⟨.readDir (nativePath path), e, href⟩
    cases reply with
    | ok shown => simp only [DimmedReply] at hdim
    | error e' => exact hfailed hpossible _

/-- The longest key bounds the length of every key. -/
theorem length_le_longestKey {m : Memory} {k : Key} (h : m.get? k ≠ none) :
    k.length ≤ m.longestKey := by
  obtain ⟨e, he⟩ := Option.ne_none_iff_exists'.mp h
  have hmem := m.mem_entries_of_get? k he
  have hfold : ∀ (f : Nat → Key × Entry → Nat), (∀ n entry, f n entry = max n entry.1.length) →
      ∀ (entries : List (Key × Entry)) (n : Nat), n ≤ entries.foldl f n ∧
        ∀ entry ∈ entries, entry.1.length ≤ entries.foldl f n := by
    intro f hf entries
    induction entries with
    | nil => exact fun n => ⟨le_refl n, by simp⟩
    | cons entry entries ih =>
      intro n
      obtain ⟨hmax, hrest⟩ := ih (f n entry)
      have hf := hf n entry
      rw [List.foldl_cons]
      exact ⟨by omega, List.forall_mem_cons.mpr ⟨by omega, hrest⟩⟩
  exact (hfold _ (fun _ _ => rfl) m.entries 0).2 _ hmem

/-- With enough levels, the listing is made to its end; nothing is changed by it. -/
theorem ensures_subtreeFrom (h : w.storage.WellFormed) (ht : w.storage.Textual)
    {P : Branch → List Branch → Prop} (hP : Inductive refusal.Possible w.storage P) (levels : Nat)
    (top : Branch) {e : Entry} (hget : w.storage.get? (keyAt top.1) = some e)
    (hdir : top.2 = e.isDir ∨ refusal.Possible ∧ top.2 = false)
    (hlevels : w.storage.longestKey < (keyAt top.1).length + levels) :
    Ensures (unreliable Memory.backend refusal) w (subtreeFrom levels top)
      (fun branches w' => P top branches ∧ w' = w) (fun _ w' => refusal.Possible ∧ w' = w) := by
  induction levels generalizing top e with
  | zero =>
    -- An entry is never deeper than the longest key.
    have := length_le_longestKey (by rw [hget]; simp : w.storage.get? (keyAt top.1) ≠ none)
    omega
  | succ levels ih =>
    obtain ⟨path, isDir⟩ := top
    cases isDir with
    | false =>
      rw [subtreeFrom, Ensures.pure_iff]
      exact ⟨hP.single hget (hdir.imp Eq.symm And.left), rfl⟩
    | true =>
      have hdirAt : w.storage.IsDirAt (keyAt path) := by
        cases e with
        | dir modified => exact ⟨modified, hget⟩
        | file data modified => simp at hdir
      rw [subtreeFrom, Ensures.bind_iff]
      refine ensures_readDir h ht hdirAt (fun listed hlists => ?_) fun hpossible e => ⟨hpossible, rfl⟩
      have hchild : ∀ top ∈ listed.map fun l => (join path l.name, l.isDir),
          Ensures (unreliable Memory.backend refusal) w (subtreeFrom levels top)
            (fun branches w' => P top branches ∧ w' = w)
            (fun _ w' => refusal.Possible ∧ w' = w) := by
        intro top htop
        obtain ⟨l, hl, rfl⟩ := List.mem_map.mp htop
        obtain ⟨e', hget', hdir'⟩ := hlists.sound l hl
        have hkey := keyAt_join path (isName_of_mem_listed h hlists hl)
        refine ih _ (by rw [hkey, hget']) hdir' ?_
        rw [hkey, List.length_append, List.length_singleton]
        simp only at hlevels
        omega
      rw [Ensures.bind_iff]
      refine (Ensures.mapM hchild).mono ?_ fun _ _ hfailed => hfailed
      rintro parts w' ⟨hparts, rfl⟩
      rw [Ensures.pure_iff]
      exact ⟨hP.parts hdirAt hlists hparts, rfl⟩

theorem ensures_subtree_of (h : w.storage.WellFormed) (ht : w.storage.Textual)
    {P : Branch → List Branch → Prop} (hP : Inductive refusal.Possible w.storage P) {path : String}
    (hdir : w.storage.IsDirAt (keyAt path)) :
    Ensures (unreliable Memory.backend refusal) w (subtree path)
      (fun branches w' => P (path, true) branches ∧ w' = w)
      (fun _ w' => refusal.Possible ∧ w' = w) := by
  obtain ⟨modified, hget⟩ := hdir
  rw [subtree, Ensures.bind_iff]
  rintro depth s hdepth
  cases hdepth
  refine ensures_subtreeFrom h ht hP _ _ hget (Or.inl rfl) ?_
  omega

/-- The listing has everything in it. -/
theorem ensures_subtree (h : w.storage.WellFormed) (ht : w.storage.Textual) {path : String}
    (hdir : w.storage.IsDirAt (keyAt path)) :
    Ensures (unreliable Memory.backend refusal) w (subtree path)
      (fun branches w' => Subtree refusal.Possible w.storage (path, true) branches ∧ w' = w)
      (fun _ w' => refusal.Possible ∧ w' = w) :=
  ensures_subtree_of h ht (inductive_subtree h) hdir

end Program

end SyncEndpoint.Endpoint
