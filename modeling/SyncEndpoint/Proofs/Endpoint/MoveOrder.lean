import SyncEndpoint.Proofs.Endpoint.Subtree
import SyncEndpoint.Proofs.Endpoint.Walk.Found

set_option autoImplicit false

/-! # The order of a move

The branches of a directory are listed with those above first, and moved with those above last. Both
lists have all that is at and below the directory in them, each once, as what it is and under the path
that leads to it (`subtree_move_order`). -/

namespace SyncEndpoint.Endpoint

open CanonicalPath (join)
open NativePath (IsName)
open Storage
open Text.Utf8

variable {blind : Prop} {m : Memory} {top : Branch} {branches : List Branch} {path : String}

/-! ## Those above first -/

/-- The path of a listed entry is the one that its name leads to. -/
theorem join_eq_entryPath {name : String} (h : IsName (encode name)) :
    join path name = entryPath path (encode name) := by
  obtain ⟨hsegment, hplain⟩ := (NativePath.isName_encode_iff name).mp h
  rw [entryPath, NativePath.display, decodeLossy_encode,
    Platform.toCanonical_native hsegment hplain.1, join, join]
  simp [CanonicalPath.separator]

/-- Branches below a top, each before those that lie below it. -/
structure ParentsFirst (top : Branch) (branches : List Branch) : Prop where
  below : ∀ b ∈ branches, ∃ names, (∀ name ∈ names, IsTextName name) ∧
    b.1 = pathBelow top.1 names
  order : branches.Pairwise fun a b => ¬ keyAt b.1 <+: keyAt a.1

theorem ParentsFirst.prefix_keyAt (h : ParentsFirst top branches) {b : Branch} (hb : b ∈ branches) :
    keyAt top.1 <+: keyAt b.1 := by
  obtain ⟨names, hnames, hpath⟩ := h.below b hb
  rw [hpath, keyAt_pathBelow hnames]
  exact List.prefix_append _ _

theorem parentsFirst_single (path : String) : ParentsFirst (path, false) [(path, false)] where
  below := by
    intro b hb
    rw [List.mem_singleton.mp hb]
    exact ⟨[], by simp, rfl⟩
  order := List.pairwise_singleton _ _

/-- What lies below two different entries of a directory does not lie below each other. -/
theorem pairwise_parts {tops : List Branch} {parts : List (List Branch)} {above : Key}
    (hparts : List.Forall₂ ParentsFirst tops parts)
    (htops : ∀ top ∈ tops, ∃ name, keyAt top.1 = above ++ [name])
    (hunique : (tops.map fun top => keyAt top.1).Nodup) :
    parts.Pairwise fun part part' => ∀ a ∈ part, ∀ b ∈ part', ¬ keyAt b.1 <+: keyAt a.1 := by
  have hdifferent : tops.Pairwise fun top top' =>
      keyAt top.1 ≠ keyAt top'.1 ∧ (keyAt top.1).length = (keyAt top'.1).length := by
    refine (List.pairwise_map.mp hunique).imp_of_mem fun {top top'} htop htop' hne => ⟨hne, ?_⟩
    obtain ⟨name, hname⟩ := htops top htop
    obtain ⟨name', hname'⟩ := htops top' htop'
    simp [hname, hname']
  refine pairwise_right hparts hdifferent ?_
  intro top top' part part' hne hpart hpart' a ha b hb hbelow
  have htop : keyAt top.1 <+: keyAt a.1 := hpart.prefix_keyAt ha
  have htop' : keyAt top'.1 <+: keyAt a.1 := (hpart'.prefix_keyAt hb).trans hbelow
  exact hne.1 ((List.prefix_of_prefix_length_le htop htop' hne.2.le).eq_of_length hne.2)

/-- A listed directory before the branches of its entries. -/
theorem parentsFirst_of_parts (h : m.WellFormed) {listed : List Listed} {parts : List (List Branch)}
    (hlists : m.Lists blind (keyAt path) listed)
    (hparts : List.Forall₂ ParentsFirst (listed.map fun l => (join path l.name, l.isDir)) parts) :
    ParentsFirst (path, true) ((path, true) :: parts.flatten) := by
  have hname : ∀ l ∈ listed, IsTextName (encode l.name) := by
    intro l hl
    exact ⟨isName_of_mem_listed h hlists hl, l.name, rfl⟩
  have hpart : ∀ b ∈ parts.flatten, ∃ l ∈ listed, ∃ names, (∀ name ∈ names, IsTextName name) ∧
      b.1 = pathBelow path (encode l.name :: names) := by
    intro b hb
    obtain ⟨part, hpart, hb⟩ := List.mem_flatten.mp hb
    obtain ⟨top, htop, hfirst⟩ := exists_left_of_mem hparts hpart
    obtain ⟨l, hl, rfl⟩ := List.mem_map.mp htop
    obtain ⟨names, hnames, hpath⟩ := hfirst.below b hb
    exact ⟨l, hl, names, hnames, by rw [hpath, pathBelow_cons, join_eq_entryPath (hname l hl).1]⟩
  constructor
  case below =>
    intro b hb
    rcases List.mem_cons.mp hb with rfl | hb
    · exact ⟨[], by simp, rfl⟩
    · obtain ⟨l, hl, names, hnames, hpath⟩ := hpart b hb
      exact ⟨_, List.forall_mem_cons.mpr ⟨hname l hl, hnames⟩, hpath⟩
  case order =>
    rw [List.pairwise_cons, List.pairwise_flatten]
    refine ⟨?_, ?_, ?_⟩
    · intro b hb hbelow
      obtain ⟨l, hl, names, hnames, hpath⟩ := hpart b hb
      have hlength := hbelow.length_le
      rw [hpath, keyAt_pathBelow (List.forall_mem_cons.mpr ⟨hname l hl, hnames⟩)] at hlength
      simp at hlength
    · intro part hmem
      obtain ⟨top, -, hfirst⟩ := exists_left_of_mem hparts hmem
      exact hfirst.order
    · have htops : ∀ top ∈ listed.map fun l => (join path l.name, l.isDir),
          ∃ name, keyAt top.1 = keyAt path ++ [name] := by
        intro top htop
        obtain ⟨l, hl, rfl⟩ := List.mem_map.mp htop
        exact ⟨_, keyAt_join path (hname l hl).1⟩
      exact pairwise_parts hparts htops (nodup_listed h hlists)

theorem inductive_parentsFirst (h : m.WellFormed) : Inductive blind m ParentsFirst where
  single := fun _ _ => parentsFirst_single _
  parts := fun _ => parentsFirst_of_parts h

theorem Inductive.and {P Q : Branch → List Branch → Prop} (hP : Inductive blind m P)
    (hQ : Inductive blind m Q) : Inductive blind m fun top branches =>
      P top branches ∧ Q top branches where
  single := fun hget hdir => ⟨hP.single hget hdir, hQ.single hget hdir⟩
  parts := by
    intro path listed parts hdir hlists hparts
    exact ⟨hP.parts hdir hlists (hparts.imp fun _ _ h => h.1),
      hQ.parts hdir hlists (hparts.imp fun _ _ h => h.2)⟩

/-! ## Those above last -/

/-- What comes later in a queue does not lie below what comes before. -/
theorem Queue.pairwise (h : Queue top branches) :
    branches.Pairwise fun a b => ¬ keyAt a.1 <+: keyAt b.1 := by
  induction branches with
  | nil => exact .nil
  | cons b branches ih =>
    rw [List.pairwise_cons]
    exact ⟨fun c hc => h.not_below hc, ih h.tail⟩

/-- The top, being above all the others, comes last. -/
theorem Queue.getLast?_eq (h : Queue top branches) (htop : top ∈ branches) :
    branches.getLast? = some top := by
  obtain ⟨last, hlast⟩ : ∃ last, branches.getLast? = some last :=
    Option.ne_none_iff_exists'.mp (by simpa using List.ne_nil_of_mem htop)
  obtain ⟨before, hbranches⟩ := List.getLast?_eq_some_iff.mp hlast
  have hbelow : keyAt top.1 <+: keyAt last.1 := h.prefix_keyAt (List.mem_of_getLast? hlast)
  have horder := h.pairwise
  rw [hbranches, List.pairwise_append] at horder
  rw [hbranches] at htop
  rcases List.mem_append.mp htop with hbefore | hself
  · exact absurd hbelow (horder.2.2 top hbefore last (List.mem_singleton.mpr rfl))
  · rw [hlast, List.mem_singleton.mp hself]

/-! ## Both -/

/-- The branches at and below a path: all of them, each once, as what it is, and those above first. -/
structure ListsBranches (m : Memory) (path : String) (branches : List Branch) : Prop where
  mem_iff : ∀ b, b ∈ branches ↔
    ∃ names e, m.get? (keyAt path ++ names) = some e ∧ b = (pathBelow path names, e.isDir)
  unique : (branches.map fun b => keyAt b.1).Nodup
  parentsFirst : branches.Pairwise fun a b => ¬ keyAt b.1 <+: keyAt a.1

/-- The same branches in another order: those above last, and so the top last of all. -/
structure ParentsLast (path : String) (branches ordered : List Branch) : Prop where
  perm : ordered.Perm branches
  order : ordered.Pairwise fun a b => ¬ keyAt a.1 <+: keyAt b.1
  getLast?_eq : ordered.getLast? = some (path, true)

theorem ListsBranches.of_subtree (h : m.WellFormed) (hblind : ¬ blind)
    (hsubtree : Subtree blind m (path, true) branches)
    (hfirst : ParentsFirst (path, true) branches) : ListsBranches m path branches where
  mem_iff := by
    intro b
    constructor
    · intro hb
      obtain ⟨names, hnames, hpath⟩ := hfirst.below b hb
      obtain ⟨e, hget, hdir⟩ := hsubtree.sound b hb
      rw [hpath, keyAt_pathBelow hnames] at hget
      exact ⟨names, e, hget, Prod.ext hpath (hdir.resolve_right fun hdim => hblind hdim.1)⟩
    · rintro ⟨names, e, hget, rfl⟩
      obtain ⟨b, hb, hkey, hdir⟩ := hsubtree.complete hblind h names hget
      obtain ⟨names', hnames', hpath⟩ := hfirst.below b hb
      -- The path has the same names as the key.
      rw [hpath, keyAt_pathBelow hnames', List.append_cancel_left_eq] at hkey
      subst hkey
      rw [← hpath, ← hdir]
      exact hb
  unique := hsubtree.unique
  parentsFirst := hfirst.order

theorem ParentsLast.of_subtree (hsubtree : Subtree blind m (path, true) branches) :
    ParentsLast path branches (moveOrder branches) where
  perm := moveOrder_perm branches
  order := hsubtree.queue.pairwise
  getLast?_eq := hsubtree.queue.getLast?_eq (mem_moveOrder.mpr hsubtree.top_mem)

/-- The branches of a directory are listed with parents before what is in them, and what is moved is
all that is listed, with parents after what is in them, and the directory itself last. -/
theorem subtree_move_order {w : World Memory} (h : w.storage.WellFormed) (ht : w.storage.Textual)
    (hdir : w.storage.IsDirAt (keyAt path)) :
    ∃ branches, (subtree path).run.run Memory.backend w = (.ok branches, w) ∧
      ListsBranches w.storage path branches ∧ ParentsLast path branches (moveOrder branches) := by
  have hnone : ¬ (Refusal.none : Refusal Bytes Key).Possible := Refusal.not_possible_none
  have hboth : Inductive (Refusal.none : Refusal Bytes Key).Possible w.storage _ :=
    (inductive_subtree h).and (inductive_parentsFirst h)
  have hensures := (ensures_subtree_of h ht hboth hdir).mono (fun _ _ hok => hok)
    fun _ _ hfailed => hnone hfailed.1
  obtain ⟨branches, hrun, ⟨hsubtree, hfirst⟩, hworld⟩ := hensures.run_eq_ok
  exact ⟨branches, Prod.ext hrun hworld, .of_subtree h hnone hsubtree hfirst, .of_subtree hsubtree⟩

/-- A directory with its marker, and with a file in a directory in it. -/
def nestedFile : Memory where
  entries := [([], .dir ⟨0, 0⟩), ([encode "d"], .dir ⟨0, 0⟩),
    ([encode "d", encode ".__tandem"], .file (encode "x") ⟨1, 0⟩),
    ([encode "d", encode "b"], .dir ⟨1, 0⟩),
    ([encode "d", encode "b", encode "f"], .file (encode "y") ⟨1, 0⟩)]
  clock := fun look => ⟨look + 2, 0⟩

theorem subtree_move_order_nestedFile :
    nestedFile.WellFormed ∧ nestedFile.Textual ∧ nestedFile.IsDirAt (keyAt "/d") ∧
    ∃ branches, (subtree "/d").run.run Memory.backend ⟨nestedFile, 0⟩ =
        (.ok branches, ⟨nestedFile, 0⟩) ∧
      ListsBranches nestedFile "/d" branches ∧
      ParentsLast "/d" branches (moveOrder branches) := by
  have hwellFormed : nestedFile.WellFormed := by decide
  have htextual : nestedFile.Textual := .of_entries (by simp [nestedFile])
  have hdir : nestedFile.IsDirAt (keyAt "/d") := by
    rw [keyAt_eq]
    decide
  exact ⟨hwellFormed, htextual, hdir,
    subtree_move_order hwellFormed htextual hdir⟩

end SyncEndpoint.Endpoint
