import SyncEndpoint.Proofs.Storage.Frame

set_option autoImplicit false

/-! # The storage after any calls

A storage in memory is a tree to begin with. It stays one through all calls, with any paths and
whatever comes of them, but for one kind: a rename that succeeds although it puts a directory below
itself. That directory is then missing above what has become of it. -/

namespace SyncEndpoint.Storage.Memory

open NativePath (ofString)
open Text.Utf8 (encode)

/-- There is a directory at the root, and everything else lies in a directory. -/
structure IsTree (m : Memory) : Prop where
  root : m.IsDirAt []
  parent : ∀ key name, m.get? (key ++ [name]) ≠ none → m.IsDirAt key

theorem WellFormed.isTree {m : Memory} (h : m.WellFormed) : m.IsTree :=
  ⟨h.root, h.parent⟩

/-! ## One call -/

/-- The call is a rename that succeeds and puts what it names below itself. -/
def PutsBelowItself (m : Memory) : Call Bytes Key → Prop
  | .rename source target =>
    (∃ m', m.rename (keyOf source) (keyOf target) = .ok m') ∧
      keyOf source <+: keyOf target ∧ keyOf source ≠ keyOf target
  | _ => False

variable {m : Memory} {c : Call Bytes Key}

theorem WellFormed.backend (h : m.WellFormed) (hc : ¬ m.PutsBelowItself c) :
    (backend c m).2.WellFormed := by
  cases c with
  | create path =>
    exact inv_change WellFormed h fun m' hm' => (filed_of_create hm').wellFormed h isName_of_mem_keyOf
  | openWrite path =>
    exact inv_change WellFormed h fun m' hm' => (h.filed_of_openWrite hm').wellFormed h isName_of_mem_keyOf
  | createDirAll path => exact h.createDirAll isName_of_mem_keyOf
  | removeAll path => exact inv_change WellFormed h fun m' hm' => h.of_removeAll hm'
  | rename source target =>
    refine inv_change WellFormed h fun m' hm' => h.of_rename isName_of_mem_keyOf hm' fun hbelow => ?_
    by_contra hne
    exact hc ⟨⟨m', hm'⟩, hbelow, hne⟩
  | write key data =>
    have hwellFormed : (m.change () (m.append key data)).2.WellFormed :=
      inv_change WellFormed h fun m' hm' => by
        obtain ⟨old, t, hget, -⟩ := exists_file_of_append hm'
        exact (h.filed_of_append hm').wellFormed h (h.names key (by simp [hget]))
    exact hwellFormed
  | _ => exact h

theorem WellFormed.not_isTree_backend (h : m.WellFormed) (hc : m.PutsBelowItself c) :
    ¬ (Memory.backend c m).2.IsTree := by
  cases c with
  | rename source target =>
    obtain ⟨⟨m', hm'⟩, hbelow, hne⟩ := hc
    obtain ⟨hgone, name, hthere⟩ := h.orphan_of_rename hm' hbelow hne
    have hafter : (Memory.backend (.rename source target) m).2 = m' := by
      rw [Memory.backend, hm']
      rfl
    rw [hafter]
    exact fun htree => (htree.parent _ name hthere).ne_none hgone
  | _ => exact hc.elim

/-! ## Any calls -/

/-- The storage after some calls, one after the other. -/
def after (m : Memory) (calls : List (Call Bytes Key)) : Memory :=
  calls.foldl (fun m c => (Memory.backend c m).2) m

theorem after_append_singleton (m : Memory) (calls : List (Call Bytes Key)) (c : Call Bytes Key) :
    m.after (calls ++ [c]) = (Memory.backend c (m.after calls)).2 := by
  rw [after, List.foldl_append]
  rfl

/-- Calls of which none puts something below itself in a tree leave a tree. -/
theorem WellFormed.after (h : m.WellFormed) {calls : List (Call Bytes Key)}
    (hcalls : ∀ before c, before ++ [c] <+: calls → (m.after before).WellFormed →
      ¬ (m.after before).PutsBelowItself c) : (m.after calls).WellFormed := by
  induction calls using List.reverseRecOn with
  | nil => exact h
  | append_singleton calls c ih =>
    have hbefore : (m.after calls).WellFormed :=
      ih fun before d hpre => hcalls before d (hpre.trans (List.prefix_append calls [c]))
    rw [after_append_singleton]
    exact hbefore.backend (hcalls calls c (List.prefix_refl _) hbefore)

/-- A new storage stays a tree through some calls exactly if none of them is a rename that puts
something below itself. -/
theorem isTree_after_iff (clock : Nat → Timestamp) (calls : List (Call Bytes Key)) :
    (∀ before, before <+: calls → ((new clock).after before).IsTree) ↔
      ∀ before c, before ++ [c] <+: calls → ¬ ((new clock).after before).PutsBelowItself c := by
  have hnew := wellFormed_new clock
  constructor
  · intro htree before c hpre hputs
    have hafter : ∀ earlier d, earlier ++ [d] <+: calls →
        (Memory.backend d ((new clock).after earlier)).2.IsTree := by
      intro earlier d hearlier
      rw [← after_append_singleton]
      exact htree _ hearlier
    have hbefore : ((new clock).after before).WellFormed :=
      hnew.after fun earlier d hearlier hwellFormed hputs' =>
        hwellFormed.not_isTree_backend hputs' (hafter earlier d
          (hearlier.trans ((List.prefix_append before [c]).trans hpre)))
    exact hbefore.not_isTree_backend hputs (hafter before c hpre)
  · intro hcalls before hpre
    exact (hnew.after fun earlier d hearlier _ =>
      hcalls earlier d (hearlier.trans hpre)).isTree

/-- An empty root can be moved away, and an empty directory into itself, which leaves what becomes of
it without a directory to lie in. -/
theorem not_isTree_after_rename :
    ¬ ((new fun look => ⟨look, 0⟩).after [.rename (ofString "/") (ofString "/x")]).IsTree ∧
      ¬ ((new fun look => ⟨look, 0⟩).after
        [.createDirAll (ofString "/a"), .rename (ofString "/a") (ofString "/a/b")]).IsTree := by
  refine ⟨fun htree => ?_, fun htree => ?_⟩
  · exact absurd htree.root (by decide)
  · exact absurd (htree.parent [encode "a"] (encode "b") (by decide)) (by decide)

end SyncEndpoint.Storage.Memory
