import SyncEndpoint.Proofs.Unicode.Order
import SyncEndpoint.Proofs.Unicode.Tables

set_option autoImplicit false

/-! # The laws of the normal forms

Decomposing what has been composed gives the decomposition of the text (`nfd_nfc`), because each
composed character decomposes again as the two that it was made of, and a mark that was composed may
go back behind those that it had passed. So both forms are normal forms, and each is the same for a
text and for its other form (`nfd_nfd`, `nfc_nfc`, `nfc_nfd`). At a character that stands alone a
text can be cut in two, and each part be normalized by itself. -/

namespace SyncEndpoint.Unicode

variable {c : Nat} {cs ds : List Nat}

/-! ## Decomposition -/

theorem mem_nfd : c ∈ nfd cs ↔ ∃ d ∈ cs, c ∈ decompose d := by
  rw [nfd, mem_canonicalOrder, List.mem_flatMap]

/-- What a text decomposes to is final. -/
theorem decompose_of_mem_nfd (h : c ∈ nfd cs) : decompose c = [c] := by
  obtain ⟨d, -, hc⟩ := mem_nfd.mp h
  exact decompose_of_mem hc

theorem nfd_nfd (cs : List Nat) : nfd (nfd cs) = nfd cs := by
  rw [nfd, flatMap_decompose_eq_self fun c hc => decompose_of_mem_nfd hc]
  exact canonicalOrder_of_ordered (ordered_canonicalOrder _)

theorem nfc_nfd (cs : List Nat) : nfc (nfd cs) = nfc cs := by
  rw [nfc, nfd_nfd, nfc]

/-! ## Composition, one character at a time -/

namespace Composing

variable {s : Composing} {st : Nat}

theorem finish_of_none (h : s.starter = none) : s.finish = s.done.reverse := by
  rw [finish, h]

theorem finish_of_some (h : s.starter = some st) :
    s.finish = s.done.reverse ++ st :: s.pending.reverse := by
  rw [finish, h]
  simp

/-- Before the first starter, characters are just put down. -/
theorem push_of_none (h : s.starter = none) (c : Nat) :
    s.push c =
      if combiningClass c = 0 then { s with starter := some c }
      else ⟨c :: s.done, none, s.pending⟩ := by
  simp only [push, h]

/-- A character that the starter can take. -/
theorem push_of_joined {joined : Nat} (h : s.starter = some st)
    (hfree : s.blocks (combiningClass c) = false) (hjoined : compose? st c = some joined) :
    s.push c = { s with starter := some joined } := by
  rw [push, h]
  simp only [hfree, hjoined, Bool.false_eq_true, if_false]

/-- A character that the starter cannot take. -/
theorem push_of_kept (h : s.starter = some st)
    (hkept : s.blocks (combiningClass c) = true ∨ compose? st c = none) :
    s.push c =
      if combiningClass c = 0 then { done := s.pending ++ st :: s.done, starter := some c }
      else ⟨s.done, some st, c :: s.pending⟩ := by
  have hnone : (if s.blocks (combiningClass c) then none else compose? st c) = none := by
    rcases hkept with hblocks | hnone
    · rw [if_pos hblocks]
    · rw [hnone, ite_self]
  simp only [push, h, hnone]

/-- Nothing waits for a starter that is not there. -/
def Idle (s : Composing) : Prop :=
  s.starter = none → s.pending = []

/-- A character joins the starter, or it is put at the end; there it is one more that waits, or
nothing waits any more. -/
theorem push_cases (hidle : s.Idle) (c : Nat) :
    (∃ st joined, s.starter = some st ∧ s.blocks (combiningClass c) = false ∧
      compose? st c = some joined ∧ s.push c = { s with starter := some joined }) ∨
    (s.push c).finish = s.finish ++ [c] ∧ (s.push c).Idle ∧
      ((s.push c).pending = [] ∨
        combiningClass c ≠ 0 ∧ (s.push c).pending = c :: s.pending) := by
  cases hstarter : s.starter with
  | none =>
    have hpending := hidle hstarter
    rw [push_of_none hstarter, finish_of_none hstarter]
    refine Or.inr ?_
    split
    · rw [finish_of_some rfl]
      exact ⟨by simp [hpending], fun _ => hpending, Or.inl hpending⟩
    · rw [finish_of_none rfl]
      exact ⟨by simp, fun _ => hpending, Or.inl hpending⟩
  | some st =>
    by_cases hkept : s.blocks (combiningClass c) = true ∨ compose? st c = none
    · rw [push_of_kept hstarter hkept, finish_of_some hstarter]
      refine Or.inr ?_
      split
      · rw [finish_of_some rfl]
        exact ⟨by simp, fun _ => rfl, Or.inl rfl⟩
      · next hc =>
        rw [finish_of_some rfl]
        exact ⟨by simp, nofun, Or.inr ⟨hc, rfl⟩⟩
    · rw [not_or, Bool.not_eq_true] at hkept
      obtain ⟨joined, hjoined⟩ := Option.ne_none_iff_exists'.mp hkept.2
      exact Or.inl ⟨st, joined, rfl, hkept.1, hjoined, push_of_joined hstarter hkept.1 hjoined⟩

/-- A composition on its way through a text that is decomposed and in order, with `rest` to come. -/
structure Ready (s : Composing) (rest : List Nat) : Prop where
  idle : s.Idle
  combining : ∀ p ∈ s.pending, combiningClass p ≠ 0
  /-- The last of those that wait has the greatest class. -/
  last : ∀ p ∈ s.pending, ∀ q ∈ s.pending.head?, combiningClass p ≤ combiningClass q
  next : ∀ p ∈ s.pending, ∀ q ∈ rest.head?, InOrder p q
  ordered : Ordered rest
  final : ∀ p ∈ s.pending ++ rest, decompose p = [p]

theorem ready_start (hordered : Ordered cs) (hfinal : ∀ c ∈ cs, decompose c = [c]) :
    Ready {} cs :=
  ⟨fun _ => rfl, by simp, by simp, by simp, hordered, hfinal⟩

/-- Those that do not keep a character from the starter are of lesser classes. -/
theorem Ready.lt_of_not_blocks {rest : List Nat} (h : s.Ready rest) {n : Nat}
    (hfree : s.blocks n = false) : ∀ p ∈ s.pending, combiningClass p < n := by
  intro p hp
  cases hpending : s.pending with
  | nil =>
    rw [hpending] at hp
    cases hp
  | cons q qs =>
    have hle := h.last p hp q (by rw [hpending, List.head?_cons, Option.mem_some_iff])
    rw [blocks, hpending] at hfree
    exact Nat.lt_of_le_of_lt hle (Nat.not_le.mp (of_decide_eq_false hfree))

theorem Ready.push {rest : List Nat} (h : s.Ready (c :: rest)) : (s.push c).Ready rest := by
  have hrest : Ordered rest := h.ordered.tail
  have hfirst : ∀ q ∈ rest.head?, InOrder c q := (List.isChain_cons.mp h.ordered).1
  have hfinal : ∀ p ∈ s.pending ++ rest, decompose p = [p] := fun p hp =>
    h.final p (by
      rw [List.mem_append] at hp ⊢
      exact hp.imp_right (List.mem_cons_of_mem c))
  rcases push_cases h.idle c with
    ⟨st, joined, hstarter, hfree, -, hpush⟩ | ⟨-, hidle, hpending | ⟨hc, hpending⟩⟩
  · rw [hpush]
    refine ⟨nofun, h.combining, h.last, fun p hp q hq => ?_, hrest, hfinal⟩
    have hlt := h.lt_of_not_blocks hfree p hp
    exact (hfirst q hq).imp_right fun hle => Nat.le_trans (Nat.le_of_lt hlt) hle
  · refine ⟨hidle, ?_, ?_, ?_, hrest, fun p hp => hfinal p ?_⟩ <;> rw [hpending] at *
    · simp
    · simp
    · simp
    · exact List.mem_append_right _ hp
  · -- The new one is behind those that wait, and none of them has a greater class.
    have hle : ∀ p ∈ s.pending, combiningClass p ≤ combiningClass c := fun p hp =>
      (h.next p hp c rfl).resolve_left hc
    refine ⟨hidle, ?_, ?_, ?_, hrest, ?_⟩ <;> rw [hpending]
    · exact List.forall_mem_cons.mpr ⟨hc, h.combining⟩
    · intro p hp q hq
      rw [List.head?_cons, Option.mem_some_iff] at hq
      subst hq
      rcases List.mem_cons.mp hp with rfl | hp
      · exact Nat.le_refl _
      · exact hle p hp
    · intro p hp q hq
      rcases List.mem_cons.mp hp with rfl | hp
      · exact hfirst q hq
      · exact (hfirst q hq).imp_right (Nat.le_trans (hle p hp))
    · intro p hp
      rw [List.cons_append, List.mem_cons] at hp
      rcases hp with rfl | hp
      · exact h.final p (by simp)
      · exact hfinal p hp

/-- A character that is added stays, once all is decomposed and ordered again. -/
theorem Ready.canonicalOrder_push {rest : List Nat} (h : s.Ready (c :: rest)) (after : List Nat) :
    canonicalOrder ((s.push c).finish.flatMap decompose ++ after) =
      canonicalOrder (s.finish.flatMap decompose ++ c :: after) := by
  have hc : decompose c = [c] := h.final c (by simp)
  rcases push_cases h.idle c with ⟨st, joined, hstarter, hfree, hjoined, hpush⟩ | ⟨hfinish, -, -⟩
  · have hmarks : s.pending.reverse.flatMap decompose = s.pending.reverse :=
      flatMap_decompose_eq_self fun p hp =>
        h.final p (List.mem_append_left _ (List.mem_reverse.mp hp))
    rw [hpush, finish_of_some rfl, finish_of_some hstarter]
    simp only [List.flatMap_append, List.flatMap_cons, hmarks, decompose_of_compose? hjoined, hc]
    -- What waits is of other classes, so that the character may come behind it.
    by_cases hpending : s.pending = []
    · simp [hpending]
    · have hlt := h.lt_of_not_blocks hfree
      have hzero : combiningClass c ≠ 0 := by
        obtain ⟨p, hp⟩ := List.exists_mem_of_ne_nil _ hpending
        have := hlt p hp
        omega
      have hmove := canonicalOrder_move (s.done.reverse.flatMap decompose ++ decompose st) after
        hzero fun p (hp : p ∈ s.pending.reverse) =>
          ⟨h.combining p (List.mem_reverse.mp hp), (hlt p (List.mem_reverse.mp hp)).ne⟩
      simpa using hmove
  · rw [hfinish, List.flatMap_append, List.flatMap_singleton, hc, List.append_assoc]
    rfl

/-- A whole text that is composed stays, once it is decomposed and ordered again. -/
theorem Ready.canonicalOrder_foldl (h : s.Ready cs) :
    canonicalOrder ((cs.foldl Composing.push s).finish.flatMap decompose) =
      canonicalOrder (s.finish.flatMap decompose ++ cs) := by
  induction cs generalizing s with
  | nil => rw [List.foldl_nil, List.append_nil]
  | cons c cs ih => rw [List.foldl_cons, ih h.push, h.canonicalOrder_push]

end Composing

/-! ## Composition -/

/-- What has been composed decomposes again. -/
theorem nfd_composeAll (hordered : Ordered cs) (hfinal : ∀ c ∈ cs, decompose c = [c]) :
    nfd (composeAll cs) = cs := by
  rw [nfd, composeAll, (Composing.ready_start hordered hfinal).canonicalOrder_foldl]
  exact canonicalOrder_of_ordered hordered

theorem nfd_nfc (cs : List Nat) : nfd (nfc cs) = nfd cs :=
  nfd_composeAll (ordered_canonicalOrder _) fun _ hc => decompose_of_mem_nfd hc

theorem nfc_nfc (cs : List Nat) : nfc (nfc cs) = nfc cs := by
  rw [nfc, nfd_nfc, nfc]

/-! ## Cutting a text in two -/

theorem Composing.idle_foldl {s : Composing} (h : s.Idle) (cs : List Nat) :
    (cs.foldl push s).Idle := by
  induction cs generalizing s with
  | nil => exact h
  | cons c cs ih =>
    refine ih ?_
    rcases push_cases h c with ⟨st, joined, -, -, -, hpush⟩ | ⟨-, hidle, -⟩
    · rw [hpush]
      exact nofun
    · exact hidle

/-- A composition behind a character that stands alone goes on as one from the start, with more text
in front. Up to the first starter, what the one has finished waits in the other. -/
inductive Composing.Behind (c : Nat) (front : List Nat) : Composing → Composing → Prop
  | waiting (marks : List Nat) : Behind c front ⟨front, some c, marks⟩ ⟨marks, none, []⟩
  | going (done pending : List Nat) (st : Nat) :
    Behind c front ⟨done ++ c :: front, some st, pending⟩ ⟨done, some st, pending⟩

theorem Composing.Behind.push (hc : Isolated c) {front : List Nat} {s s' : Composing}
    (h : Behind c front s s') (d : Nat) : Behind c front (s.push d) (s'.push d) := by
  cases h with
  | waiting marks =>
    rw [push_of_kept rfl (Or.inr (hc.compose_left d)), push_of_none rfl]
    split
    · exact .going marks [] d
    · exact .waiting (d :: marks)
  | going done pending st =>
    by_cases hkept : Composing.blocks ⟨done, some st, pending⟩ (combiningClass d) = true ∨
        compose? st d = none
    · rw [push_of_kept (s := ⟨done ++ c :: front, some st, pending⟩) rfl hkept,
        push_of_kept rfl hkept]
      split
      · have happend : pending ++ st :: (done ++ c :: front) =
            (pending ++ st :: done) ++ c :: front := by simp
        rw [happend]
        exact .going (pending ++ st :: done) [] d
      · exact .going done (d :: pending) st
    · rw [not_or, Bool.not_eq_true] at hkept
      obtain ⟨joined, hjoined⟩ := Option.ne_none_iff_exists'.mp hkept.2
      rw [push_of_joined (s := ⟨done ++ c :: front, some st, pending⟩) rfl hkept.1 hjoined,
        push_of_joined rfl hkept.1 hjoined]
      exact .going done pending joined

theorem Composing.Behind.finish {front : List Nat} {s s' : Composing} (h : Behind c front s s') :
    s.finish = front.reverse ++ c :: s'.finish := by
  cases h with
  | waiting marks => rw [finish_of_some rfl, finish_of_none rfl]
  | going done pending st =>
    rw [finish_of_some rfl, finish_of_some rfl]
    simp

theorem composeAll_append_isolated (hc : Isolated c) :
    composeAll (cs ++ c :: ds) = composeAll cs ++ c :: composeAll ds := by
  set s := cs.foldl Composing.push {} with hs
  have hidle : s.Idle := Composing.idle_foldl (fun _ => rfl) cs
  -- The character ends the composition of what is in front of it.
  have hcut : s.push c = ⟨s.finish.reverse, some c, []⟩ := by
    cases hstarter : s.starter with
    | none =>
      rw [Composing.push_of_none hstarter, if_pos hc.starter, Composing.finish_of_none hstarter,
        List.reverse_reverse, hidle hstarter]
    | some st =>
      rw [Composing.push_of_kept hstarter (Or.inr (hc.compose_right st)), if_pos hc.starter,
        Composing.finish_of_some hstarter]
      simp
  have hbehind : ∀ (ds : List Nat) {front : List Nat} {r r' : Composing},
      Composing.Behind c front r r' →
        Composing.Behind c front (ds.foldl Composing.push r) (ds.foldl Composing.push r') := by
    intro ds
    induction ds with
    | nil => exact fun h => h
    | cons d ds ih => exact fun h => ih (h.push hc d)
  rw [composeAll, List.foldl_append, List.foldl_cons, ← hs, hcut,
    (hbehind ds (.waiting [])).finish, List.reverse_reverse]
  rfl

theorem nfd_append_isolated (hc : Isolated c) : nfd (cs ++ c :: ds) = nfd cs ++ c :: nfd ds := by
  rw [nfd, List.flatMap_append, List.flatMap_cons, hc.decompose, List.singleton_append,
    canonicalOrder_append_starter hc.starter]
  rfl

theorem nfc_append_isolated (hc : Isolated c) : nfc (cs ++ c :: ds) = nfc cs ++ c :: nfc ds := by
  rw [nfc, nfd_append_isolated hc, composeAll_append_isolated hc]
  rfl

/-! ## What the forms have in them -/

theorem nfd_eq_nil_iff : nfd cs = [] ↔ cs = [] := by
  refine ⟨fun h => ?_, by rintro rfl; rfl⟩
  have hnil := (canonicalOrder_perm (cs.flatMap decompose)).symm
  rw [← nfd, h, List.perm_nil, List.flatMap_eq_nil_iff] at hnil
  exact List.eq_nil_iff_forall_not_mem.mpr fun d hd => decompose_ne_nil d (hnil d hd)

theorem nfc_eq_nil_iff : nfc cs = [] ↔ cs = [] := by
  rw [← nfd_eq_nil_iff, nfd_nfc, nfd_eq_nil_iff]

theorem Isolated.mem_nfd_iff (hc : Isolated c) : c ∈ nfd cs ↔ c ∈ cs := by
  rw [mem_nfd]
  constructor
  · rintro ⟨d, hd, hmem⟩
    exact hc.of_mem_decompose d hmem ▸ hd
  · intro hmem
    exact ⟨c, hmem, by rw [hc.decompose, List.mem_singleton]⟩

theorem Isolated.mem_nfc_iff (hc : Isolated c) : c ∈ nfc cs ↔ c ∈ cs := by
  rw [← hc.mem_nfd_iff, nfd_nfc, hc.mem_nfd_iff]

/-- Only the text of a character that stands alone has it as its form. -/
theorem Isolated.nfd_eq_singleton_iff (hc : Isolated c) : nfd cs = [c] ↔ cs = [c] := by
  constructor
  · intro h
    have hmem : c ∈ cs := hc.mem_nfd_iff.mp (by rw [h, List.mem_singleton])
    obtain ⟨before, after, rfl⟩ := List.append_of_mem hmem
    rw [nfd_append_isolated hc] at h
    have hlength := congrArg List.length h
    rw [List.length_append, List.length_cons, List.length_singleton] at hlength
    have hbefore : nfd before = [] := List.eq_nil_of_length_eq_zero (by omega)
    have hafter : nfd after = [] := List.eq_nil_of_length_eq_zero (by omega)
    rw [nfd_eq_nil_iff.mp hbefore, nfd_eq_nil_iff.mp hafter, List.nil_append]
  · rintro rfl
    exact (nfd_append_isolated hc : nfd ([] ++ c :: []) = nfd [] ++ c :: nfd [])

theorem Isolated.nfc_eq_singleton_iff (hc : Isolated c) : nfc cs = [c] ↔ cs = [c] := by
  rw [← hc.nfd_eq_singleton_iff, nfd_nfc, hc.nfd_eq_singleton_iff]

/-! ## Texts -/

/-- All of a list are characters. -/
def AllValid (cs : List Nat) : Prop :=
  ∀ c ∈ cs, c.isValidChar

theorem AllValid.nfd (h : AllValid cs) : AllValid (nfd cs) := by
  intro c hc
  obtain ⟨d, hd, hmem⟩ := mem_nfd.mp hc
  exact isValidChar_of_mem_decompose (h d hd) hmem

theorem Composing.allValid_foldl {s : Composing} (hidle : s.Idle) (hs : AllValid s.finish)
    (h : AllValid cs) : AllValid (cs.foldl push s).finish := by
  induction cs generalizing s with
  | nil => exact hs
  | cons c cs ih =>
    have hrest : AllValid cs := fun d hd => h d (List.mem_cons_of_mem c hd)
    rcases push_cases hidle c with
      ⟨st, joined, hstarter, -, hjoined, hpush⟩ | ⟨hfinish, hnext, -⟩
    · refine ih ?_ ?_ hrest
      · rw [hpush]
        exact nofun
      · intro d hd
        rw [hpush, finish_of_some rfl, List.mem_append, List.mem_cons] at hd
        rw [finish_of_some hstarter] at hs
        rcases hd with hd | rfl | hd
        · exact hs d (List.mem_append_left _ hd)
        · exact isValidChar_of_compose? hjoined
        · exact hs d (List.mem_append_right _ (List.mem_cons_of_mem _ hd))
    · refine ih hnext ?_ hrest
      intro d hd
      rw [hfinish, List.mem_append, List.mem_singleton] at hd
      rcases hd with hd | rfl
      · exact hs d hd
      · exact h d List.mem_cons_self

theorem AllValid.nfc (h : AllValid cs) : AllValid (nfc cs) :=
  Composing.allValid_foldl (fun _ => rfl) (by simp [AllValid, Composing.finish]) h.nfd

end SyncEndpoint.Unicode
