import Mathlib.Data.List.Basic
import Mathlib.Data.Option.Basic
import Mathlib.Logic.Relation
import SyncEndpoint.Watch.Buffer

set_option autoImplicit false

/-! # The buffer is a queue

Grower and drainer only move items on: what is inside, in the order it will come out, is the same
before and after each of their steps. So whatever the order in which the parties take their steps,
what has come out and what is inside are together what has gone in (`fifo_lossless`), and what is
inside can always come out. -/

namespace SyncEndpoint.Watch

open Relation (ReflTransGen)

namespace Buffer

variable {α : Type} {b b' : Buffer α}

/-- A step of the grower or of the drainer. -/
inductive Moves (b : Buffer α) : Buffer α → Prop
  | growerTake {b' : Buffer α} (h : b.growerTake? = some b') : Moves b b'
  | growerChoose {b' : Buffer α} (h : b.growerChoose? = some b') : Moves b b'
  | growerPlace {b' : Buffer α} (h : b.growerPlace? = some b') : Moves b b'
  | drainerTake {b' : Buffer α} (h : b.drainerTake? = some b') : Moves b b'
  | drainerGive {b' : Buffer α} (h : b.drainerGive? = some b') : Moves b b'

/-! ## What a step does -/

theorem of_growerTake? (h : b.growerTake? = some b') :
    (∃ item rest, b.grower = .waiting ∧ b.input = item :: rest ∧
      b' = { b with input := rest, grower := .holding item }) ∨
    b.grower = .waiting ∧ b.input = [] ∧ b.isOpen = false ∧
      b' = { b with grower := .finished } := by
  unfold growerTake? at h
  split at h
  · next item rest hgrower hinput =>
    cases h
    exact Or.inl ⟨item, rest, hgrower, hinput, rfl⟩
  · next hgrower hinput =>
    split at h
    · cases h
    · next hopen =>
      cases h
      exact Or.inr ⟨hgrower, hinput, by simpa using hopen, rfl⟩
  · cases h

theorem of_growerChoose? (h : b.growerChoose? = some b') :
    ∃ item current, b.grower = .holding item ∧ b.segments.getLast? = some current ∧
      ((∃ capacity, nextCapacity current.items.length current.capacity b.initial = some capacity ∧
          b' = { b with segments := b.segments ++ [⟨capacity, []⟩], grower := .placing item }) ∨
        nextCapacity current.items.length current.capacity b.initial = none ∧
          b' = { b with grower := .placing item }) := by
  unfold growerChoose? at h
  split at h
  · next item current hgrower hlast =>
    refine ⟨item, current, hgrower, hlast, ?_⟩
    split at h
    · next capacity hnext =>
      cases h
      exact Or.inl ⟨capacity, hnext, rfl⟩
    · next hnext =>
      cases h
      exact Or.inr ⟨hnext, rfl⟩
  · cases h

theorem of_growerPlace? (h : b.growerPlace? = some b') :
    ∃ item before current, b.grower = .placing item ∧ b.segments = before ++ [current] ∧
      current.items.length < current.capacity ∧
      b' = { b with
        segments := before ++ [{ current with items := current.items ++ [item] }]
        grower := .waiting } := by
  unfold growerPlace? at h
  split at h
  · next item current hgrower hlast =>
    obtain ⟨before, hsegments⟩ := List.getLast?_eq_some_iff.mp hlast
    split at h
    · next hroom =>
      cases h
      refine ⟨item, before, current, hgrower, hsegments, hroom, ?_⟩
      simp [hsegments]
    · cases h
  · cases h

theorem of_drainerTake? (h : b.drainerTake? = some b') :
    b.drainer = .waiting ∧
      ((∃ capacity item items rest, b.segments = ⟨capacity, item :: items⟩ :: rest ∧
          b' = { b with segments := ⟨capacity, items⟩ :: rest, drainer := .holding item }) ∨
        (∃ capacity next rest, b.segments = ⟨capacity, []⟩ :: next :: rest ∧
          b' = { b with segments := next :: rest }) ∨
        ∃ capacity, b.segments = [⟨capacity, []⟩] ∧ b.grower = .finished ∧
          b' = { b with drainer := .finished }) := by
  unfold drainerTake? at h
  split at h
  · next capacity item items rest hdrainer hsegments =>
    cases h
    exact ⟨hdrainer, Or.inl ⟨capacity, item, items, rest, hsegments, rfl⟩⟩
  · next capacity next rest hdrainer hsegments =>
    cases h
    exact ⟨hdrainer, Or.inr (Or.inl ⟨capacity, next, rest, hsegments, rfl⟩)⟩
  · next capacity hdrainer hsegments =>
    split at h
    · next hgrower =>
      cases h
      exact ⟨hdrainer, Or.inr (Or.inr ⟨capacity, hsegments, hgrower, rfl⟩)⟩
    · cases h
  · cases h

theorem of_drainerGive? (h : b.drainerGive? = some b') :
    ∃ item, b.drainer = .holding item ∧ b.output.length < b.initial ∧
      b' = { b with output := b.output ++ [item], drainer := .waiting } := by
  unfold drainerGive? at h
  split at h
  · next item hdrainer =>
    split at h
    · next hroom =>
      cases h
      exact ⟨item, hdrainer, hroom, rfl⟩
    · cases h
  · cases h

theorem of_send? {item : α} (h : b.send? item = some b') :
    b.isOpen = true ∧ b' = { b with input := b.input ++ [item] } := by
  unfold send? at h
  split at h
  · next hroom =>
    cases h
    rw [Bool.and_eq_true] at hroom
    exact ⟨hroom.1, rfl⟩
  · cases h

theorem of_receive? {item : α} (h : b.receive? = some (item, b')) :
    b.output = item :: b'.output ∧ b' = { b with output := b'.output } := by
  unfold receive? at h
  split at h
  · next hd rest houtput =>
    cases h
    exact ⟨houtput, rfl⟩
  · cases h

/-! ## What is inside -/

@[simp]
theorem toList_empty (capacity : Nat) : (empty capacity : Buffer α).toList = [] := rfl

@[simp]
theorem toList_close : b.close.toList = b.toList := rfl

@[simp]
theorem isOpen_close : b.close.isOpen = false := rfl

theorem toList_send? {item : α} (h : b.send? item = some b') : b'.toList = b.toList ++ [item] := by
  obtain ⟨-, rfl⟩ := of_send? h
  simp [toList]

theorem toList_receive? {item : α} (h : b.receive? = some (item, b')) :
    b.toList = item :: b'.toList := by
  obtain ⟨houtput, hb'⟩ := of_receive? h
  rw [hb']
  simp [toList, houtput]

/-- Grower and drainer keep what is inside, and its order. -/
theorem Moves.toList_eq (h : b.Moves b') : b'.toList = b.toList := by
  cases h with
  | growerTake h =>
    rcases of_growerTake? h with ⟨item, rest, hgrower, hinput, rfl⟩ | ⟨hgrower, -, -, rfl⟩
    · simp [toList, hgrower, hinput]
    · simp [toList, hgrower]
  | growerChoose h =>
    obtain ⟨item, current, hgrower, -, ⟨capacity, -, rfl⟩ | ⟨-, rfl⟩⟩ := of_growerChoose? h
    · simp [toList, hgrower]
    · simp [toList, hgrower]
  | growerPlace h =>
    obtain ⟨item, before, current, hgrower, hsegments, -, rfl⟩ := of_growerPlace? h
    simp [toList, hgrower, hsegments]
  | drainerTake h =>
    obtain ⟨hdrainer, ⟨capacity, item, items, rest, hsegments, rfl⟩ |
      ⟨capacity, next, rest, hsegments, rfl⟩ | ⟨capacity, hsegments, -, rfl⟩⟩ := of_drainerTake? h
    all_goals simp [toList, hdrainer, hsegments]
  | drainerGive h =>
    obtain ⟨item, hdrainer, -, rfl⟩ := of_drainerGive? h
    simp [toList, hdrainer]

/-- Only the producer closes the input, and nobody changes the first capacity. -/
theorem Moves.unchanged (h : b.Moves b') : b'.isOpen = b.isOpen ∧ b'.initial = b.initial := by
  cases h with
  | growerTake h =>
    rcases of_growerTake? h with ⟨item, rest, -, -, rfl⟩ | ⟨-, -, -, rfl⟩ <;> exact ⟨rfl, rfl⟩
  | growerChoose h =>
    obtain ⟨item, current, -, -, ⟨capacity, -, rfl⟩ | ⟨-, rfl⟩⟩ := of_growerChoose? h <;>
      exact ⟨rfl, rfl⟩
  | growerPlace h =>
    obtain ⟨item, before, current, -, -, -, rfl⟩ := of_growerPlace? h
    exact ⟨rfl, rfl⟩
  | drainerTake h =>
    obtain ⟨-, ⟨capacity, item, items, rest, -, rfl⟩ | ⟨capacity, next, rest, -, rfl⟩ |
      ⟨capacity, -, -, rfl⟩⟩ := of_drainerTake? h <;> exact ⟨rfl, rfl⟩
  | drainerGive h =>
    obtain ⟨item, -, -, rfl⟩ := of_drainerGive? h
    exact ⟨rfl, rfl⟩

/-! ## The shape of a buffer -/

/-- What holds of a buffer all the time. -/
structure Consistent (b : Buffer α) : Prop where
  initial_pos : 0 < b.initial
  segments_ne_nil : b.segments ≠ []
  capacity_pos : ∀ s ∈ b.segments, 0 < s.capacity
  /-- The grower has chosen a segment with room. -/
  room : ∀ item current, b.grower = .placing item → b.segments.getLast? = some current →
    current.items.length < current.capacity
  /-- The grower ends after the last item. -/
  grown : b.grower = .finished → b.isOpen = false ∧ b.input = []
  /-- The drainer ends after the grower, and after the last item. -/
  drained : b.drainer = .finished → b.grower = .finished ∧ ∀ s ∈ b.segments, s.items = []

theorem nextCapacity_pos {len cap initial capacity : Nat} (hcap : 0 < cap) (hinitial : 0 < initial)
    (h : nextCapacity len cap initial = some capacity) : 0 < capacity := by
  unfold nextCapacity at h
  split at h
  · cases h
    omega
  · split at h
    · cases h
      omega
    · cases h

/-- A segment that stays is less than half full. -/
theorem lt_of_nextCapacity_eq_none {len cap initial : Nat}
    (h : nextCapacity len cap initial = none) : len < cap := by
  unfold nextCapacity at h
  split at h
  · cases h
  · omega

namespace Consistent

theorem empty (capacity : Nat) : (Buffer.empty capacity : Buffer α).Consistent where
  initial_pos := by
    simp only [Buffer.empty]
    omega
  segments_ne_nil := List.cons_ne_nil _ _
  capacity_pos := by
    intro s hs
    rw [List.mem_singleton.mp hs]
    show 0 < max capacity 1
    omega
  room := by
    intro item current hgrower
    cases hgrower
  grown := by
    intro hgrower
    cases hgrower
  drained := by
    intro hdrainer
    cases hdrainer

theorem close (h : b.Consistent) : b.close.Consistent where
  initial_pos := h.initial_pos
  segments_ne_nil := h.segments_ne_nil
  capacity_pos := h.capacity_pos
  room := h.room
  grown := fun hgrower => ⟨rfl, (h.grown hgrower).2⟩
  drained := h.drained

theorem send (h : b.Consistent) {item : α} (hsend : b.send? item = some b') : b'.Consistent := by
  obtain ⟨hopen, rfl⟩ := of_send? hsend
  refine ⟨h.initial_pos, h.segments_ne_nil, h.capacity_pos, h.room, fun hgrower => ?_, h.drained⟩
  -- The grower does not end while more may be sent.
  rw [(h.grown hgrower).1] at hopen
  cases hopen

theorem receive (h : b.Consistent) {item : α} (hreceive : b.receive? = some (item, b')) :
    b'.Consistent := by
  rw [(of_receive? hreceive).2]
  exact ⟨h.initial_pos, h.segments_ne_nil, h.capacity_pos, h.room, h.grown, h.drained⟩

/-- While the grower is at work the drainer has not ended. -/
theorem drainer_ne_finished (h : b.Consistent) (hgrower : b.grower ≠ .finished) :
    b.drainer ≠ .finished :=
  fun hdrainer => hgrower (h.drained hdrainer).1

theorem growerTake (h : b.Consistent) (hstep : b.growerTake? = some b') : b'.Consistent := by
  rcases of_growerTake? hstep with ⟨item, rest, hgrower, -, rfl⟩ | ⟨hgrower, hinput, hopen, rfl⟩
  all_goals
    have hdrainer := h.drainer_ne_finished (by simp [hgrower])
    refine ⟨h.initial_pos, h.segments_ne_nil, h.capacity_pos, by simp, ?_, by simp [hdrainer]⟩
  · simp
  · exact fun _ => ⟨hopen, hinput⟩

theorem growerChoose (h : b.Consistent) (hstep : b.growerChoose? = some b') : b'.Consistent := by
  obtain ⟨item, current, hgrower, hlast, ⟨capacity, hnext, rfl⟩ | ⟨hnext, rfl⟩⟩ :=
    of_growerChoose? hstep
  all_goals have hdrainer := h.drainer_ne_finished (by simp [hgrower])
  · have hcurrent := h.capacity_pos current (List.mem_of_getLast? hlast)
    have hpos : 0 < capacity := nextCapacity_pos hcurrent h.initial_pos hnext
    refine ⟨h.initial_pos, by simp, ?_, ?_, by simp, by simp [hdrainer]⟩
    · intro s hs
      rcases List.mem_append.mp hs with hs | hs
      · exact h.capacity_pos s hs
      · rw [List.mem_singleton.mp hs]
        exact hpos
    · intro item' current' _ hlast'
      simp only [List.getLast?_concat, Option.some.injEq] at hlast'
      rw [← hlast']
      exact hpos
  · refine ⟨h.initial_pos, h.segments_ne_nil, h.capacity_pos, ?_, by simp, by simp [hdrainer]⟩
    intro item' current' _ hlast'
    simp only [hlast, Option.some.injEq] at hlast'
    rw [← hlast']
    exact lt_of_nextCapacity_eq_none hnext

theorem growerPlace (h : b.Consistent) (hstep : b.growerPlace? = some b') : b'.Consistent := by
  obtain ⟨item, before, current, hgrower, hsegments, -, rfl⟩ := of_growerPlace? hstep
  have hdrainer := h.drainer_ne_finished (by simp [hgrower])
  refine ⟨h.initial_pos, by simp, ?_, by simp, by simp, by simp [hdrainer]⟩
  intro s hs
  have hcapacity := h.capacity_pos
  rw [hsegments] at hcapacity
  rcases List.mem_append.mp hs with hs | hs
  · exact hcapacity s (List.mem_append_left _ hs)
  · rw [List.mem_singleton.mp hs]
    exact hcapacity current (by simp)

theorem drainerTake (h : b.Consistent) (hstep : b.drainerTake? = some b') : b'.Consistent := by
  obtain ⟨hdrainer, ⟨capacity, item, items, rest, hsegments, rfl⟩ |
    ⟨capacity, next, rest, hsegments, rfl⟩ | ⟨capacity, hsegments, hgrower, rfl⟩⟩ :=
    of_drainerTake? hstep
  all_goals
    have hcapacity := h.capacity_pos
    have hroom := h.room
    rw [hsegments] at hcapacity hroom
  · refine ⟨h.initial_pos, by simp, ?_, ?_, h.grown, by simp⟩
    · intro s hs
      rcases List.mem_cons.mp hs with rfl | hs
      · exact hcapacity ⟨capacity, item :: items⟩ (by simp)
      · exact hcapacity s (List.mem_cons_of_mem _ hs)
    · -- The current segment may be the one that has just become shorter.
      intro item' current hgrower hlast
      cases rest with
      | nil =>
        have hlonger : items.length + 1 < capacity := hroom item' _ hgrower rfl
        cases hlast
        exact Nat.lt_of_succ_lt hlonger
      | cons s rest =>
        refine hroom item' current hgrower ?_
        simpa using hlast
  · refine ⟨h.initial_pos, by simp, fun s hs => hcapacity s (List.mem_cons_of_mem _ hs), ?_,
      h.grown, by simp [hdrainer]⟩
    intro item current hgrower hlast
    refine hroom item current hgrower ?_
    simpa using hlast
  · refine ⟨h.initial_pos, h.segments_ne_nil, h.capacity_pos, h.room, h.grown, fun _ => ?_⟩
    exact ⟨hgrower, by simp [hsegments]⟩

theorem drainerGive (h : b.Consistent) (hstep : b.drainerGive? = some b') : b'.Consistent := by
  obtain ⟨item, -, -, rfl⟩ := of_drainerGive? hstep
  exact ⟨h.initial_pos, h.segments_ne_nil, h.capacity_pos, h.room, h.grown, by simp⟩

theorem moves (h : b.Consistent) (hmoves : b.Moves b') : b'.Consistent := by
  cases hmoves with
  | growerTake hstep => exact h.growerTake hstep
  | growerChoose hstep => exact h.growerChoose hstep
  | growerPlace hstep => exact h.growerPlace hstep
  | drainerTake hstep => exact h.drainerTake hstep
  | drainerGive hstep => exact h.drainerGive hstep

/-- When the end is seen, nothing is inside, and nothing more is sent. -/
theorem of_isEnded (h : b.Consistent) (hended : b.isEnded = true) :
    b.isOpen = false ∧ b.toList = [] := by
  unfold isEnded at hended
  rw [Bool.and_eq_true, List.isEmpty_iff] at hended
  obtain ⟨houtput, hdrainer⟩ := hended
  have hfinished : b.drainer = .finished := by
    split at hdrainer
    · assumption
    · cases hdrainer
  obtain ⟨hgrower, hsegments⟩ := h.drained hfinished
  obtain ⟨hopen, hinput⟩ := h.grown hgrower
  refine ⟨hopen, ?_⟩
  simpa [toList, houtput, hfinished, hgrower, hinput] using hsegments

end Consistent

/-! ## Coming to rest -/

/-- A step that `internal?` takes is one of the five. -/
theorem moves_of_internal? (h : b.internal? = some b') : b.Moves b' := by
  unfold internal? at h
  simp only [Option.orElse_eq_some] at h
  rcases h with h | ⟨-, h | ⟨-, h | ⟨-, h | ⟨-, h⟩⟩⟩⟩
  · exact .drainerGive h
  · exact .drainerTake h
  · exact .growerPlace h
  · exact .growerChoose h
  · exact .growerTake h

theorem internal?_eq_none_iff : b.internal? = none ↔ b.drainerGive? = none ∧
    b.drainerTake? = none ∧ b.growerPlace? = none ∧ b.growerChoose? = none ∧
    b.growerTake? = none := by
  unfold internal?
  simp only [Option.orElse_eq_none]

/-- The places that the items in a chain of segments still have to go. -/
def chainWork : List (Segment α) → Nat
  | [] => 0
  | s :: segments => 2 * s.items.length + 1 + chainWork segments

@[simp]
theorem chainWork_nil : chainWork ([] : List (Segment α)) = 0 := rfl

@[simp]
theorem chainWork_cons (s : Segment α) (segments : List (Segment α)) :
    chainWork (s :: segments) = 2 * s.items.length + 1 + chainWork segments := rfl

theorem chainWork_append (segments segments' : List (Segment α)) :
    chainWork (segments ++ segments') = chainWork segments + chainWork segments' := by
  induction segments with
  | nil => simp
  | cons s segments ih =>
    rw [List.cons_append, chainWork_cons, chainWork_cons, ih]
    omega

theorem foldl_eq_chainWork (n : Nat) (segments : List (Segment α)) :
    segments.foldl (fun n s => n + s.items.length + s.items.length + 1) n =
      n + chainWork segments := by
  induction segments generalizing n with
  | nil => simp
  | cons s segments ih =>
    rw [List.foldl_cons, ih, chainWork_cons]
    omega

theorem work_eq : b.work = 7 * b.input.length +
    (match b.grower with | .waiting => 1 | .holding _ => 6 | .placing _ => 4 | .finished => 0) +
    chainWork b.segments +
    (match b.drainer with | .waiting => 1 | .holding _ => 2 | .finished => 0) := by
  unfold work
  cases b.grower <;> cases b.drainer <;> simp only [foldl_eq_chainWork, Nat.zero_add]

/-- Each step of grower or drainer brings the buffer nearer to rest. -/
theorem Moves.work_lt (h : b.Moves b') : b'.work < b.work := by
  rw [work_eq, work_eq]
  cases h with
  | growerTake h =>
    rcases of_growerTake? h with ⟨item, rest, hgrower, hinput, rfl⟩ | ⟨hgrower, -, -, rfl⟩
    · simp only [hgrower, hinput, List.length_cons]
      omega
    · simp only [hgrower]
      omega
  | growerChoose h =>
    obtain ⟨item, current, hgrower, -, ⟨capacity, -, rfl⟩ | ⟨-, rfl⟩⟩ := of_growerChoose? h
    · simp [hgrower, chainWork_append]
      omega
    · simp only [hgrower]
      omega
  | growerPlace h =>
    obtain ⟨item, before, current, hgrower, hsegments, -, rfl⟩ := of_growerPlace? h
    simp [hgrower, hsegments, chainWork_append]
    omega
  | drainerTake h =>
    obtain ⟨hdrainer, ⟨capacity, item, items, rest, hsegments, rfl⟩ |
      ⟨capacity, next, rest, hsegments, rfl⟩ | ⟨capacity, hsegments, -, rfl⟩⟩ := of_drainerTake? h
    all_goals
      simp [hdrainer, hsegments]
      try omega
  | drainerGive h =>
    obtain ⟨item, hdrainer, -, rfl⟩ := of_drainerGive? h
    simp only [hdrainer]
    omega

/-- With enough steps, grower and drainer come to where both wait. -/
theorem run_spec (n : Nat) (b : Buffer α) (h : b.work ≤ n) :
    ReflTransGen Moves b (b.run n) ∧ (b.run n).internal? = none := by
  induction n generalizing b with
  | zero =>
    refine ⟨.refl, ?_⟩
    cases hstep : b.internal? with
    | none => exact hstep
    | some b' =>
      have := (moves_of_internal? hstep).work_lt
      omega
  | succ n ih =>
    rw [run]
    cases hstep : b.internal? with
    | none => exact ⟨.refl, hstep⟩
    | some b' =>
      have hmoves := moves_of_internal? hstep
      have hwork := hmoves.work_lt
      obtain ⟨hrun, hrest⟩ := ih b' (by omega)
      exact ⟨hrun.head hmoves, hrest⟩

theorem settle_spec (b : Buffer α) :
    ReflTransGen Moves b b.settle ∧ b.settle.internal? = none :=
  run_spec b.work b (Nat.le_refl _)

/-- Where both wait with nothing in the output, nothing is inside; and if nothing more is sent, the
end has come. -/
theorem Consistent.of_internal?_eq_none (h : b.Consistent) (hrest : b.internal? = none)
    (houtput : b.output = []) : b.toList = [] ∧ (b.isOpen = false → b.isEnded = true) := by
  obtain ⟨hgive, htake, hplace, hchoose, hgrow⟩ := internal?_eq_none_iff.mp hrest
  have hinitial := h.initial_pos
  -- The drainer has nothing in its hand, for it could put it into the output.
  have hdrainer : ∀ item, b.drainer ≠ .holding item := by
    intro item hdrainer
    simp [drainerGive?, hdrainer, houtput, hinitial] at hgive
  obtain ⟨current, hlast⟩ : ∃ current, b.segments.getLast? = some current :=
    Option.ne_none_iff_exists'.mp (by simpa using h.segments_ne_nil)
  -- Nor has the grower: there is a segment for it, with room in it.
  have hholding : ∀ item, b.grower ≠ .holding item := by
    intro item hgrower
    unfold growerChoose? at hchoose
    simp only [hgrower, hlast] at hchoose
    split at hchoose <;> cases hchoose
  have hplacing : ∀ item, b.grower ≠ .placing item := by
    intro item hgrower
    have hroom := h.room item current hgrower hlast
    simp [growerPlace?, hgrower, hlast, hroom] at hplace
  have hinput : b.input = [] ∧ (b.isOpen = false → b.grower = .finished) := by
    cases hgrower : b.grower with
    | waiting =>
      cases hinput : b.input with
      | nil =>
        refine ⟨rfl, fun hopen => ?_⟩
        simp [growerTake?, hgrower, hinput, hopen] at hgrow
      | cons item rest => simp [growerTake?, hgrower, hinput] at hgrow
    | holding item => exact absurd hgrower (hholding item)
    | placing item => exact absurd hgrower (hplacing item)
    | finished => exact ⟨(h.grown hgrower).2, fun _ => rfl⟩
  -- What the drainer waits for is neither an item nor the next segment.
  have hsegments : (∀ s ∈ b.segments, s.items = []) ∧
      (b.grower = .finished → b.drainer = .finished) := by
    cases hd : b.drainer with
    | waiting =>
      cases hsegs : b.segments with
      | nil => exact absurd hsegs h.segments_ne_nil
      | cons s rest =>
        obtain ⟨capacity, items⟩ := s
        cases items with
        | cons item items => simp [drainerTake?, hd, hsegs] at htake
        | nil =>
          cases rest with
          | cons next rest => simp [drainerTake?, hd, hsegs] at htake
          | nil =>
            refine ⟨by simp, fun hgrower => ?_⟩
            simp [drainerTake?, hd, hsegs, hgrower] at htake
    | holding item => exact absurd hd (hdrainer item)
    | finished => exact ⟨(h.drained hd).2, fun _ => rfl⟩
  refine ⟨?_, fun hopen => ?_⟩
  · have hcarried : ∀ item, b.drainer ≠ .holding item := hdrainer
    unfold toList
    cases hd : b.drainer <;> cases hg : b.grower <;> simp_all
  · simp [isEnded, houtput, hsegments.2 (hinput.2 hopen)]

end Buffer

/-! ## All that has happened -/

/-- A buffer with what has gone in and what has come out. -/
structure History (α : Type) where
  buffer : Buffer α
  accepted : List α
  received : List α

namespace History

variable {α : Type} {h h' : History α}

/-- A fresh buffer. -/
def start (capacity : Nat) : History α :=
  ⟨.empty capacity, [], []⟩

/-- One step of one of the parties. The consumer takes what comes out, and does not go away. -/
inductive Step (h : History α) : History α → Prop
  | send {item : α} {b : Buffer α} (hsend : h.buffer.send? item = some b) :
      Step h { h with buffer := b, accepted := h.accepted ++ [item] }
  | close : Step h { h with buffer := h.buffer.close }
  | move {b : Buffer α} (hmoves : h.buffer.Moves b) : Step h { h with buffer := b }
  | receive {item : α} {b : Buffer α} (hreceive : h.buffer.receive? = some (item, b)) :
      Step h { h with buffer := b, received := h.received ++ [item] }

/-- Nothing is lost, made up, or put into another order. -/
structure Faithful (h : History α) : Prop where
  consistent : h.buffer.Consistent
  accounted : h.received ++ h.buffer.toList = h.accepted

theorem faithful_start (capacity : Nat) : (start capacity : History α).Faithful :=
  ⟨.empty capacity, rfl⟩

theorem Faithful.step (hf : h.Faithful) (hstep : h.Step h') : h'.Faithful := by
  obtain ⟨hconsistent, haccounted⟩ := hf
  cases hstep with
  | send hsend =>
    refine ⟨hconsistent.send hsend, ?_⟩
    rw [Buffer.toList_send? hsend, ← List.append_assoc, haccounted]
  | close => exact ⟨hconsistent.close, haccounted⟩
  | move hmoves =>
    refine ⟨hconsistent.moves hmoves, ?_⟩
    rw [hmoves.toList_eq, haccounted]
  | receive hreceive =>
    refine ⟨hconsistent.receive hreceive, ?_⟩
    rw [List.append_assoc, List.singleton_append, ← Buffer.toList_receive? hreceive, haccounted]

theorem Faithful.steps (hf : h.Faithful) (hsteps : ReflTransGen Step h h') : h'.Faithful := by
  induction hsteps with
  | refl => exact hf
  | tail _ hstep ih => exact ih.step hstep

/-- Steps of grower and drainer are steps of the whole, and keep what is inside. -/
theorem steps_of_moves {b : Buffer α} (hmoves : ReflTransGen Buffer.Moves h.buffer b) :
    ReflTransGen Step h { h with buffer := b } ∧ b.toList = h.buffer.toList ∧
      b.isOpen = h.buffer.isOpen := by
  induction hmoves with
  | refl => exact ⟨.refl, rfl, rfl⟩
  | tail _ hmove ih =>
    obtain ⟨hsteps, hlist, hopen⟩ := ih
    exact ⟨hsteps.tail (.move hmove), hmove.toList_eq.trans hlist, hmove.unchanged.1.trans hopen⟩

theorem Faithful.of_reachable {capacity : Nat} (hsteps : ReflTransGen Step (start capacity) h) :
    h.Faithful :=
  (faithful_start capacity).steps hsteps

/-- If the consumer keeps receiving, it gets all that is inside; and if nothing more is sent, it
then sees the end. -/
theorem Faithful.exists_receives_all (hf : h.Faithful) : ∃ h', ReflTransGen Step h h' ∧
    h'.accepted = h.accepted ∧ h'.received = h.accepted ∧
    (h.buffer.isOpen = false → h'.buffer.isEnded = true) := by
  induction hn : h.buffer.toList.length using Nat.strongRecOn generalizing h with
  | ind n ih =>
    subst hn
    -- First everything settles, which leaves nothing inside or something in the output.
    obtain ⟨hmoves, hrest⟩ := h.buffer.settle_spec
    obtain ⟨hsteps, hlist, hopen⟩ := steps_of_moves hmoves
    have hsettled := hf.steps hsteps
    cases houtput : h.buffer.settle.output with
    | nil =>
      obtain ⟨hnil, hended⟩ := hsettled.consistent.of_internal?_eq_none hrest houtput
      refine ⟨_, hsteps, rfl, ?_, fun hclosed => hended (hopen.trans hclosed)⟩
      have haccounted := hsettled.accounted
      rwa [hnil, List.append_nil] at haccounted
    | cons item rest =>
      have hreceive : h.buffer.settle.receive? =
          some (item, { h.buffer.settle with output := rest }) := by
        unfold Buffer.receive?
        rw [houtput]
      have hnext := hsettled.step (.receive hreceive)
      have hlength := Buffer.toList_receive? hreceive
      rw [hlist] at hlength
      obtain ⟨h', hsteps', haccepted, hreceived, hended⟩ :=
        ih _ (by simp [hlength]) hnext rfl
      exact ⟨h', (hsteps.tail (.receive hreceive)).trans hsteps', haccepted, hreceived,
        fun hclosed => hended (hopen.trans hclosed)⟩

/-- Whatever the schedule, what was received, followed by what is inside in the order it will come
out, is what was accepted. The end is seen only after the input was closed and everything was
received, and it can always be brought about that everything is received. -/
theorem fifo_lossless {capacity : Nat} (hsteps : ReflTransGen Step (start capacity) h) :
    h.received ++ h.buffer.toList = h.accepted ∧
    (h.buffer.isEnded = true → h.buffer.isOpen = false ∧ h.received = h.accepted) ∧
    ∃ h', ReflTransGen Step h h' ∧ h'.accepted = h.accepted ∧ h'.received = h.accepted ∧
      (h.buffer.isOpen = false → h'.buffer.isEnded = true) := by
  have hf := Faithful.of_reachable hsteps
  refine ⟨hf.accounted, fun hended => ?_, hf.exists_receives_all⟩
  obtain ⟨hopen, hnil⟩ := hf.consistent.of_isEnded hended
  have haccounted := hf.accounted
  rw [hnil, List.append_nil] at haccounted
  exact ⟨hopen, haccounted⟩

/-- A buffer of the capacity 0 on the way of six items: one was received, and each of the others is
in another place. Two segments were opened since their predecessors were half full, and a smaller
one after that. -/
def halfway : History String where
  buffer :=
    { initial := 1, input := ["f"], isOpen := true, grower := .holding "e"
      segments := [⟨2, []⟩, ⟨4, ["c"]⟩, ⟨2, ["d"]⟩], drainer := .holding "b", output := [] }
  accepted := ["a", "b", "c", "d", "e", "f"]
  received := ["a"]

/-- A step by which an item is sent. -/
theorem step_send {b : Buffer α} (item : α) (hsend : h.buffer.send? item = some b) :
    Step h { h with buffer := b, accepted := h.accepted ++ [item] } :=
  .send hsend

theorem steps_halfway : ReflTransGen Step (start 0) halfway := by
  -- The first item goes all the way.
  refine .head (step_send "a" rfl) (.head (.move (.growerTake rfl)) ?_)
  refine .head (.move (.growerChoose rfl)) (.head (.move (.growerPlace rfl)) ?_)
  refine .head (.move (.drainerTake rfl)) (.head (.move (.drainerTake rfl)) ?_)
  refine .head (.move (.drainerGive rfl)) (.head (.receive rfl) ?_)
  refine .head (step_send "b" rfl) (.head (.move (.growerTake rfl)) ?_)
  refine .head (.move (.growerChoose rfl)) (.head (.move (.growerPlace rfl)) ?_)
  refine .head (step_send "c" rfl) (.head (.move (.growerTake rfl)) ?_)
  refine .head (.move (.growerChoose rfl)) (.head (.move (.growerPlace rfl)) ?_)
  refine .head (.move (.drainerTake rfl)) (.head (step_send "d" rfl) ?_)
  refine .head (.move (.growerTake rfl)) (.head (.move (.growerChoose rfl)) ?_)
  refine .head (.move (.growerPlace rfl)) (.head (step_send "e" rfl) ?_)
  exact .head (.move (.growerTake rfl)) (.single (step_send "f" rfl))

theorem fifo_lossless_halfway :
    halfway.received ++ halfway.buffer.toList = halfway.accepted ∧
    (halfway.buffer.isEnded = true →
      halfway.buffer.isOpen = false ∧ halfway.received = halfway.accepted) ∧
    ∃ h', ReflTransGen Step halfway h' ∧ h'.accepted = halfway.accepted ∧
      h'.received = halfway.accepted ∧
      (halfway.buffer.isOpen = false → h'.buffer.isEnded = true) :=
  fifo_lossless steps_halfway

end History

end SyncEndpoint.Watch
