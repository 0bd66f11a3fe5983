import Mathlib.Algebra.Group.Nat.Defs
import SyncEndpoint.Proofs.Watch.Fifo

set_option autoImplicit false

/-! # The capacities of the segments

A segment is at most four times as large as the first one. One of that size has been opened for a
burst, and as soon as it has as many items as the first segment could hold, the next one is smaller
again: it never gets half full, so it is never doubled. Whoever drains, and whenever, the segment that
the grower has chosen is at most half full, and the grower does not wait (`grower_never_waits`). -/

namespace SyncEndpoint.Watch

open Relation (ReflTransGen)

namespace Buffer

variable {α : Type} {b b' : Buffer α} {initial cap capacity len : Nat}

/-! ## The next capacity -/

/-- The capacities that occur: the first one, doubled at most twice. -/
def IsDoubled (initial capacity : Nat) : Prop :=
  capacity = initial ∨ capacity = initial * 2 ∨ capacity = initial * 4

theorem IsDoubled.exists_pow (h : IsDoubled initial capacity) :
    ∃ k, k ≤ 2 ∧ capacity = initial * 2 ^ k := by
  rcases h with rfl | rfl | rfl
  · exact ⟨0, by simp⟩
  · exact ⟨1, by simp⟩
  · exact ⟨2, by simp⟩

/-- The capacity after `cap`: twice as much, or half as much after the largest one. -/
structure IsNext (initial cap capacity : Nat) : Prop where
  doubled : IsDoubled initial capacity
  change : capacity = cap * 2 ∨ capacity = initial * 2 ∧ cap = initial * 4

theorem isNext_of_nextCapacity (hinitial : 0 < initial) (hcap : IsDoubled initial cap)
    (hspare : cap = initial * 4 → len ≤ initial) (h : nextCapacity len cap initial = some capacity) :
    IsNext initial cap capacity := by
  unfold nextCapacity at h
  split at h
  · next hfull =>
    cases h
    refine ⟨?_, .inl rfl⟩
    -- The largest one is not half full.
    rcases hcap with rfl | rfl | hlargest
    · exact .inr (.inl rfl)
    · exact .inr (.inr (by omega))
    · have := hspare hlargest
      omega
  · next hfull =>
    split at h
    · next hfew =>
      cases h
      have hlargest : cap = initial * 4 := by
        rcases hcap with hcap | hcap | hcap
        · omega
        · omega
        · exact hcap
      have hhalf : cap / 2 = initial * 2 := by omega
      exact ⟨.inr (.inl hhalf), .inr ⟨hhalf, hlargest⟩⟩
    · cases h

/-- A segment that stays is less than half full, and the largest one stays only while it has fewer
items than the first one could hold. -/
theorem of_nextCapacity_eq_none (hspare : cap = initial * 4 → len ≤ initial)
    (h : nextCapacity len cap initial = none) :
    2 * len ≤ cap ∧ (cap = initial * 4 → len < initial) := by
  unfold nextCapacity at h
  split at h
  · cases h
  · split at h
    · cases h
    · next hfull hfew =>
      refine ⟨by omega, fun hlargest => ?_⟩
      have hlen := hspare hlargest
      omega

/-! ## What is kept -/

/-- What holds of the sizes in a buffer all the time. -/
structure Sized (b : Buffer α) : Prop where
  initial_pos : 0 < b.initial
  isDoubled : ∀ s ∈ b.segments, IsDoubled b.initial s.capacity
  /-- The largest segment has no more items than the first one could hold. -/
  spare : ∀ current, b.segments.getLast? = some current → current.capacity = b.initial * 4 →
    current.items.length ≤ b.initial
  /-- The grower has chosen a segment that is at most half full. -/
  halfFull : ∀ item current, b.grower = .placing item → b.segments.getLast? = some current →
    2 * current.items.length ≤ current.capacity ∧
      (current.capacity = b.initial * 4 → current.items.length < b.initial)

/-- The drainer takes items away, and segments from the front. -/
theorem segments_of_drainerTake? (hstep : b.drainerTake? = some b') :
    (∀ s ∈ b'.segments, ∃ s' ∈ b.segments, s.capacity = s'.capacity) ∧
    ∀ current, b'.segments.getLast? = some current →
      ∃ previous, b.segments.getLast? = some previous ∧ current.capacity = previous.capacity ∧
        current.items.length ≤ previous.items.length := by
  obtain ⟨-, ⟨capacity, item, items, rest, hsegments, rfl⟩ |
    ⟨capacity, next, rest, hsegments, rfl⟩ | ⟨capacity, hsegments, -, rfl⟩⟩ := of_drainerTake? hstep
  · rw [hsegments]
    refine ⟨?_, ?_⟩
    · intro s hs
      rcases List.mem_cons.mp hs with rfl | hs
      · exact ⟨_, List.mem_cons_self, rfl⟩
      · exact ⟨s, List.mem_cons_of_mem _ hs, rfl⟩
    · -- The last segment may be the one that has just become shorter.
      intro current hlast
      cases rest with
      | nil =>
        cases hlast
        exact ⟨_, rfl, rfl, Nat.le_succ _⟩
      | cons s rest => exact ⟨current, by simpa using hlast, rfl, Nat.le_refl _⟩
  · rw [hsegments]
    refine ⟨fun s hs => ⟨s, List.mem_cons_of_mem _ hs, rfl⟩, ?_⟩
    intro current hlast
    exact ⟨current, by simpa using hlast, rfl, Nat.le_refl _⟩
  · exact ⟨fun s hs => ⟨s, hs, rfl⟩, fun current hlast => ⟨current, hlast, rfl, Nat.le_refl _⟩⟩

namespace Sized

theorem empty (capacity : Nat) : (Buffer.empty capacity : Buffer α).Sized where
  initial_pos := by
    show 0 < max capacity 1
    omega
  isDoubled := by
    intro s hs
    rw [List.mem_singleton.mp hs]
    exact .inl rfl
  spare := by
    intro current hlast _
    cases hlast
    exact Nat.zero_le _
  halfFull := by
    intro item current hgrower
    cases hgrower

/-- What changes neither the segments nor the grower's choice does not matter. -/
theorem of_segments_eq (h : b.Sized) (hinitial : b'.initial = b.initial)
    (hsegments : b'.segments = b.segments)
    (hgrower : ∀ item, b'.grower = .placing item → b.grower = .placing item) : b'.Sized where
  initial_pos := by
    rw [hinitial]
    exact h.initial_pos
  isDoubled := by
    rw [hinitial, hsegments]
    exact h.isDoubled
  spare := by
    rw [hinitial, hsegments]
    exact h.spare
  halfFull := by
    intro item current hplacing hlast
    rw [hsegments] at hlast
    rw [hinitial]
    exact h.halfFull item current (hgrower item hplacing) hlast

theorem close (h : b.Sized) : b.close.Sized :=
  h.of_segments_eq rfl rfl fun _ hplacing => hplacing

theorem send (h : b.Sized) {item : α} (hsend : b.send? item = some b') : b'.Sized := by
  obtain ⟨-, rfl⟩ := of_send? hsend
  exact h.of_segments_eq rfl rfl fun _ hplacing => hplacing

theorem receive (h : b.Sized) {item : α} (hreceive : b.receive? = some (item, b')) : b'.Sized := by
  rw [(of_receive? hreceive).2]
  exact h.of_segments_eq rfl rfl fun _ hplacing => hplacing

theorem growerTake (h : b.Sized) (hstep : b.growerTake? = some b') : b'.Sized := by
  rcases of_growerTake? hstep with ⟨item, rest, -, -, rfl⟩ | ⟨-, -, -, rfl⟩
  · exact h.of_segments_eq rfl rfl (by simp)
  · exact h.of_segments_eq rfl rfl (by simp)

/-- What the grower opens is what comes next. -/
theorem isNext (h : b.Sized) {current : Segment α} (hlast : b.segments.getLast? = some current)
    (hnext : nextCapacity current.items.length current.capacity b.initial = some capacity) :
    IsNext b.initial current.capacity capacity :=
  isNext_of_nextCapacity h.initial_pos (h.isDoubled current (List.mem_of_getLast? hlast))
    (h.spare current hlast) hnext

theorem growerChoose (h : b.Sized) (hstep : b.growerChoose? = some b') : b'.Sized := by
  obtain ⟨item, current, -, hlast, ⟨capacity, hnext, rfl⟩ | ⟨hnext, rfl⟩⟩ := of_growerChoose? hstep
  · refine ⟨h.initial_pos, ?_, ?_, ?_⟩
    · intro s hs
      rcases List.mem_append.mp hs with hs | hs
      · exact h.isDoubled s hs
      · rw [List.mem_singleton.mp hs]
        exact (h.isNext hlast hnext).doubled
    -- The new segment is empty.
    · intro opened hopened _
      simp only [List.getLast?_concat, Option.some.injEq] at hopened
      rw [← hopened]
      exact Nat.zero_le _
    · intro item' opened _ hopened
      simp only [List.getLast?_concat, Option.some.injEq] at hopened
      rw [← hopened]
      exact ⟨Nat.zero_le _, fun _ => h.initial_pos⟩
  · refine ⟨h.initial_pos, h.isDoubled, h.spare, ?_⟩
    intro item' current' _ hlast'
    simp only [hlast, Option.some.injEq] at hlast'
    rw [← hlast']
    exact of_nextCapacity_eq_none (h.spare current hlast) hnext

theorem growerPlace (h : b.Sized) (hstep : b.growerPlace? = some b') : b'.Sized := by
  obtain ⟨item, before, current, hgrower, hsegments, -, rfl⟩ := of_growerPlace? hstep
  have hdoubled := h.isDoubled
  rw [hsegments] at hdoubled
  refine ⟨h.initial_pos, ?_, ?_, by simp⟩
  · intro s hs
    rcases List.mem_append.mp hs with hs | hs
    · exact hdoubled s (List.mem_append_left _ hs)
    · rw [List.mem_singleton.mp hs]
      exact hdoubled current (by simp)
  · intro filled hfilled hlargest
    have hlast : b.segments.getLast? = some current := by simp [hsegments]
    simp only [List.getLast?_concat, Option.some.injEq] at hfilled
    subst hfilled
    -- One more item than there was when the segment was chosen.
    have hfew := (h.halfFull item current hgrower hlast).2 hlargest
    simp only [List.length_append, List.length_singleton]
    omega

theorem drainerTake (h : b.Sized) (hstep : b.drainerTake? = some b') : b'.Sized := by
  obtain ⟨hcapacity, hcurrent⟩ := segments_of_drainerTake? hstep
  have hinitial : b'.initial = b.initial := (Moves.drainerTake hstep).unchanged.2
  have hgrower : b'.grower = b.grower := by
    obtain ⟨-, ⟨capacity, item, items, rest, -, rfl⟩ | ⟨capacity, next, rest, -, rfl⟩ |
      ⟨capacity, -, -, rfl⟩⟩ := of_drainerTake? hstep <;> rfl
  refine ⟨hinitial ▸ h.initial_pos, ?_, ?_, ?_⟩
  · intro s hs
    obtain ⟨s', hs', heq⟩ := hcapacity s hs
    rw [hinitial, heq]
    exact h.isDoubled s' hs'
  · intro current hlast hlargest
    obtain ⟨previous, hprevious, heq, hle⟩ := hcurrent current hlast
    rw [hinitial, heq] at hlargest
    rw [hinitial]
    exact Nat.le_trans hle (h.spare previous hprevious hlargest)
  · intro item current hplacing hlast
    obtain ⟨previous, hprevious, heq, hle⟩ := hcurrent current hlast
    rw [hgrower] at hplacing
    obtain ⟨hhalf, hfew⟩ := h.halfFull item previous hplacing hprevious
    rw [hinitial, heq]
    exact ⟨by omega, fun hlargest => Nat.lt_of_le_of_lt hle (hfew hlargest)⟩

theorem drainerGive (h : b.Sized) (hstep : b.drainerGive? = some b') : b'.Sized := by
  obtain ⟨item, -, -, rfl⟩ := of_drainerGive? hstep
  exact h.of_segments_eq rfl rfl fun _ hplacing => hplacing

theorem moves (h : b.Sized) (hmoves : b.Moves b') : b'.Sized := by
  cases hmoves with
  | growerTake hstep => exact h.growerTake hstep
  | growerChoose hstep => exact h.growerChoose hstep
  | growerPlace hstep => exact h.growerPlace hstep
  | drainerTake hstep => exact h.drainerTake hstep
  | drainerGive hstep => exact h.drainerGive hstep

/-- There is room for the item that the grower holds. -/
theorem exists_growerPlace? (h : b.Sized) {item : α} {current : Segment α}
    (hgrower : b.grower = .placing item) (hlast : b.segments.getLast? = some current) :
    2 * current.items.length ≤ current.capacity ∧ current.items.length < current.capacity ∧
      ∃ b', b.growerPlace? = some b' := by
  have hhalf := (h.halfFull item current hgrower hlast).1
  have hinitial := h.initial_pos
  have hpos : 0 < current.capacity := by
    rcases h.isDoubled current (List.mem_of_getLast? hlast) with heq | heq | heq
    all_goals omega
  have hroom : current.items.length < current.capacity := by omega
  refine ⟨hhalf, hroom, ?_⟩
  simp [growerPlace?, hgrower, hlast, hroom]

end Sized

end Buffer

/-! ## Whole runs -/

namespace History

variable {α : Type} {h h' : History α} {i : Nat}

/-- The sizes in the buffer are as they should be, and its first capacity is `i`. -/
structure Sized (i : Nat) (h : History α) : Prop where
  sized : h.buffer.Sized
  initial_eq : h.buffer.initial = i

theorem sized_start (hi : 1 ≤ i) : (start i : History α).Sized i := by
  refine ⟨.empty i, ?_⟩
  show max i 1 = i
  omega

theorem Sized.step (hs : h.Sized i) (hstep : h.Step h') : h'.Sized i := by
  obtain ⟨hsized, hinitial⟩ := hs
  cases hstep with
  | send hsend =>
    obtain ⟨-, rfl⟩ := Buffer.of_send? hsend
    exact ⟨hsized.send hsend, hinitial⟩
  | close => exact ⟨hsized.close, hinitial⟩
  | move hmoves => exact ⟨hsized.moves hmoves, hmoves.unchanged.2.trans hinitial⟩
  | receive hreceive =>
    have hb := (Buffer.of_receive? hreceive).2
    refine ⟨hsized.receive hreceive, ?_⟩
    rw [hb]
    exact hinitial

theorem Sized.of_reachable (hi : 1 ≤ i) (hsteps : ReflTransGen Step (start i) h) : h.Sized i := by
  induction hsteps with
  | refl => exact sized_start hi
  | tail _ hstep ih => exact ih.step hstep

/-- Whatever the schedule, each segment is as large as the first one or doubled at most twice; a
segment that is smaller than the one before it is half as large, and at least twice as large as the
first one; and when the grower has chosen a segment for its item, it is at most half full, and the
item can be put into it. -/
theorem grower_never_waits (hi : 1 ≤ i) (hsteps : ReflTransGen Step (start i) h) :
    (∀ s ∈ h.buffer.segments, ∃ k, k ≤ 2 ∧ s.capacity = i * 2 ^ k) ∧
    (∀ b, h.buffer.growerChoose? = some b → ∃ previous,
      h.buffer.segments.getLast? = some previous ∧
      (b.segments = h.buffer.segments ∨
        ∃ opened, b.segments = h.buffer.segments ++ [opened] ∧
          (opened.capacity < previous.capacity →
            2 * i ≤ opened.capacity ∧ 2 * opened.capacity = previous.capacity))) ∧
    ∀ item, h.buffer.grower = .placing item → ∃ current,
      h.buffer.segments.getLast? = some current ∧
      2 * current.items.length ≤ current.capacity ∧ current.items.length < current.capacity ∧
      ∃ b, h.buffer.growerPlace? = some b := by
  obtain ⟨hsized, rfl⟩ := Sized.of_reachable hi hsteps
  refine ⟨?_, ?_, ?_⟩
  · intro s hs
    exact (hsized.isDoubled s hs).exists_pow
  · intro b hchoose
    obtain ⟨item, previous, -, hlast, ⟨capacity, hnext, rfl⟩ | ⟨-, rfl⟩⟩ :=
      Buffer.of_growerChoose? hchoose
    · refine ⟨previous, hlast, .inr ⟨_, rfl, ?_⟩⟩
      intro hsmaller
      rcases (hsized.isNext hlast hnext).change with hdouble | ⟨hhalf, hlargest⟩
      · simp only at hsmaller
        omega
      · simp only
        omega
    · exact ⟨previous, hlast, .inl rfl⟩
  · intro item hgrower
    have hconsistent := (Faithful.of_reachable hsteps).consistent
    obtain ⟨current, hlast⟩ : ∃ current, h.buffer.segments.getLast? = some current :=
      Option.ne_none_iff_exists'.mp (by simpa using hconsistent.segments_ne_nil)
    exact ⟨current, hlast, hsized.exists_growerPlace? hgrower hlast⟩

/-- Three items in a buffer of the capacity 1 that nobody drains: the third one comes when the largest
segment holds as much as the first one could. -/
def shrinking : History String where
  buffer :=
    { initial := 1, input := [], isOpen := true, grower := .holding "c"
      segments := [⟨1, []⟩, ⟨2, ["a"]⟩, ⟨4, ["b"]⟩], drainer := .waiting, output := [] }
  accepted := ["a", "b", "c"]
  received := []

theorem steps_shrinking : ReflTransGen Step (start 1) shrinking := by
  have hfirst : ReflTransGen Step (start 1) _ :=
    .tail (.tail (.tail (.single (@Step.send _ _ "a" _ rfl)) (.move (.growerTake rfl)))
      (.move (.growerChoose rfl))) (.move (.growerPlace rfl))
  have hsecond := ReflTransGen.tail (.tail (.tail (.tail hfirst (@Step.send _ _ "b" _ rfl))
    (.move (.growerTake rfl))) (.move (.growerChoose rfl))) (.move (.growerPlace rfl))
  exact .tail (.tail hsecond (@Step.send _ _ "c" _ rfl)) (.move (.growerTake rfl))

theorem grower_never_waits_shrinking :
    1 ≤ 1 ∧ ReflTransGen Step (start 1) shrinking ∧
    (shrinking.buffer.growerChoose?.map fun b => b.segments.map (·.capacity)) = some [1, 2, 4, 2] ∧
    (∀ s ∈ shrinking.buffer.segments, ∃ k, k ≤ 2 ∧ s.capacity = 1 * 2 ^ k) ∧
    (∀ b, shrinking.buffer.growerChoose? = some b → ∃ previous,
      shrinking.buffer.segments.getLast? = some previous ∧
      (b.segments = shrinking.buffer.segments ∨
        ∃ opened, b.segments = shrinking.buffer.segments ++ [opened] ∧
          (opened.capacity < previous.capacity →
            2 * 1 ≤ opened.capacity ∧ 2 * opened.capacity = previous.capacity))) ∧
    ∀ item, shrinking.buffer.grower = .placing item → ∃ current,
      shrinking.buffer.segments.getLast? = some current ∧
      2 * current.items.length ≤ current.capacity ∧ current.items.length < current.capacity ∧
      ∃ b, shrinking.buffer.growerPlace? = some b :=
  ⟨Nat.le_refl 1, steps_shrinking, rfl, grower_never_waits (Nat.le_refl 1) steps_shrinking⟩

end History

end SyncEndpoint.Watch
