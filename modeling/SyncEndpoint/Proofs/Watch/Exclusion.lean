import Mathlib.Data.List.Nodup
import SyncEndpoint.Endpoint.Watching
import SyncEndpoint.Proofs.Path.Canonical
import SyncEndpoint.Proofs.Watch.Delivery

set_option autoImplicit false

/-! # One session for each path

Watch calls on an endpoint and what they have led to go on side by side, in any order: calls take their
paths, come to a pipeline or fail, and every pipeline goes on with its parties. At all times a path is
taken exactly if there is one call or one pipeline that holds it, and never more than one (`Exclusive`).
So a path is free for the next call once its call has failed or its session is closed
(`exclusive_of_runs`). -/

namespace SyncEndpoint.Watch

open CanonicalPath (clean clean_clean)
open Relation (ReflTransGen)

/-! ## Pipelines -/

/-- What a consumer does with its end of a session. -/
inductive Session.Consumed (s : Session) : Session → Prop
  | nextEvent : Consumed s s.nextEvent.2
  | nextError : Consumed s s.nextError.2
  | next (errorFirst : Bool) : Consumed s (s.next errorFirst).2
  | close : Consumed s s.close
  | drop : Consumed s s.drop

/-- A consumer publishes nothing, and changes nothing about how many events may be queued. -/
theorem Session.Consumed.unchanged {s s' : Session} (h : s.Consumed s') :
    s'.state = s.state ∧ s'.capacity = s.capacity := by
  cases h with
  | nextEvent => unfold Session.nextEvent; split <;> exact ⟨rfl, rfl⟩
  | nextError => unfold Session.nextError; split <;> exact ⟨rfl, rfl⟩
  | next errorFirst =>
    unfold Session.next
    split
    · exact ⟨rfl, rfl⟩
    · exact ⟨rfl, rfl⟩
    · exact ⟨rfl, rfl⟩
    · split <;> exact ⟨rfl, rfl⟩
  | close | drop => exact ⟨rfl, rfl⟩

namespace Pipeline

/-- One step of one of the parties of a pipeline: the source, the one that unregisters, the buffer, the
task, whatever notifications come to, and the consumer. -/
inductive Step (p : Pipeline) : Pipeline → Prop
  | notify {n : Notification} {p' : Pipeline} (h : p.notify? n = some p') : Step p p'
  | unregister {p' : Pipeline} (h : p.unregister? = some p') : Step p p'
  | buffer {b : Buffer Notification} (h : p.notifications.Moves b) :
    Step p { p with notifications := b }
  | heedEnd {p' : Pipeline} (h : p.heedEnd? = some p') : Step p p'
  | receive {t : Interpretation} {p' : Pipeline} (h : p.receive? t = some p') : Step p p'
  | send {p' : Pipeline} (h : p.send? = some p') : Step p p'
  | release {p' : Pipeline} (h : p.release? = some p') : Step p p'
  | finish {p' : Pipeline} (h : p.close? = some p') : Step p p'
  | consume {session : Session} (h : p.session.Consumed session) : Step p { p with session }

/-- The session is closed once the task has finished, and not before. -/
def ClosedLast (p : Pipeline) : Prop :=
  p.session.state = .closed ↔ p.task = .finished

/-- A step keeps to the order of the end: a path that was freed is not taken again, and the session
is closed after it. -/
structure KeepsOrder (p p' : Pipeline) : Prop where
  holdsPath : p'.task.holdsPath = true → p.task.holdsPath = true
  closedLast : p.ClosedLast → p'.ClosedLast
  finished : p.task = .finished → p'.task = .finished

variable {p p' : Pipeline}

/-- What leaves the task and the state of the session alone. -/
theorem KeepsOrder.of_eq (htask : p'.task = p.task) (hstate : p'.session.state = p.session.state) :
    p.KeepsOrder p' := by
  refine ⟨?_, ?_, ?_⟩ <;> simp only [ClosedLast, htask, hstate, imp_self]

/-- What happens while the task holds its path, without a word that the session is closed. -/
theorem KeepsOrder.of_holdsPath (htask : p.task.holdsPath = true) (htask' : p'.task ≠ .finished)
    (hstate : p'.session.state = p.session.state ∨ p'.session.state ≠ .closed) :
    p.KeepsOrder p' where
  holdsPath := fun _ => htask
  closedLast := by
    intro hlast
    have hne : p.task ≠ .finished := by
      intro heq
      rw [heq] at htask
      cases htask
    have hopen : p'.session.state ≠ .closed := by
      rcases hstate with heq | hne'
      · rw [heq]
        exact fun hclosed => hne (hlast.mp hclosed)
      · exact hne'
    exact iff_of_false hopen htask'
  finished := by
    intro heq
    rw [heq] at htask
    cases htask

theorem of_send?_task (h : p.send? = some p') :
    (∃ e, p.task = .sending e) ∧ p'.session.state = p.session.state ∧ p'.task ≠ .finished := by
  unfold send? Session.sendEvent at h
  split at h
  · next e htask =>
    refine ⟨⟨e, htask⟩, ?_⟩
    split at h
    · next hsent =>
      cases h
      split at hsent
      · cases hsent
      · split at hsent <;> cases hsent
        exact ⟨rfl, nofun⟩
    · cases h
      exact ⟨rfl, nofun⟩
    · cases h
  · cases h

theorem state_take (outcome : Except SyncError (Option ChangeEvent)) (htask : p.task = .receiving) :
    (p.take outcome).session.state = p.session.state ∧ (p.take outcome).task ≠ .finished := by
  unfold take
  split
  · exact ⟨rfl, nofun⟩
  · simp [htask]
  · refine ⟨?_, by simp [htask]⟩
    unfold Session.sendError
    split <;> rfl

theorem Step.keepsOrder (h : p.Step p') : p.KeepsOrder p' := by
  cases h with
  | notify h =>
    obtain ⟨b, -, rfl⟩ := of_notify? h
    exact .of_eq rfl rfl
  | unregister h =>
    obtain ⟨-, rfl⟩ := of_unregister? h
    exact .of_eq rfl rfl
  | buffer h => exact .of_eq rfl rfl
  | heedEnd h =>
    obtain ⟨htask, rfl⟩ | ⟨htask, rfl⟩ := of_heedEnd? h
    · exact .of_holdsPath (by rw [htask]; rfl) nofun (Or.inl rfl)
    · exact .of_holdsPath (by rw [htask]; rfl) (by simp [htask]) (Or.inr nofun)
  | @receive t _ h =>
    obtain ⟨htask, ⟨n, b, -, rfl⟩ | ⟨-, rfl⟩⟩ := of_receive? h
    · obtain ⟨hstate, htask'⟩ := state_take (p := { p with notifications := b })
        (t.ofNotification n) htask
      exact .of_holdsPath (by rw [htask]; rfl) htask' (Or.inl hstate)
    · exact .of_holdsPath (by rw [htask]; rfl) nofun (Or.inl rfl)
  | send h =>
    obtain ⟨⟨e, htask⟩, hstate, htask'⟩ := of_send?_task h
    exact .of_holdsPath (by rw [htask]; rfl) htask' (Or.inl hstate)
  | release h =>
    obtain ⟨htask, rfl⟩ := of_release? h
    exact .of_holdsPath (by rw [htask]; rfl) nofun (Or.inl rfl)
  | finish h =>
    obtain ⟨htask, rfl⟩ := of_close? h
    exact ⟨nofun, fun _ => iff_of_true rfl rfl, fun _ => rfl⟩
  | consume h => exact .of_eq rfl h.unchanged.1

end Pipeline

theorem Pipeline.closedLast_resting (eventCapacity : Nat) :
    (Pipeline.resting eventCapacity).ClosedLast :=
  iff_of_false nofun nofun

theorem Pipeline.closedLast_subscribed (bufferCapacity eventCapacity : Nat) :
    (Pipeline.subscribed bufferCapacity eventCapacity).ClosedLast :=
  iff_of_false nofun nofun

/-! ## Reservations -/

namespace Registry

variable {r r' : Registry} {id : Nat} {taken : Reservation} {holder : Holder}

/-- The paths that are held, by whoever holds them. -/
def heldPaths (reservations : List (Nat × Reservation)) : List String :=
  (reservations.filter (·.2.holder.holdsPath)).map (·.2.path)

theorem heldPaths_append (xs ys : List (Nat × Reservation)) :
    heldPaths (xs ++ ys) = heldPaths xs ++ heldPaths ys := by
  rw [heldPaths, List.filter_append, List.map_append]
  rfl

theorem heldPaths_cons (x : Nat × Reservation) (xs : List (Nat × Reservation)) :
    heldPaths (x :: xs) =
      (if x.2.holder.holdsPath then [x.2.path] else []) ++ heldPaths xs := by
  rw [heldPaths, List.filter_cons]
  split <;> rfl

theorem mem_heldPaths {path : String} {xs : List (Nat × Reservation)} :
    path ∈ heldPaths xs ↔ ∃ x ∈ xs, x.2.holder.holdsPath = true ∧ x.2.path = path := by
  simp only [heldPaths, List.mem_map, List.mem_filter, and_assoc]

/-- The reservations have numbers of their own, all of which were given, and the paths that are taken
are those that are held, each once. -/
structure Valid (r : Registry) : Prop where
  ids : (r.reservations.map Prod.fst).Nodup
  ids_lt : ∀ x ∈ r.reservations, x.1 < r.next
  active : r.active.Perm (heldPaths r.reservations)
  nodup : r.active.Nodup
  cleaned : ∀ x ∈ r.reservations, clean x.2.path = x.2.path
  closedLast : ∀ x ∈ r.reservations, ∀ p, x.2.holder = .pipeline p → p.ClosedLast

theorem valid_empty : Valid {} where
  ids := List.nodup_nil
  ids_lt := List.forall_mem_nil _
  active := .nil
  nodup := List.nodup_nil
  cleaned := List.forall_mem_nil _
  closedLast := List.forall_mem_nil _

/-- The reservation with a number, with what is before and behind it. -/
theorem exists_split (h : r.find? id = some taken) :
    ∃ xs ys, r.reservations = xs ++ (id, taken) :: ys ∧ ∀ x ∈ xs, x.1 ≠ id := by
  rw [find?, Option.map_eq_some_iff] at h
  obtain ⟨⟨i, found⟩, hfind, rfl⟩ := h
  obtain ⟨hid, xs, ys, hsplit, hxs⟩ := List.find?_eq_some_iff_append.mp hfind
  obtain rfl : i = id := beq_iff_eq.mp hid
  exact ⟨xs, ys, hsplit, fun x hx => by simpa using hxs x hx⟩

/-- In a valid registry no other reservation has the number. -/
theorem Valid.exists_split (hr : r.Valid) (h : r.find? id = some taken) :
    ∃ xs ys, r.reservations = xs ++ (id, taken) :: ys ∧ (∀ x ∈ xs, x.1 ≠ id) ∧
      ∀ y ∈ ys, y.1 ≠ id := by
  obtain ⟨xs, ys, hsplit, hxs⟩ := Registry.exists_split h
  refine ⟨xs, ys, hsplit, hxs, fun y hy heq => ?_⟩
  have hids := hr.ids
  rw [hsplit, List.map_append, List.map_cons, List.nodup_append] at hids
  exact (List.nodup_cons.mp hids.2.1).1 (List.mem_map.mpr ⟨y, hy, heq⟩)

theorem mem_of_find? (h : r.find? id = some taken) : (id, taken) ∈ r.reservations := by
  obtain ⟨xs, ys, hsplit, -⟩ := Registry.exists_split h
  rw [hsplit]
  exact List.mem_append_right _ List.mem_cons_self

theorem Valid.find?_eq_some_iff (hr : r.Valid) :
    r.find? id = some taken ↔ (id, taken) ∈ r.reservations := by
  refine ⟨mem_of_find?, fun hmem => ?_⟩
  cases hfind : r.find? id with
  | none =>
    rw [find?, Option.map_eq_none_iff, List.find?_eq_none] at hfind
    exact absurd (beq_self_eq_true id) (hfind _ hmem)
  | some other =>
    have hsame := List.inj_on_of_nodup_map hr.ids hmem (mem_of_find? hfind) rfl
    exact congrArg some (Prod.mk.inj hsame).2.symm

/-- Of a path that is taken there is one holder only. -/
theorem Valid.eq_of_holdsPath (hr : r.Valid) {x y : Nat × Reservation} (hx : x ∈ r.reservations)
    (hy : y ∈ r.reservations) (hheld : x.2.holder.holdsPath = true)
    (hheld' : y.2.holder.holdsPath = true) (hpath : x.2.path = y.2.path) : x = y := by
  have hnodup : (heldPaths r.reservations).Nodup := hr.active.nodup_iff.mp hr.nodup
  exact List.inj_on_of_nodup_map hnodup (List.mem_filter.mpr ⟨hx, hheld⟩)
    (List.mem_filter.mpr ⟨hy, hheld'⟩) hpath

/-! ## What calls and pipelines do -/

theorem Valid.begin (hr : r.Valid) {subPath : String} (h : r.begin subPath = .ok (id, r')) :
    r'.Valid := by
  unfold Registry.begin at h
  dsimp only at h
  split at h
  · cases h
  · next hfree =>
    cases h
    rw [List.contains_iff_mem] at hfree
    exact {
      ids := by
        refine List.nodup_cons.mpr ⟨fun hmem => ?_, hr.ids⟩
        obtain ⟨x, hx, heq⟩ := List.mem_map.mp hmem
        exact Nat.lt_irrefl _ (heq ▸ hr.ids_lt x hx)
      ids_lt := List.forall_mem_cons.mpr
        ⟨Nat.lt_succ_self _, fun x hx => Nat.lt_succ_of_lt (hr.ids_lt x hx)⟩
      active := hr.active.cons _
      nodup := List.nodup_cons.mpr ⟨hfree, hr.nodup⟩
      cleaned := List.forall_mem_cons.mpr ⟨clean_clean subPath, hr.cleaned⟩
      closedLast := by
        refine List.forall_mem_cons.mpr ⟨fun p hcall => ?_, hr.closedLast⟩
        cases hcall }

/-- Taking out the path of one holder leaves those of the others. -/
theorem Valid.perm_free (hr : r.Valid) {xs ys : List (Nat × Reservation)}
    (hsplit : r.reservations = xs ++ (id, taken) :: ys) (hheld : taken.holder.holdsPath = true) :
    (r.free taken.path).active.Perm (heldPaths xs ++ heldPaths ys) := by
  have hmiddle : r.active.Perm (taken.path :: (heldPaths xs ++ heldPaths ys)) := by
    refine hr.active.trans ?_
    rw [hsplit, heldPaths_append, heldPaths_cons, if_pos hheld]
    exact List.perm_middle
  have hnot : taken.path ∉ heldPaths xs ++ heldPaths ys :=
    (List.nodup_cons.mp (hmiddle.nodup_iff.mp hr.nodup)).1
  refine (hmiddle.filter _).trans ?_
  rw [List.filter_cons_of_neg (by simp), List.filter_eq_self.mpr]
  intro path hpath
  rw [bne_iff_ne]
  exact fun heq => hnot (heq ▸ hpath)

theorem Valid.fail (hr : r.Valid) (h : r.find? id = some taken)
    (hheld : taken.holder.holdsPath = true) : (r.fail id).Valid := by
  obtain ⟨xs, ys, hsplit, hxs, hys⟩ := hr.exists_split h
  have hrest : r.reservations.filter (·.1 != id) = xs ++ ys := by
    rw [hsplit, List.filter_append, List.filter_cons_of_neg (by simp),
      List.filter_eq_self.mpr (by simpa using hxs), List.filter_eq_self.mpr (by simpa using hys)]
  have hfail : r.fail id = { r.free taken.path with reservations := xs ++ ys } := by
    rw [Registry.fail, h, ← hrest]
  have hsub : ∀ x ∈ xs ++ ys, x ∈ r.reservations := by
    intro x hx
    rw [← hrest] at hx
    exact List.mem_of_mem_filter hx
  rw [hfail]
  exact {
    ids := by
      rw [← hrest]
      exact hr.ids.sublist (List.filter_sublist.map _)
    ids_lt := fun x hx => hr.ids_lt x (hsub x hx)
    active := by
      rw [heldPaths_append]
      exact hr.perm_free hsplit hheld
    nodup := hr.nodup.filter _
    cleaned := fun x hx => hr.cleaned x (hsub x hx)
    closedLast := fun x hx => hr.closedLast x (hsub x hx) }

/-- A registry after a holder was replaced. -/
theorem Valid.replace_eq (hr : r.Valid) (h : r.find? id = some taken) (holder : Holder) :
    ∃ xs ys, r.reservations = xs ++ (id, taken) :: ys ∧
      r.replace id holder =
        { r with
          active := if taken.holder.holdsPath && !holder.holdsPath then (r.free taken.path).active
            else r.active
          reservations := xs ++ (id, { taken with holder }) :: ys } := by
  obtain ⟨xs, ys, hsplit, hxs, hys⟩ := hr.exists_split h
  have hother {f : Nat × Reservation → Nat × Reservation} {zs : List (Nat × Reservation)}
      (hf : ∀ z ∈ zs, f z = z) : zs.map f = zs :=
    (List.map_congr_left hf).trans (List.map_id zs)
  refine ⟨xs, ys, hsplit, ?_⟩
  rw [Registry.replace, h]
  dsimp only
  rw [hsplit, List.map_append, List.map_cons, hother fun z hz => if_neg (by simpa using hxs z hz),
    hother fun z hz => if_neg (by simpa using hys z hz), if_pos (beq_self_eq_true id)]
  split <;> rfl

/-- What is taken once a holder has given way to one that holds no more than it did. -/
theorem Valid.perm_replaced (hr : r.Valid) {xs ys : List (Nat × Reservation)}
    (hsplit : r.reservations = xs ++ (id, taken) :: ys)
    (hholder : holder.holdsPath = true → taken.holder.holdsPath = true) :
    (if taken.holder.holdsPath && !holder.holdsPath then (r.free taken.path).active
      else r.active).Perm (heldPaths (xs ++ (id, { taken with holder }) :: ys)) := by
  have hactive := hr.active
  rw [hsplit, heldPaths_append, heldPaths_cons] at hactive
  rw [heldPaths_append, heldPaths_cons]
  dsimp only at hactive ⊢
  cases hnew : holder.holdsPath with
  | true =>
    -- The path goes from the old holder to the new one.
    rw [hholder hnew] at hactive ⊢
    exact hactive
  | false =>
    cases hheld : taken.holder.holdsPath with
    | true => exact hr.perm_free hsplit hheld
    | false =>
      rw [hheld] at hactive
      exact hactive

/-- A holder is replaced by one that takes nothing more. -/
theorem Valid.replace (hr : r.Valid) (h : r.find? id = some taken)
    (hholder : holder.holdsPath = true → taken.holder.holdsPath = true)
    (hlast : ∀ p, holder = .pipeline p → p.ClosedLast) : (r.replace id holder).Valid := by
  obtain ⟨xs, ys, hsplit, hreplace⟩ := hr.replace_eq h holder
  have hmem : ∀ x ∈ xs ++ (id, { taken with holder }) :: ys,
      x = (id, { taken with holder }) ∨ x ∈ r.reservations := by
    intro x hx
    rw [hsplit]
    simp only [List.mem_append, List.mem_cons] at hx ⊢
    tauto
  have hself : (id, taken) ∈ r.reservations := mem_of_find? h
  rw [hreplace]
  exact {
    ids := by
      have hids := hr.ids
      rw [hsplit] at hids
      simpa using hids
    ids_lt := by
      intro x hx
      rcases hmem x hx with rfl | hold
      · exact hr.ids_lt (id, taken) hself
      · exact hr.ids_lt x hold
    active := hr.perm_replaced hsplit hholder
    nodup := by
      dsimp only
      split
      · exact hr.nodup.filter _
      · exact hr.nodup
    cleaned := by
      intro x hx
      rcases hmem x hx with rfl | hold
      · exact hr.cleaned (id, taken) hself
      · exact hr.cleaned x hold
    closedLast := by
      intro x hx p hp
      rcases hmem x hx with rfl | hold
      · exact hlast p hp
      · exact hr.closedLast x hold p hp }

theorem Valid.mem_replace (hr : r.Valid) (h : r.find? id = some taken) :
    (id, { taken with holder }) ∈ (r.replace id holder).reservations ∧
      ∀ x ∈ r.reservations, x.1 ≠ id → x ∈ (r.replace id holder).reservations := by
  obtain ⟨xs, ys, hsplit, hreplace⟩ := hr.replace_eq h holder
  rw [hreplace, hsplit]
  refine ⟨List.mem_append_right _ List.mem_cons_self, fun x hx hne => ?_⟩
  simp only [List.mem_append, List.mem_cons] at hx ⊢
  rcases hx with hx | rfl | hx
  · exact Or.inl hx
  · exact absurd rfl hne
  · exact Or.inr (Or.inr hx)

/-! ## All of an endpoint -/

/-- One step of a watch call on an endpoint, or of one of its pipelines. -/
inductive Step (e : Endpoint) (r : Registry) : Registry → Prop
  | begin {subPath : String} {id : Nat} {r' : Registry} (h : r.begin subPath = .ok (id, r')) :
    Step e r r'
  | rest {id : Nat} {path : String} (h : r.find? id = some ⟨path, .call⟩)
      (hroot : e.watchableRoot? = none) :
    Step e r (r.succeed id (.resting e.eventChannelCapacity.toNat))
  | subscribe {id : Nat} {path : String} {root : NativePath} (h : r.find? id = some ⟨path, .call⟩)
      (hroot : e.watchableRoot? = some root) :
    Step e r
      (r.succeed id (.subscribed e.bufferCapacity.toNat e.eventChannelCapacity.toNat))
  | fail {id : Nat} {path : String} {root : NativePath} (h : r.find? id = some ⟨path, .call⟩)
      (hroot : e.watchableRoot? = some root) :
    Step e r (r.fail id)
  | pipeline {id : Nat} {path : String} {p p' : Pipeline}
      (h : r.find? id = some ⟨path, .pipeline p⟩) (hstep : p.Step p') :
    Step e r (r.update id fun _ => p')

variable {e : Endpoint}

theorem find?_begin {subPath : String} (h : r.begin subPath = .ok (id, r')) :
    r'.find? id = some ⟨clean subPath, .call⟩ := by
  unfold Registry.begin at h
  dsimp only at h
  split at h
  · cases h
  · cases h
    rw [find?, List.find?_cons_of_pos (by simp)]
    rfl

/-- A watch call that nothing comes between is made of such steps. -/
theorem steps_watch {α : Type} (register : NativePath → Except String α) (subPath : String) :
    ReflTransGen (Step e) r (e.watch register subPath r).2 := by
  unfold Endpoint.watch
  cases hbegin : r.begin subPath with
  | error x => exact .refl
  | ok begun =>
    obtain ⟨id, r₁⟩ := begun
    have htaken := find?_begin hbegin
    refine .head (.begin hbegin) (.single ?_)
    dsimp only
    cases hroot : e.watchableRoot? with
    | none => exact .rest htaken hroot
    | some root =>
      dsimp only
      split
      · exact .fail htaken hroot
      · exact .subscribe htaken hroot

theorem update_eq {path : String} {p p' : Pipeline} (h : r.find? id = some ⟨path, .pipeline p⟩) :
    (r.update id fun _ => p') = r.replace id (.pipeline p') := by
  rw [update, pipeline?, h]

theorem Valid.step (hr : r.Valid) (h : Step e r r') : r'.Valid := by
  cases h with
  | begin h => exact hr.begin h
  | rest h =>
    refine hr.replace h (fun _ => rfl) fun p hp => ?_
    cases hp
    exact Pipeline.closedLast_resting _
  | subscribe h =>
    refine hr.replace h (fun _ => rfl) fun p hp => ?_
    cases hp
    exact Pipeline.closedLast_subscribed _ _
  | fail h => exact hr.fail h rfl
  | pipeline h hstep =>
    have horder := hstep.keepsOrder
    rw [update_eq h]
    refine hr.replace h horder.holdsPath fun p hp => ?_
    cases hp
    exact horder.closedLast (hr.closedLast _ (mem_of_find? h) _ rfl)

theorem Valid.runs (hr : r.Valid) (h : ReflTransGen (Step e) r r') : r'.Valid := by
  induction h with
  | refl => exact hr
  | tail _ hstep ih => exact ih.step hstep

/-- A task that has finished stays so, and is the one of its call for ever. -/
theorem Valid.finished_step (hr : r.Valid) (h : Step e r r') {path : String} {p : Pipeline}
    (hfind : r.find? id = some ⟨path, .pipeline p⟩) (hfinished : p.task = .finished) :
    ∃ p', r'.find? id = some ⟨path, .pipeline p'⟩ ∧ p'.task = .finished := by
  have hr' := hr.step h
  have hmem := mem_of_find? hfind
  simp only [hr'.find?_eq_some_iff]
  cases h with
  | begin h =>
    unfold Registry.begin at h
    dsimp only at h
    split at h
    · cases h
    · cases h
      exact ⟨p, List.mem_cons_of_mem _ hmem, hfinished⟩
  | @rest id' _ h | @subscribe id' _ _ h =>
    have hne : id ≠ id' := by
      rintro rfl
      cases h.symm.trans hfind
    exact ⟨p, (hr.mem_replace h).2 _ hmem hne, hfinished⟩
  | @fail id' _ _ h =>
    have hne : id ≠ id' := by
      rintro rfl
      cases h.symm.trans hfind
    rw [Registry.fail, h]
    exact ⟨p, List.mem_filter.mpr ⟨hmem, by simpa using hne⟩, hfinished⟩
  | @pipeline id' _ p₀ p' h hstep =>
    rw [update_eq h]
    by_cases heq : id = id'
    · subst heq
      cases h.symm.trans hfind
      exact ⟨p', (hr.mem_replace h).1, hstep.keepsOrder.finished hfinished⟩
    · exact ⟨p, (hr.mem_replace h).2 _ hmem heq, hfinished⟩

theorem Valid.finished_runs (hr : r.Valid) (h : ReflTransGen (Step e) r r') {path : String}
    {p : Pipeline} (hfind : r.find? id = some ⟨path, .pipeline p⟩) (hfinished : p.task = .finished) :
    ∃ p', r'.find? id = some ⟨path, .pipeline p'⟩ ∧ p'.task = .finished := by
  induction h with
  | refl => exact ⟨p, hfind, hfinished⟩
  | tail hruns hstep ih =>
    obtain ⟨p', hfind', hfinished'⟩ := ih
    exact (hr.runs hruns).finished_step hstep hfind' hfinished'

/-! ## Exclusion -/

/-- A watch call or a pipeline holds a path. -/
def Holds (r : Registry) (id : Nat) (path : String) : Prop :=
  ∃ holder, r.find? id = some ⟨path, holder⟩ ∧ holder.holdsPath = true

/-- Each path has one session at most, and is taken exactly as long as that takes. -/
structure Exclusive (e : Endpoint) (r : Registry) : Prop where
  nodup : r.active.Nodup
  cleaned : ∀ path ∈ r.active, clean path = path
  mem_active_iff : ∀ path, path ∈ r.active ↔ ∃ id, r.Holds id path
  unique : ∀ id id' path, r.Holds id path → r.Holds id' path → id = id'
  /-- A pipeline has its path until its task has nothing more to do than to close the session. -/
  delivering : ∀ id path p, r.find? id = some ⟨path, .pipeline p⟩ → p.task ≠ .closing →
    p.task ≠ .finished → path ∈ r.active
  /-- A watch call is refused exactly if its path is taken. -/
  refused_iff : ∀ {α : Type} (register : NativePath → Except String α) (subPath path : String),
    (e.watch register subPath r).1 = .error (.alreadyWatching path) ↔
      path = clean subPath ∧ path ∈ r.active
  /-- A watch call that nothing comes between leaves the paths as they were if it fails. -/
  failed : ∀ {α : Type} (register : NativePath → Except String α) (subPath : String) (x : SyncError),
    (e.watch register subPath r).1 = .error x → (e.watch register subPath r).2.active = r.active
  /-- A watch call takes a path that was free, and nothing else. -/
  begun : ∀ subPath id r', r.begin subPath = .ok (id, r') → clean subPath ∉ r.active ∧
    ∀ path, path ∈ r'.active ↔ path = clean subPath ∨ path ∈ r.active
  /-- A watch call that fails after others have come between gives back this path, and nothing
  else. -/
  given_back : ∀ id taken, r.find? id = some ⟨taken, .call⟩ →
    ∀ path, path ∈ (r.fail id).active ↔ path ≠ taken ∧ path ∈ r.active
  /-- Once its session is closed a pipeline holds nothing, and if its path is taken, it is another
  one's. -/
  closed : ∀ id path p, r.find? id = some ⟨path, .pipeline p⟩ → p.session.state = .closed →
    ¬ r.Holds id path ∧ (path ∈ r.active → ∃ id', id' ≠ id ∧ r.Holds id' path)

section Exclusive

-- To compute clean paths is of no use here.
attribute [local irreducible] clean

variable {subPath path : String}

theorem begin_of_free (h : clean subPath ∉ r.active) :
    r.begin subPath = .ok (r.next,
      { active := clean subPath :: r.active
        reservations := (r.next, ⟨clean subPath, .call⟩) :: r.reservations
        next := r.next + 1 }) := by
  unfold Registry.begin
  dsimp only
  rw [if_neg (by rwa [List.contains_iff_mem])]

theorem begin_of_taken (h : clean subPath ∈ r.active) :
    r.begin subPath = .error (.alreadyWatching (clean subPath)) := by
  unfold Registry.begin
  dsimp only
  rw [if_pos (by rwa [List.contains_iff_mem])]

/-- To give back a path that has just been taken leaves all as it was. -/
theorem active_fail_begin (h : clean subPath ∉ r.active) :
    (fail { active := clean subPath :: r.active
            reservations := (r.next, ⟨clean subPath, .call⟩) :: r.reservations
            next := r.next + 1 } r.next).active = r.active := by
  rw [fail, find?, List.find?_cons_of_pos (by simp)]
  show (clean subPath :: r.active).filter (· != clean subPath) = r.active
  rw [List.filter_cons_of_neg (by simp), List.filter_eq_self]
  intro path hpath
  rw [bne_iff_ne]
  exact fun heq => h (heq ▸ hpath)

/-- What comes of a watch call whose path is free. -/
theorem watch_of_free {α : Type} (register : NativePath → Except String α)
    (h : clean subPath ∉ r.active) :
    (∀ path, (e.watch register subPath r).1 ≠ .error (.alreadyWatching path)) ∧
      ∀ x, (e.watch register subPath r).1 = .error x →
        (e.watch register subPath r).2.active = r.active := by
  unfold Endpoint.watch
  rw [begin_of_free h]
  dsimp only
  cases e.watchableRoot? with
  | none => exact ⟨fun _ => nofun, fun _ => nofun⟩
  | some root =>
    dsimp only
    split
    · exact ⟨fun _ => nofun, fun _ _ => active_fail_begin h⟩
    · exact ⟨fun _ => nofun, fun _ => nofun⟩

theorem watch_of_taken {α : Type} (register : NativePath → Except String α)
    (h : clean subPath ∈ r.active) :
    e.watch register subPath r = (.error (.alreadyWatching (clean subPath)), r) := by
  unfold Endpoint.watch
  rw [begin_of_taken h]

theorem Valid.mem_active_iff (hr : r.Valid) : path ∈ r.active ↔ ∃ id, r.Holds id path := by
  rw [hr.active.mem_iff, mem_heldPaths]
  constructor
  · rintro ⟨⟨id, taken⟩, hmem, hheld, rfl⟩
    exact ⟨id, taken.holder, hr.find?_eq_some_iff.mpr hmem, hheld⟩
  · rintro ⟨id, holder, hfind, hheld⟩
    exact ⟨_, mem_of_find? hfind, hheld, rfl⟩

theorem Valid.exclusive (hr : r.Valid) : Exclusive e r where
  nodup := hr.nodup
  cleaned := by
    intro path hpath
    obtain ⟨id, holder, hfind, -⟩ := hr.mem_active_iff.mp hpath
    exact hr.cleaned _ (mem_of_find? hfind)
  mem_active_iff := fun path => hr.mem_active_iff
  unique := by
    rintro id id' path ⟨holder, hfind, hheld⟩ ⟨holder', hfind', hheld'⟩
    exact congrArg Prod.fst
      (hr.eq_of_holdsPath (mem_of_find? hfind) (mem_of_find? hfind') hheld hheld' rfl)
  delivering := by
    intro id path p hfind hclosing hfinished
    refine hr.mem_active_iff.mpr ⟨id, _, hfind, ?_⟩
    show p.task.holdsPath = true
    unfold Task.holdsPath
    split
    · exact absurd ‹_› hclosing
    · exact absurd ‹_› hfinished
    · rfl
  refused_iff := by
    intro α register subPath path
    by_cases hpath : clean subPath ∈ r.active
    · rw [watch_of_taken register hpath]
      constructor
      · intro heq
        cases heq
        exact ⟨rfl, hpath⟩
      · rintro ⟨rfl, -⟩
        rfl
    · refine iff_of_false ((watch_of_free register hpath).1 path) ?_
      rintro ⟨rfl, htaken⟩
      exact hpath htaken
  failed := by
    intro α register subPath x hx
    by_cases hpath : clean subPath ∈ r.active
    · rw [watch_of_taken register hpath]
    · exact (watch_of_free register hpath).2 x hx
  begun := by
    intro subPath id r' hbegin
    by_cases hpath : clean subPath ∈ r.active
    · rw [begin_of_taken hpath] at hbegin
      cases hbegin
    · rw [begin_of_free hpath] at hbegin
      cases hbegin
      exact ⟨hpath, fun path => List.mem_cons⟩
  given_back := by
    intro id taken hfind path
    rw [Registry.fail, hfind]
    show path ∈ r.active.filter (· != taken) ↔ _
    rw [List.mem_filter, bne_iff_ne, and_comm]
  closed := by
    intro id path p hfind hclosed
    have hfinished := (hr.closedLast _ (mem_of_find? hfind) p rfl).mp hclosed
    have hnot : ¬ r.Holds id path := by
      rintro ⟨holder, hfind', hheld⟩
      cases hfind.symm.trans hfind'
      rw [Holder.holdsPath, hfinished] at hheld
      cases hheld
    refine ⟨hnot, fun hpath => ?_⟩
    obtain ⟨id', hholds⟩ := hr.mem_active_iff.mp hpath
    exact ⟨id', fun heq => hnot (heq ▸ hholds), hholds⟩

end Exclusive

/-- Whatever watch calls, pipelines and consumers do, and in whichever order, each path has one
session at most, and is taken exactly as long as that takes. A session that is closed stays closed, so
that it is in nobody's way from then on. -/
theorem exclusive_of_runs (h : ReflTransGen (Step e) {} r) (h' : ReflTransGen (Step e) r r') :
    Exclusive e r' ∧ ∀ id path p, r.find? id = some ⟨path, .pipeline p⟩ →
      p.session.state = .closed →
      ∃ p', r'.find? id = some ⟨path, .pipeline p'⟩ ∧ p'.session.state = .closed := by
  have hr : r.Valid := valid_empty.runs h
  refine ⟨(hr.runs h').exclusive, fun id path p hfind hclosed => ?_⟩
  have hfinished := (hr.closedLast _ (mem_of_find? hfind) p rfl).mp hclosed
  obtain ⟨p', hfind', hfinished'⟩ := hr.finished_runs h' hfind hfinished
  exact ⟨p', hfind', ((hr.runs h').closedLast _ (mem_of_find? hfind') p' rfl).mpr hfinished'⟩

/-- An endpoint on a storage without a source of notifications. -/
def unnotified : Endpoint :=
  ⟨[], ⟨false, false⟩, none, ⟨[]⟩, 1, 1⟩

/-- A session is closed, and its path is watched again. -/
theorem exclusive_watchedAgain :
    ∃ r r' p, r.find? 0 = some ⟨"/a", .pipeline p⟩ ∧ p.session.state = .closed ∧
      r' = (unnotified.watch (fun _ => .ok ()) "/a/" r).2 ∧
      Exclusive unnotified r' ∧
      ∃ p', r'.find? 0 = some ⟨"/a", .pipeline p'⟩ ∧ p'.session.state = .closed := by
  let p₀ : Pipeline := .resting 1
  let p₁ : Pipeline := { p₀ with session := p₀.session.close }
  let p₂ : Pipeline := { p₁ with task := .releasing }
  let p₃ : Pipeline := { p₂ with task := .closing }
  let p₄ : Pipeline := { p₃ with session := p₃.session.finish, task := .finished }
  let r₀ : Registry := ⟨["/a"], [(0, ⟨"/a", .pipeline p₀⟩)], 1⟩
  let r₁ : Registry := r₀.update 0 fun _ => p₁
  let r₂ : Registry := r₁.update 0 fun _ => p₂
  let r₃ : Registry := r₂.update 0 fun _ => p₃
  let r₄ : Registry := r₃.update 0 fun _ => p₄
  have hstart : ReflTransGen (Step unnotified) {} r₀ := by
    have hwatch : (unnotified.watch (fun _ => .ok ()) "/a" {}).2 = r₀ := by rfl
    exact hwatch ▸ steps_watch (fun _ => .ok ()) "/a"
  have hfind₀ : r₀.find? 0 = some ⟨"/a", .pipeline p₀⟩ := rfl
  have hfind₁ : r₁.find? 0 = some ⟨"/a", .pipeline p₁⟩ := rfl
  have hfind₂ : r₂.find? 0 = some ⟨"/a", .pipeline p₂⟩ := rfl
  have hfind₃ : r₃.find? 0 = some ⟨"/a", .pipeline p₃⟩ := rfl
  have hasked : Step unnotified r₀ r₁ := .pipeline hfind₀ (.consume .close)
  have hheeded : Step unnotified r₁ r₂ := .pipeline hfind₁ (.heedEnd rfl)
  have hreleased : Step unnotified r₂ r₃ := .pipeline hfind₂ (.release rfl)
  have hclosed : Step unnotified r₃ r₄ := .pipeline hfind₃ (.finish rfl)
  have hruns := (((hstart.tail hasked).tail hheeded).tail hreleased).tail hclosed
  obtain ⟨hexclusive, hstays⟩ := exclusive_of_runs hruns (steps_watch (fun _ => .ok ()) "/a/")
  exact ⟨_, _, p₄, rfl, rfl, rfl, hexclusive, hstays 0 "/a" p₄ rfl rfl⟩

end Registry

end SyncEndpoint.Watch
