import SyncEndpoint.Proofs.Watch.Capacity
import SyncEndpoint.Proofs.Watch.Exclusion
import SyncEndpoint.Settings.Files

set_option autoImplicit false

/-! # The limit of bounded channels

A bounded channel can be opened for one item at least, and for `channelLimit` items at most. A watch
opens one for the events of its session, two at the ends of its buffer, and one for each of the
segments in between, which may be four times as large as the first one. So all of them can be opened
if and only if the capacities that are set leave that much room below the limit (`keepLimit_iff`).
That settings are fit for use does not tell so much: only the other end of the range is checked
(`exceedLimit_mostEvents`). -/

namespace SyncEndpoint

namespace Watch

open Relation (ReflTransGen)

/-- The most that a bounded channel can be opened for. -/
def channelLimit : Nat :=
  (2 ^ 64 - 1) >>> 3

/-- A bounded channel of this capacity can be opened. -/
def Openable (capacity : Nat) : Prop :=
  1 ≤ capacity ∧ capacity ≤ channelLimit

/-- All segments of a chain can be opened, if the largest one can. -/
theorem openable_of_isDoubled {initial capacity : Nat} (hpos : 0 < initial)
    (hlimit : 4 * initial ≤ channelLimit) (h : Buffer.IsDoubled initial capacity) :
    Openable capacity := by
  rcases h with rfl | rfl | rfl
  all_goals exact ⟨by omega, by omega⟩

namespace Pipeline

variable {p p' : Pipeline}

/-- All channels of a pipeline could be opened, and so can the next one that the fill of the current
segment calls for. -/
structure KeepsLimit (p : Pipeline) : Prop where
  events : Openable p.session.capacity
  ends : Openable p.notifications.initial
  segments : ∀ s ∈ p.notifications.segments, Openable s.capacity
  next : ∀ current capacity, p.notifications.segments.getLast? = some current →
    Buffer.nextCapacity current.items.length current.capacity p.notifications.initial =
      some capacity → Openable capacity

/-! ## The sizes in a pipeline -/

/-- A step from `p` to `p'` keeps to the sizes. -/
structure KeepsSizes (p p' : Pipeline) : Prop where
  events : p'.session.capacity = p.session.capacity
  ends : p'.notifications.initial = p.notifications.initial
  sized : p.notifications.Sized → p'.notifications.Sized

theorem KeepsSizes.of_eq (hevents : p'.session.capacity = p.session.capacity)
    (hbuffer : p'.notifications = p.notifications) : p.KeepsSizes p' where
  events := hevents
  ends := by rw [hbuffer]
  sized := by
    rw [hbuffer]
    exact id

theorem take_keepsSizes (outcome : Except SyncError (Option ChangeEvent)) :
    p.KeepsSizes (p.take outcome) := by
  unfold take
  split
  · exact .of_eq rfl rfl
  · exact .of_eq rfl rfl
  · refine .of_eq ?_ rfl
    unfold Session.sendError
    split <;> rfl

theorem send?_keepsSizes (h : p.send? = some p') : p.KeepsSizes p' := by
  unfold send? Session.sendEvent at h
  split at h
  · split at h
    · next hsent =>
      cases h
      split at hsent
      · cases hsent
      · split at hsent <;> cases hsent
        exact .of_eq rfl rfl
    · cases h
      exact .of_eq rfl rfl
    · cases h
  · cases h

theorem Step.keepsSizes (h : p.Step p') : p.KeepsSizes p' := by
  cases h with
  | notify h =>
    obtain ⟨b, hsend, rfl⟩ := of_notify? h
    refine ⟨rfl, ?_, fun hsized => hsized.send hsend⟩
    rw [(Buffer.of_send? hsend).2]
  | unregister h =>
    obtain ⟨-, rfl⟩ := of_unregister? h
    exact ⟨rfl, rfl, fun hsized => hsized.close⟩
  | buffer h => exact ⟨rfl, h.unchanged.2, fun hsized => hsized.moves h⟩
  | heedEnd h =>
    obtain ⟨-, rfl⟩ | ⟨-, rfl⟩ := of_heedEnd? h
    · exact .of_eq rfl rfl
    · exact .of_eq rfl rfl
  | @receive t _ h =>
    obtain ⟨-, ⟨n, b, hreceive, rfl⟩ | ⟨-, rfl⟩⟩ := of_receive? h
    · have htake := take_keepsSizes (p := { p with notifications := b }) (t.ofNotification n)
      refine ⟨htake.events, ?_, fun hsized => htake.sized (hsized.receive hreceive)⟩
      rw [htake.ends, (Buffer.of_receive? hreceive).2]
    · exact .of_eq rfl rfl
  | send h => exact send?_keepsSizes h
  | release h =>
    obtain ⟨-, rfl⟩ := of_release? h
    exact .of_eq rfl rfl
  | finish h =>
    obtain ⟨-, rfl⟩ := of_close? h
    exact .of_eq rfl rfl
  | consume h => exact .of_eq h.unchanged.2 rfl

/-- The capacities of a pipeline are those that were set, or the least there can be. -/
structure SizedFor (bufferCapacity eventCapacity : Nat) (p : Pipeline) : Prop where
  events : p.session.capacity = max eventCapacity 1
  ends : p.notifications.initial ≤ max bufferCapacity 1
  sized : p.notifications.Sized

variable {bufferCapacity eventCapacity : Nat}

theorem sizedFor_resting : SizedFor bufferCapacity eventCapacity (.resting eventCapacity) where
  events := rfl
  ends := Nat.le_max_right bufferCapacity 1
  sized := (Buffer.Sized.empty 0).close

theorem sizedFor_subscribed :
    SizedFor bufferCapacity eventCapacity (.subscribed bufferCapacity eventCapacity) where
  events := rfl
  ends := Nat.le_refl _
  sized := Buffer.Sized.empty bufferCapacity

theorem SizedFor.step (hp : p.SizedFor bufferCapacity eventCapacity) (h : p.Step p') :
    p'.SizedFor bufferCapacity eventCapacity where
  events := h.keepsSizes.events.trans hp.events
  ends := h.keepsSizes.ends.trans_le hp.ends
  sized := h.keepsSizes.sized hp.sized

theorem SizedFor.keepsLimit (hp : p.SizedFor bufferCapacity eventCapacity)
    (hevents : eventCapacity ≤ channelLimit) (hbuffer : 4 * bufferCapacity ≤ channelLimit) :
    p.KeepsLimit := by
  have hfour : 4 ≤ channelLimit := by decide
  have hpos := hp.sized.initial_pos
  have hlimit : 4 * p.notifications.initial ≤ channelLimit := by
    have hends := hp.ends
    omega
  refine ⟨?_, ?_, ?_, ?_⟩
  · rw [hp.events]
    exact ⟨Nat.le_max_right _ _, by omega⟩
  · exact openable_of_isDoubled hpos hlimit (.inl rfl)
  · intro s hs
    exact openable_of_isDoubled hpos hlimit (hp.sized.isDoubled s hs)
  · intro current capacity hlast hnext
    exact openable_of_isDoubled hpos hlimit (hp.sized.isNext hlast hnext).doubled

/-! ## A burst -/

/-- A buffer that nobody drains, and whose input is empty. -/
def stored (initial : Nat) (grower : Grower Notification) (before : List (Segment Notification))
    (capacity : Nat) (items : List Notification) : Buffer Notification :=
  { initial, input := [], isOpen := true, grower, segments := before ++ [⟨capacity, items⟩]
    drainer := .waiting, output := [] }

/-- A pipeline with such a buffer, where the grower waits. -/
def burst (p : Pipeline) (initial : Nat) (before : List (Segment Notification)) (capacity : Nat)
    (items : List Notification) : Pipeline :=
  { p with notifications := stored initial .waiting before capacity items }

variable {initial capacity opened : Nat} {before before' : List (Segment Notification)}
  {items items' : List Notification}

/-- One more notification is moved to the segment that the grower chooses. -/
theorem steps_push {n : Notification} (hinitial : 0 < initial)
    (hchoose : (stored initial (.holding n) before capacity items).growerChoose? =
      some (stored initial (.placing n) before' opened items'))
    (hroom : items'.length < opened) :
    ReflTransGen Step (p.burst initial before capacity items)
      (p.burst initial before' opened (items' ++ [n])) := by
  have hsend : (p.burst initial before capacity items).notify? n = some
      { p with notifications := { stored initial .waiting before capacity items with
        input := [n] } } := by
    simp [notify?, burst, Buffer.send?, stored, hinitial]
  have htake : { stored initial .waiting before capacity items with input := [n] }.growerTake? =
      some (stored initial (.holding n) before capacity items) := by
    simp [Buffer.growerTake?, stored]
  have hplace : (stored initial (.placing n) before' opened items').growerPlace? =
      some (stored initial .waiting before' opened (items' ++ [n])) := by
    simp [Buffer.growerPlace?, stored, hroom]
  have hsent := ReflTransGen.single (Step.notify hsend)
  exact ((hsent.tail (.buffer (.growerTake htake))).tail (.buffer (.growerChoose hchoose))).tail
    (.buffer (.growerPlace hplace))

/-- A segment is kept as long as it is not half full, and has less in it than the first one could
hold. -/
theorem steps_fill (hinitial : 0 < initial) {n : Nat} (hn : items.length ≤ n)
    (hhalf : n ≤ capacity / 2) (hfew : n ≤ initial) :
    ∃ items', items'.length = n ∧ ReflTransGen Step (p.burst initial before capacity items)
      (p.burst initial before capacity items') := by
  induction hn with
  | refl => exact ⟨items, rfl, .refl⟩
  | @step n _ ih =>
    obtain ⟨items', hlength, hsteps⟩ := ih (Nat.le_of_succ_le hhalf) (Nat.le_of_succ_le hfew)
    have hnext : Buffer.nextCapacity items'.length capacity initial = none := by
      unfold Buffer.nextCapacity
      rw [if_neg (by omega), if_neg (by omega)]
    have hchoose : (stored initial (.holding (.error "")) before capacity items').growerChoose? =
        some (stored initial (.placing (.error "")) before capacity items') := by
      simp [Buffer.growerChoose?, stored, hnext]
    refine ⟨items' ++ [.error ""], ?_, hsteps.trans (steps_push hinitial hchoose (by omega))⟩
    simp [hlength]

/-- After a segment that is half full one is opened that is twice as large. -/
theorem steps_double (hinitial : 0 < initial) (hcapacity : 0 < capacity)
    (hfull : capacity / 2 ≤ items.length) :
    ReflTransGen Step (p.burst initial before capacity items)
      (p.burst initial (before ++ [⟨capacity, items⟩]) (capacity * 2) [.error ""]) := by
  have hnext : Buffer.nextCapacity items.length capacity initial = some (capacity * 2) := by
    unfold Buffer.nextCapacity
    rw [if_pos hfull]
  have hchoose : (stored initial (.holding (.error "")) before capacity items).growerChoose? =
      some (stored initial (.placing (.error "")) (before ++ [⟨capacity, items⟩]) (capacity * 2)
        []) := by
    simp [Buffer.growerChoose?, stored, hnext]
  have hroom : ([] : List Notification).length < capacity * 2 := by
    simp only [List.length_nil]
    omega
  exact steps_push hinitial hchoose hroom

/-- A burst of notifications leads to where a segment is called for that is four times as large as the
first one. -/
theorem exists_steps_largest (bufferCapacity eventCapacity : Nat) :
    ∃ p current, ReflTransGen Step (subscribed bufferCapacity eventCapacity) p ∧
      p.notifications.segments.getLast? = some current ∧
      Buffer.nextCapacity current.items.length current.capacity p.notifications.initial =
        some (max bufferCapacity 1 * 4) := by
  let start := subscribed bufferCapacity eventCapacity
  have hpos : 0 < max bufferCapacity 1 := by omega
  have hstart : start = start.burst (max bufferCapacity 1) [] (max bufferCapacity 1) [] := rfl
  generalize max bufferCapacity 1 = i at hpos hstart ⊢
  -- The first segment is filled up to its half, and so is the second one.
  obtain ⟨first, hfirst, hfill⟩ : ∃ items : List Notification, items.length = i / 2 ∧
      ReflTransGen Step (start.burst i [] i []) (start.burst i [] i items) :=
    steps_fill hpos (Nat.zero_le _) (Nat.le_refl _) (Nat.div_le_self i 2)
  rw [← hstart] at hfill
  have hdouble : ReflTransGen Step (start.burst i [] i first)
      (start.burst i [⟨i, first⟩] (i * 2) [.error ""]) := steps_double hpos hpos hfirst.ge
  obtain ⟨second, hsecond, hfill'⟩ : ∃ items : List Notification, items.length = i ∧
      ReflTransGen Step (start.burst i [⟨i, first⟩] (i * 2) [.error ""])
        (start.burst i [⟨i, first⟩] (i * 2) items) :=
    steps_fill hpos hpos (by omega) (Nat.le_refl i)
  refine ⟨_, ⟨i * 2, second⟩, (hfill.trans hdouble).trans hfill', ?_, ?_⟩
  · simp [burst, stored]
  · show Buffer.nextCapacity second.length (i * 2) i = some (i * 4)
    unfold Buffer.nextCapacity
    rw [if_pos (by omega)]
    congr 1
    omega

end Pipeline

/-! ## All watches of an endpoint -/

namespace Registry

variable {e : Endpoint} {r r' : Registry} {id : Nat} {path : String} {p p' : Pipeline}

/-- All pipelines have the sizes that the endpoint asks for. -/
def Sized (e : Endpoint) (r : Registry) : Prop :=
  ∀ x ∈ r.reservations, ∀ p, x.2.holder = .pipeline p →
    p.SizedFor e.bufferCapacity.toNat e.eventChannelCapacity.toNat

theorem of_mem_replace {holder : Holder} {x : Nat × Reservation}
    (h : x ∈ (r.replace id holder).reservations) : x.2.holder = holder ∨ x ∈ r.reservations := by
  unfold replace at h
  split at h
  · exact .inr h
  · dsimp only at h
    split at h
    all_goals
      obtain ⟨⟨i, old⟩, hold, rfl⟩ := List.mem_map.mp h
      dsimp only
      split
      · exact .inl rfl
      · exact .inr hold

theorem Sized.replace (hr : r.Sized e)
    (hp : p.SizedFor e.bufferCapacity.toNat e.eventChannelCapacity.toNat) :
    (r.replace id (.pipeline p)).Sized e := by
  intro x hx p' hp'
  rcases of_mem_replace hx with hnew | hold
  · rw [hnew] at hp'
    cases hp'
    exact hp
  · exact hr x hold p' hp'

theorem Sized.step (hr : r.Sized e) (h : Step e r r') : r'.Sized e := by
  cases h with
  | begin h =>
    unfold Registry.begin at h
    dsimp only at h
    split at h
    · cases h
    · cases h
      refine List.forall_mem_cons.mpr ⟨fun p hcall => ?_, hr⟩
      cases hcall
  | rest h => exact hr.replace Pipeline.sizedFor_resting
  | subscribe h => exact hr.replace Pipeline.sizedFor_subscribed
  | fail h =>
    rw [Registry.fail, h]
    intro x hx
    exact hr x (List.mem_of_mem_filter hx)
  | pipeline h hstep =>
    rw [update_eq h]
    exact hr.replace ((hr _ (mem_of_find? h) _ rfl).step hstep)

theorem sized_of_runs (h : ReflTransGen (Step e) {} r) : r.Sized e := by
  induction h with
  | refl => exact List.forall_mem_nil _
  | tail _ hstep ih => exact ih.step hstep

/-- The steps of a pipeline are steps of its endpoint. -/
theorem exists_runs_of_steps (hr : r.Valid) (hfind : r.find? id = some ⟨path, .pipeline p⟩)
    (hsteps : ReflTransGen Pipeline.Step p p') :
    ∃ r', ReflTransGen (Step e) r r' ∧ r'.find? id = some ⟨path, .pipeline p'⟩ := by
  induction hsteps with
  | refl => exact ⟨r, .refl, hfind⟩
  | tail _ hstep ih =>
    obtain ⟨r', hruns, hfind'⟩ := ih
    have hvalid := hr.runs hruns
    have hnext : Step e r' _ := .pipeline hfind' hstep
    refine ⟨_, hruns.tail hnext, ?_⟩
    rw [(hvalid.step hnext).find?_eq_some_iff, update_eq hfind']
    exact (hvalid.mem_replace hfind').1

/-- The first watch of an endpoint with a source of notifications can come to a pipeline. -/
theorem exists_runs_subscribed {root : NativePath} (hroot : e.watchableRoot? = some root) :
    ∃ r, ReflTransGen (Step e) {} r ∧ r.find? 0 = some ⟨CanonicalPath.clean "/", .pipeline
      (.subscribed e.bufferCapacity.toNat e.eventChannelCapacity.toNat)⟩ := by
  obtain ⟨r, hbegin⟩ : ∃ r, ({} : Registry).begin "/" = .ok (0, r) := ⟨_, rfl⟩
  have hbegun : ReflTransGen (Step e) {} r := .single (.begin hbegin)
  have hfind := find?_begin hbegin
  have hvalid := valid_empty.runs hbegun
  have hnext : Step e r _ := .subscribe hfind hroot
  refine ⟨_, hbegun.tail hnext, ?_⟩
  rw [(hvalid.step hnext).find?_eq_some_iff]
  exact (hvalid.mem_replace hfind).1

end Registry

end Watch

namespace Settings

open Relation (ReflTransGen)
open Storage Watch

/-- An endpoint has the capacities of the settings. -/
structure Configures (s : Settings) (e : Endpoint) : Prop where
  bufferCapacity : e.bufferCapacity = s.bufferCapacity
  eventChannelCapacity : e.eventChannelCapacity = s.eventChannelCapacity

/-- An endpoint that was opened with settings has their capacities. -/
theorem configures_of_withStorage {σ R W : Type} {backend : Backend σ R W} {w w' : World σ}
    {s : Settings} {root : NativePath} {capabilities : Capabilities}
    {physicalRoot : Option NativePath} {e : Endpoint}
    (h : (Endpoint.withStorage root capabilities physicalRoot s.ignorePatterns s.bufferCapacity
      s.eventChannelCapacity).run.run backend w = (.ok e, w')) : s.Configures e := by
  unfold Endpoint.withStorage at h
  rw [Attempt.run_bind] at h
  split at h
  · dsimp only at h
    split at h
    · rw [Attempt.run_bind, Attempt.run_throw] at h
      cases h
    · split at h
      · cases h
      · cases h
        exact ⟨rfl, rfl⟩
  · cases h

/-- No watch of an endpoint with these settings ever asks for a channel that cannot be opened. -/
def KeepLimit (s : Settings) : Prop :=
  ∀ e, s.Configures e → ∀ r id path p, ReflTransGen (Registry.Step e) {} r →
    r.find? id = some ⟨path, .pipeline p⟩ → p.KeepsLimit

variable {s : Settings}

theorem keepLimit_of_le (hevents : s.eventChannelCapacity.toNat ≤ channelLimit)
    (hbuffer : 4 * s.bufferCapacity.toNat ≤ channelLimit) : s.KeepLimit := by
  intro e he r id path p hruns hfind
  have hsized := Registry.sized_of_runs hruns _ (Registry.mem_of_find? hfind) p rfl
  rw [he.bufferCapacity, he.eventChannelCapacity] at hsized
  exact hsized.keepsLimit hevents hbuffer

/-- An endpoint with these capacities whose storage has a source of notifications. -/
def notified (s : Settings) : Endpoint :=
  ⟨[], ⟨true, true⟩, some [], ⟨[]⟩, s.bufferCapacity, s.eventChannelCapacity⟩

theorem configures_notified (s : Settings) : s.Configures s.notified :=
  ⟨rfl, rfl⟩

/-- What a watch of such an endpoint can come to keeps to the limit. -/
theorem KeepLimit.of_steps (h : s.KeepLimit) {p : Pipeline}
    (hsteps : ReflTransGen Pipeline.Step
      (.subscribed s.bufferCapacity.toNat s.eventChannelCapacity.toNat) p) : p.KeepsLimit := by
  have hroot : s.notified.watchableRoot? = some [] := rfl
  obtain ⟨r, hruns, hfind⟩ := Registry.exists_runs_subscribed hroot
  have hvalid := Registry.valid_empty.runs hruns
  obtain ⟨r', hruns', hfind'⟩ := Registry.exists_runs_of_steps hvalid hfind hsteps
  exact h _ s.configures_notified r' 0 _ p (hruns.trans hruns') hfind'

theorem KeepLimit.events_le (h : s.KeepLimit) : s.eventChannelCapacity.toNat ≤ channelLimit := by
  have hevents : max s.eventChannelCapacity.toNat 1 ≤ channelLimit := (h.of_steps .refl).events.2
  omega

theorem KeepLimit.buffer_le (h : s.KeepLimit) : 4 * s.bufferCapacity.toNat ≤ channelLimit := by
  obtain ⟨p, current, hsteps, hlast, hnext⟩ := Pipeline.exists_steps_largest
    s.bufferCapacity.toNat s.eventChannelCapacity.toNat
  have hlargest := ((h.of_steps hsteps).next current _ hlast hnext).2
  omega

/-- All channels of all watches can be opened, whatever happens, if and only if as many events as are
set can be queued, and a segment four times as large as the first one can be opened. -/
theorem keepLimit_iff (s : Settings) : s.KeepLimit ↔
    s.eventChannelCapacity.toNat ≤ channelLimit ∧ 4 * s.bufferCapacity.toNat ≤ channelLimit := by
  constructor
  · intro h
    exact ⟨h.events_le, h.buffer_le⟩
  · rintro ⟨hevents, hbuffer⟩
    exact keepLimit_of_le hevents hbuffer

/-- Settings with as many queued events as can be written down. -/
def mostEvents : Settings :=
  { eventChannelCapacity := 18446744073709551615 }

/-- They are fit for use, and yet the channel of the first watch cannot be opened. -/
theorem exceedLimit_mostEvents : mostEvents.validate = .ok () ∧ ¬ mostEvents.KeepLimit := by
  refine ⟨rfl, fun h => ?_⟩
  have hevents : ¬ mostEvents.eventChannelCapacity.toNat ≤ channelLimit := by decide
  exact hevents h.events_le

end Settings

end SyncEndpoint
