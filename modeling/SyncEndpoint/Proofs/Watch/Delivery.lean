import SyncEndpoint.Endpoint.OnDisk
import SyncEndpoint.Proofs.Storage.Running
import SyncEndpoint.Proofs.Watch.Fifo
import SyncEndpoint.Storage.Memory
import SyncEndpoint.Watch.Interpreter
import SyncEndpoint.Watch.Live
import SyncEndpoint.Watch.Pipeline

set_option autoImplicit false

/-! # What a session delivers

On a storage that stays as it is, a notification comes to the same event whenever it is interpreted,
but for the time of the event. All steps that the parties of a watch can take keep account of every
notification: it is in the buffer, or its event or error is on its way to the consumer or has come
there. So the consumer gets the events and the errors of all notifications, each in order, and when
the session is closed none is missing (`session_lossless`). -/

namespace SyncEndpoint

/-- An event without its time. -/
def ChangeEvent.undated (e : ChangeEvent) : ChangeEvent :=
  { e with time := ⟨0, 0⟩ }

namespace Watch

open Relation (ReflTransGen)
open Storage

/-! ## Interpretations -/

/-- What raw events come to on a storage that stays as it is, by the time of the look at it. -/
def Interpreter.still {σ R W : Type} (t : Interpreter) (backend : Backend σ R W) (w : World σ)
    (now : Timestamp) : Interpretation := fun raw =>
  ((t.interpret now raw).run.run backend w).1

/-- The disk of a live watch, as long as nothing happens on it, is such a storage. -/
theorem Interpreter.onDisk_eq_still (t : Interpreter) (d : Disk) :
    t.onDisk d = t.still (OnDisk.backend t.root) ⟨d, 0⟩ d.now := rfl

/-- The event that an interpretation comes to, without its time. -/
def event? : Except SyncError (Option ChangeEvent) → Option ChangeEvent
  | .ok event => event.map ChangeEvent.undated
  | .error _ => none

/-- The error that an interpretation comes to. -/
def error? : Except SyncError (Option ChangeEvent) → Option SyncError
  | .ok _ => none
  | .error x => some x

/-- The events that notifications come to, without their times: those of the raw events. -/
def eventsOf (t : Interpretation) (notifications : List Notification) : List ChangeEvent :=
  notifications.filterMap fun
    | .ok raw => event? (t raw)
    | .error _ => none

/-- The errors that notifications come to: those of the interpretation of raw events, and those of
the source. -/
def errorsOf (t : Interpretation) (notifications : List Notification) : List SyncError :=
  notifications.filterMap fun
    | .ok raw => error? (t raw)
    | .error message => some (.notification message)

theorem eventsOf_append (t : Interpretation) (ns ms : List Notification) :
    eventsOf t (ns ++ ms) = eventsOf t ns ++ eventsOf t ms :=
  List.filterMap_append

theorem errorsOf_append (t : Interpretation) (ns ms : List Notification) :
    errorsOf t (ns ++ ms) = errorsOf t ns ++ errorsOf t ms :=
  List.filterMap_append

theorem eventsOf_singleton (t : Interpretation) (n : Notification) :
    eventsOf t [n] = (event? (t.ofNotification n)).toList := by
  cases n with
  | ok raw => cases h : event? (t raw) <;> simp [eventsOf, Interpretation.ofNotification, h]
  | error message => rfl

theorem errorsOf_singleton (t : Interpretation) (n : Notification) :
    errorsOf t [n] = (error? (t.ofNotification n)).toList := by
  cases n with
  | ok raw => cases h : error? (t raw) <;> simp [errorsOf, Interpretation.ofNotification, h]
  | error message => rfl

/-- Interpretations that depend on the time only as far as events have a time. -/
structure Steady (t : Timestamp → Interpretation) : Prop where
  event?_eq : ∀ now now' raw, event? (t now raw) = event? (t now' raw)
  error?_eq : ∀ now now' raw, error? (t now raw) = error? (t now' raw)

section Steady

variable {t : Timestamp → Interpretation} (ht : Steady t) (now now' : Timestamp)
  (notifications : List Notification)

include ht

theorem Steady.eventsOf_eq : eventsOf (t now) notifications = eventsOf (t now') notifications := by
  refine List.filterMap_congr fun n _ => ?_
  cases n with
  | ok raw => exact ht.event?_eq now now' raw
  | error message => rfl

theorem Steady.errorsOf_eq : errorsOf (t now) notifications = errorsOf (t now') notifications := by
  refine List.filterMap_congr fun n _ => ?_
  cases n with
  | ok raw => exact ht.error?_eq now now' raw
  | error message => rfl

end Steady

namespace Interpreter

theorem undated_removal? (t : Interpreter) (now now' : Timestamp) (canonical : String) :
    (t.removal? now canonical).map ChangeEvent.undated =
      (t.removal? now' canonical).map ChangeEvent.undated := by
  unfold removal?
  split <;> rfl

/-- On a storage that stays as it is, all that the time is used for is the time of the event. -/
theorem steady_still {σ R W : Type} (t : Interpreter) (backend : Backend σ R W) (w : World σ) :
    Steady (t.still backend w) := by
  have hsame : ∀ now now' raw, event? (t.still backend w now raw) =
      event? (t.still backend w now' raw) ∧
      error? (t.still backend w now raw) = error? (t.still backend w now' raw) := by
    intro now now' raw
    unfold still interpret
    cases NativePath.below? raw.path t.root with
    | none => simp only [Attempt.run_pure, and_self]
    | some below =>
      cases changeOf raw.mask with
      | nothing => simp only [Attempt.run_pure, and_self]
      | removed =>
        simp only [Attempt.run_pure, event?, error?, and_true]
        exact t.undated_removal? now now' _
      | seen type =>
        -- The look at the storage is the only call, and the time is not used before its reply.
        simp only [confirm, Attempt.run_bind, Attempt.run_lift]
        cases ((stat below).run.run backend w).1 with
        | ok md =>
          dsimp only
          split <;> simp only [Attempt.run_pure, event?, error?, and_true]
          rfl
        | error x =>
          dsimp only
          split
          · split <;> simp only [Attempt.run_pure, event?, error?, and_true]
            exact t.undated_removal? now now' _
          · split
            · simp only [Attempt.run_pure, and_self]
            · simp only [Attempt.run_throw, and_self]
  exact ⟨fun now now' raw => (hsame now now' raw).1, fun now now' raw => (hsame now now' raw).2⟩

end Interpreter

/-! ## All that has happened -/

/-- What the task of a pipeline has in its hand. -/
def Task.held : Task → List ChangeEvent
  | .sending event => [event]
  | _ => []

/-- The task is done with interpreting, or never has anything to interpret. -/
def Task.IsIdle (task : Task) : Prop :=
  task ≠ .receiving ∧ ∀ e, task ≠ .sending e

/-- A pipeline with what its buffer has accepted, and what its consumer has received. -/
structure Delivery where
  pipeline : Pipeline
  accepted : List Notification := []
  events : List ChangeEvent := []
  errors : List SyncError := []

namespace Pipeline

/-! ## What a step does -/

variable {p p' : Pipeline}

theorem of_notify? {n : Notification} (h : p.notify? n = some p') :
    ∃ b, p.notifications.send? n = some b ∧ p' = { p with notifications := b } := by
  obtain ⟨b, hsend, heq⟩ := Option.map_eq_some_iff.mp h
  exact ⟨b, hsend, heq.symm⟩

theorem of_unregister? (h : p.unregister? = some p') :
    p.notifications.isOpen = true ∧ p' = { p with notifications := p.notifications.close } := by
  unfold unregister? at h
  split at h
  · next hopen =>
    cases h
    rw [Bool.and_eq_true] at hopen
    exact ⟨hopen.2, rfl⟩
  · cases h

theorem unregister?_of_done (hdone : p.session.done = true)
    (hopen : p.notifications.isOpen = true) :
    p.unregister? = some { p with notifications := p.notifications.close } := by
  simp [unregister?, hdone, hopen]

theorem of_heedEnd? (h : p.heedEnd? = some p') :
    p.task = .resting ∧ p' = { p with task := .releasing } ∨
      p.task = .receiving ∧
        p' = { p with draining := true, session := p.session.setState .draining } := by
  unfold heedEnd? at h
  split at h
  · split at h
    · next htask =>
      cases h
      exact Or.inl ⟨htask, rfl⟩
    · next htask =>
      split at h
      · cases h
      · cases h
        exact Or.inr ⟨htask, rfl⟩
    · cases h
  · cases h

theorem of_receive? {t : Interpretation} (h : p.receive? t = some p') :
    p.task = .receiving ∧
      ((∃ n b, p.notifications.receive? = some (n, b) ∧
          p' = { p with notifications := b }.take (t.ofNotification n)) ∨
        p.notifications.isEnded = true ∧ p' = { p with task := .releasing }) := by
  unfold receive? at h
  split at h
  · next htask =>
    refine ⟨htask, ?_⟩
    split at h
    · next n b hreceive =>
      cases h
      exact Or.inl ⟨n, b, hreceive, rfl⟩
    · split at h
      · next hended =>
        cases h
        exact Or.inr ⟨hended, rfl⟩
      · cases h
  · cases h

/-- While the consumer is there, an event that is sent is accepted. -/
theorem of_send? (hkept : p.session.hasConsumer = true) (h : p.send? = some p') :
    ∃ e, p.task = .sending e ∧
      p' = { p with
        session := { p.session with events := p.session.events ++ [e] }
        task := .receiving } := by
  unfold send? Session.sendEvent at h
  split at h
  · next e htask =>
    refine ⟨e, htask, ?_⟩
    rw [if_neg (by simp [hkept])] at h
    split at h
    · next hsent =>
      split at hsent <;> cases hsent
      cases h
      rfl
    · next hsent => split at hsent <;> cases hsent
    · cases h
  · cases h

theorem receive?_of_receive? {t : Interpretation} {n : Notification} {b : Buffer Notification}
    (htask : p.task = .receiving) (h : p.notifications.receive? = some (n, b)) :
    p.receive? t = some ({ p with notifications := b }.take (t.ofNotification n)) := by
  unfold receive?
  rw [htask, h]

theorem receive?_of_isEnded {t : Interpretation} (htask : p.task = .receiving)
    (h : p.notifications.isEnded = true) :
    p.receive? t = some { p with task := .releasing } := by
  have hnone : p.notifications.receive? = none := by
    unfold Buffer.isEnded at h
    rw [Bool.and_eq_true, List.isEmpty_iff] at h
    unfold Buffer.receive?
    rw [h.1]
  unfold receive?
  rw [htask, hnone]
  simp only [h, if_true]

theorem send?_of_room {e : ChangeEvent} (htask : p.task = .sending e)
    (hkept : p.session.hasConsumer = true) (hroom : p.session.events.length < p.session.capacity) :
    p.send? = some { p with
      session := { p.session with events := p.session.events ++ [e] }
      task := .receiving } := by
  simp only [send?, htask, Session.sendEvent]
  rw [if_neg (by simp [hkept]), if_pos hroom]

theorem of_release? (h : p.release? = some p') :
    p.task = .releasing ∧ p' = { p with task := .closing } := by
  unfold release? at h
  split at h
  · next htask =>
    cases h
    exact ⟨htask, rfl⟩
  · cases h

theorem of_close? (h : p.close? = some p') :
    p.task = .closing ∧ p' = { p with session := p.session.finish, task := .finished } := by
  unfold close? at h
  split at h
  · next htask =>
    cases h
    exact ⟨htask, rfl⟩
  · cases h

end Pipeline

namespace Session

variable {s s' : Session}

theorem of_nextEvent {e : ChangeEvent} (h : s.nextEvent = (.ready e, s')) :
    s.events = e :: s'.events ∧ s' = { s with events := s'.events } := by
  unfold nextEvent at h
  split at h
  · next hevents =>
    cases h
    exact ⟨hevents, rfl⟩
  · unfold whenEmpty at h
    split at h <;> cases h

theorem of_nextError {x : SyncError} (h : s.nextError = (.ready x, s')) :
    s.errors = x :: s'.errors ∧ s' = { s with errors := s'.errors } := by
  unfold nextError at h
  split at h
  · next herrors =>
    cases h
    exact ⟨herrors, rfl⟩
  · unfold whenEmpty at h
    split at h <;> cases h

theorem of_next {errorFirst : Bool} {r : Except SyncError ChangeEvent}
    (h : s.next errorFirst = (.ready r, s')) :
    (∃ e, r = .ok e ∧ s.events = e :: s'.events ∧ s' = { s with events := s'.events }) ∨
      ∃ x, r = .error x ∧ s.errors = x :: s'.errors ∧ s' = { s with errors := s'.errors } := by
  unfold next at h
  split at h
  · unfold whenEmpty at h
    split at h <;> cases h
  · next e rest hevents herrors =>
    cases h
    exact Or.inl ⟨e, rfl, hevents, rfl⟩
  · next x rest hevents herrors =>
    cases h
    exact Or.inr ⟨x, rfl, herrors, rfl⟩
  · next e events x errors hevents herrors =>
    split at h
    · cases h
      exact Or.inr ⟨x, rfl, herrors, rfl⟩
    · cases h
      exact Or.inl ⟨e, rfl, hevents, rfl⟩

end Session

namespace Delivery

variable {t : Timestamp → Interpretation} {s s' : Delivery}

/-- All events that were sent to the consumer: those it has received, and those that are queued. -/
def sentEvents (s : Delivery) : List ChangeEvent :=
  s.events ++ s.pipeline.session.events

def sentErrors (s : Delivery) : List SyncError :=
  s.errors ++ s.pipeline.session.errors

/-- What the consumer does: it takes something, or asks for the end. It does not go away. -/
inductive Consumes (s : Delivery) : Delivery → Prop
  | takeEvent {e : ChangeEvent} {session : Session}
      (h : s.pipeline.session.nextEvent = (.ready e, session)) :
      Consumes s { s with pipeline := { s.pipeline with session }, events := s.events ++ [e] }
  | takeError {x : SyncError} {session : Session}
      (h : s.pipeline.session.nextError = (.ready x, session)) :
      Consumes s { s with pipeline := { s.pipeline with session }, errors := s.errors ++ [x] }
  | nextIsEvent {errorFirst : Bool} {e : ChangeEvent} {session : Session}
      (h : s.pipeline.session.next errorFirst = (.ready (.ok e), session)) :
      Consumes s { s with pipeline := { s.pipeline with session }, events := s.events ++ [e] }
  | nextIsError {errorFirst : Bool} {x : SyncError} {session : Session}
      (h : s.pipeline.session.next errorFirst = (.ready (.error x), session)) :
      Consumes s { s with pipeline := { s.pipeline with session }, errors := s.errors ++ [x] }
  | close : Consumes s
      { s with pipeline := { s.pipeline with session := s.pipeline.session.close } }

/-- One step of one of the parties: the source, grower and drainer of the buffer, the task, which
looks at the storage at some time, the one that unregisters, and the consumer. -/
inductive Step (t : Timestamp → Interpretation) (s : Delivery) : Delivery → Prop
  | notify {n : Notification} {p : Pipeline} (h : s.pipeline.notify? n = some p) :
      Step t s { s with pipeline := p, accepted := s.accepted ++ [n] }
  | unregister {p : Pipeline} (h : s.pipeline.unregister? = some p) :
      Step t s { s with pipeline := p }
  | buffer {b : Buffer Notification} (h : s.pipeline.notifications.Moves b) :
      Step t s { s with pipeline := { s.pipeline with notifications := b } }
  | heedEnd {p : Pipeline} (h : s.pipeline.heedEnd? = some p) : Step t s { s with pipeline := p }
  | receive {p : Pipeline} (now : Timestamp) (h : s.pipeline.receive? (t now) = some p) :
      Step t s { s with pipeline := p }
  | send {p : Pipeline} (h : s.pipeline.send? = some p) : Step t s { s with pipeline := p }
  | release {p : Pipeline} (h : s.pipeline.release? = some p) : Step t s { s with pipeline := p }
  | finish {p : Pipeline} (h : s.pipeline.close? = some p) : Step t s { s with pipeline := p }
  | consume {s' : Delivery} (h : s.Consumes s') : Step t s s'

/-- What the consumer takes it has received, and nothing else happens but that it may ask for the
end. -/
theorem of_consumes (h : s.Consumes s') :
    (∃ e session, s.pipeline.session.events = e :: session.events ∧
      session = { s.pipeline.session with events := session.events } ∧
      s' = { s with pipeline := { s.pipeline with session }, events := s.events ++ [e] }) ∨
    (∃ x session, s.pipeline.session.errors = x :: session.errors ∧
      session = { s.pipeline.session with errors := session.errors } ∧
      s' = { s with pipeline := { s.pipeline with session }, errors := s.errors ++ [x] }) ∨
    s' = { s with pipeline := { s.pipeline with session := s.pipeline.session.close } } := by
  cases h with
  | takeEvent h => exact Or.inl ⟨_, _, (Session.of_nextEvent h).1, (Session.of_nextEvent h).2, rfl⟩
  | takeError h =>
    exact Or.inr (Or.inl ⟨_, _, (Session.of_nextError h).1, (Session.of_nextError h).2, rfl⟩)
  | nextIsEvent h =>
    obtain ⟨e, heq, hevents, hsession⟩ | ⟨x, heq, -, -⟩ := Session.of_next h
    · cases heq
      exact Or.inl ⟨_, _, hevents, hsession, rfl⟩
    · cases heq
  | nextIsError h =>
    obtain ⟨e, heq, -, -⟩ | ⟨x, heq, herrors, hsession⟩ := Session.of_next h
    · cases heq
    · cases heq
      exact Or.inr (Or.inl ⟨_, _, herrors, hsession, rfl⟩)
  | close => exact Or.inr (Or.inr rfl)

/-! ## Nothing is lost -/

/-- Every notification is accounted for, and the session is closed last. -/
structure Faithful (t : Interpretation) (s : Delivery) : Prop where
  consistent : s.pipeline.notifications.Consistent
  capacity_pos : 0 < s.pipeline.session.capacity
  kept : s.pipeline.session.hasConsumer = true
  /-- What was taken out of the buffer has been sent, or is in the hand of the task. -/
  accounted : ∃ taken, taken ++ s.pipeline.notifications.toList = s.accepted ∧
    (s.sentEvents ++ s.pipeline.task.held).map ChangeEvent.undated = eventsOf t taken ∧
    s.sentErrors = errorsOf t taken
  emptied : s.pipeline.task.IsIdle →
    s.pipeline.notifications.toList = [] ∧ s.pipeline.notifications.isOpen = false
  closed_iff : s.pipeline.session.state = .closed ↔ s.pipeline.task = .finished
  given_up_iff : s.pipeline.session.hasProducer = false ↔ s.pipeline.task = .finished

namespace Faithful

variable {t : Interpretation} {now : Timestamp}

theorem resting (eventCapacity : Nat) : Faithful t ⟨.resting eventCapacity, [], [], []⟩ where
  consistent := (Buffer.Consistent.empty 0).close
  capacity_pos := by
    show 0 < max eventCapacity 1
    omega
  kept := rfl
  accounted := ⟨[], rfl, rfl, rfl⟩
  emptied := fun _ => ⟨rfl, rfl⟩
  closed_iff := by simp [Pipeline.resting, Session.channel]
  given_up_iff := by simp [Pipeline.resting, Session.channel]

theorem subscribed (bufferCapacity eventCapacity : Nat) :
    Faithful t ⟨.subscribed bufferCapacity eventCapacity, [], [], []⟩ where
  consistent := .empty bufferCapacity
  capacity_pos := by
    show 0 < max eventCapacity 1
    omega
  kept := rfl
  accounted := ⟨[], rfl, rfl, rfl⟩
  emptied := fun hidle => absurd rfl hidle.1
  closed_iff := by simp [Pipeline.subscribed, Session.channel, Session.setState]
  given_up_iff := by simp [Pipeline.subscribed, Session.channel, Session.setState]

theorem notify (hf : Faithful t s) {n : Notification} {p : Pipeline}
    (h : s.pipeline.notify? n = some p) :
    Faithful t { s with pipeline := p, accepted := s.accepted ++ [n] } := by
  obtain ⟨b, hsend, rfl⟩ := Pipeline.of_notify? h
  obtain ⟨taken, hlist, hevents, herrors⟩ := hf.accounted
  refine ⟨hf.consistent.send hsend, hf.capacity_pos, hf.kept, ⟨taken, ?_, hevents, herrors⟩, ?_,
    hf.closed_iff, hf.given_up_iff⟩
  · rw [Buffer.toList_send? hsend, ← List.append_assoc, hlist]
  · -- Once the task is idle the input is closed.
    intro hidle
    have hopen := (Buffer.of_send? hsend).1
    rw [(hf.emptied hidle).2] at hopen
    cases hopen

theorem unregister (hf : Faithful t s) {p : Pipeline} (h : s.pipeline.unregister? = some p) :
    Faithful t { s with pipeline := p } := by
  obtain ⟨-, rfl⟩ := Pipeline.of_unregister? h
  exact ⟨hf.consistent.close, hf.capacity_pos, hf.kept, hf.accounted,
    fun hidle => ⟨(hf.emptied hidle).1, rfl⟩, hf.closed_iff, hf.given_up_iff⟩

theorem buffer (hf : Faithful t s) {b : Buffer Notification}
    (h : s.pipeline.notifications.Moves b) :
    Faithful t { s with pipeline := { s.pipeline with notifications := b } } := by
  obtain ⟨taken, hlist, hevents, herrors⟩ := hf.accounted
  refine ⟨hf.consistent.moves h, hf.capacity_pos, hf.kept, ⟨taken, ?_, hevents, herrors⟩, ?_,
    hf.closed_iff, hf.given_up_iff⟩
  · rw [h.toList_eq, hlist]
  · intro hidle
    rw [h.toList_eq, h.unchanged.1]
    exact hf.emptied hidle

theorem heedEnd (hf : Faithful t s) {p : Pipeline} (h : s.pipeline.heedEnd? = some p) :
    Faithful t { s with pipeline := p } := by
  obtain ⟨htask, rfl⟩ | ⟨htask, rfl⟩ := Pipeline.of_heedEnd? h
  all_goals
    have haccounted := hf.accounted
    have hclosed := hf.closed_iff
    have hgiven := hf.given_up_iff
    simp only [htask, Task.held, reduceCtorEq, iff_false] at haccounted hclosed hgiven
  · exact ⟨hf.consistent, hf.capacity_pos, hf.kept, haccounted,
      fun _ => hf.emptied ⟨by simp [htask], by simp [htask]⟩, by simpa using hclosed,
      by simpa using hgiven⟩
  · refine ⟨hf.consistent, hf.capacity_pos, hf.kept, ?_, fun hidle => absurd htask hidle.1, ?_, ?_⟩
    · simp only [htask, Task.held]
      exact haccounted
    · simp [htask, Session.setState]
    · simpa [htask, Session.setState] using hgiven

/-- A notification that is taken comes to an event in the hand of the task, to nothing, or to an
error that is sent. -/
theorem take (hf : Faithful t s) {n : Notification} {b : Buffer Notification}
    {outcome : Except SyncError (Option ChangeEvent)} (htask : s.pipeline.task = .receiving)
    (hreceive : s.pipeline.notifications.receive? = some (n, b))
    (hevent : eventsOf t [n] = (event? outcome).toList)
    (herror : errorsOf t [n] = (error? outcome).toList) :
    Faithful t
      { s with pipeline := { s.pipeline with notifications := b }.take outcome } := by
  obtain ⟨taken, hlist, hevents, herrors⟩ := hf.accounted
  have hclosed := hf.closed_iff
  have hgiven := hf.given_up_iff
  simp only [htask, Task.held, List.append_nil, reduceCtorEq, iff_false] at hevents hclosed hgiven
  have hconsistent := hf.consistent.receive hreceive
  have hlist' : (taken ++ [n]) ++ b.toList = s.accepted := by
    rw [← hlist, Buffer.toList_receive? hreceive, List.append_assoc, List.singleton_append]
  have hevents' : eventsOf t (taken ++ [n]) =
      s.sentEvents.map ChangeEvent.undated ++ (event? outcome).toList := by
    rw [eventsOf_append, hevent, hevents]
  have herrors' : errorsOf t (taken ++ [n]) = s.sentErrors ++ (error? outcome).toList := by
    rw [errorsOf_append, herror, herrors]
  match outcome with
  | .ok (some e) =>
    refine ⟨hconsistent, hf.capacity_pos, hf.kept, ⟨taken ++ [n], hlist', ?_, ?_⟩,
      fun hidle => absurd rfl (hidle.2 e), by simpa [Pipeline.take] using hclosed,
      by simpa [Pipeline.take] using hgiven⟩
    · rw [hevents']
      simp [Pipeline.take, Task.held, sentEvents, event?]
    · rw [herrors']
      simp [Pipeline.take, sentErrors, error?]
  | .ok none =>
    refine ⟨hconsistent, hf.capacity_pos, hf.kept, ⟨taken ++ [n], hlist', ?_, ?_⟩,
      fun hidle => absurd htask hidle.1, hf.closed_iff, hf.given_up_iff⟩
    · rw [hevents']
      simp [Pipeline.take, htask, Task.held, sentEvents, event?]
    · rw [herrors']
      simp [Pipeline.take, sentErrors, error?]
  | .error x =>
    have hsession : (s.pipeline.session.sendError x).2 =
        { s.pipeline.session with errors := s.pipeline.session.errors ++ [x] } := by
      unfold Session.sendError
      rw [if_neg (by simp [hf.kept])]
    unfold Pipeline.take
    simp only [hsession]
    refine ⟨hconsistent, hf.capacity_pos, hf.kept, ⟨taken ++ [n], hlist', ?_, ?_⟩,
      fun hidle => absurd htask hidle.1, hf.closed_iff, hf.given_up_iff⟩
    · rw [hevents']
      simp [htask, Task.held, sentEvents, event?]
    · rw [herrors']
      simp [sentErrors, error?]

/-- The end of the buffer is the end of the interpretation. -/
theorem ended (hf : Faithful t s) (htask : s.pipeline.task = .receiving)
    (hended : s.pipeline.notifications.isEnded = true) :
    Faithful t { s with pipeline := { s.pipeline with task := .releasing } } := by
  have haccounted := hf.accounted
  have hclosed := hf.closed_iff
  have hgiven := hf.given_up_iff
  simp only [htask, Task.held, reduceCtorEq, iff_false] at haccounted hclosed hgiven
  have hempty := hf.consistent.of_isEnded hended
  exact ⟨hf.consistent, hf.capacity_pos, hf.kept, haccounted, fun _ => ⟨hempty.2, hempty.1⟩,
    by simpa using hclosed, by simpa using hgiven⟩

theorem send (hf : Faithful t s) {p : Pipeline} (h : s.pipeline.send? = some p) :
    Faithful t { s with pipeline := p } := by
  obtain ⟨e, htask, rfl⟩ := Pipeline.of_send? hf.kept h
  obtain ⟨taken, hlist, hevents, herrors⟩ := hf.accounted
  have hclosed := hf.closed_iff
  have hgiven := hf.given_up_iff
  simp only [htask, Task.held, reduceCtorEq, iff_false] at hevents hclosed hgiven
  refine ⟨hf.consistent, hf.capacity_pos, hf.kept, ⟨taken, hlist, ?_, herrors⟩,
    fun hidle => absurd rfl hidle.1, by simpa using hclosed, by simpa using hgiven⟩
  rw [← hevents]
  simp [sentEvents, Task.held]

/-- Freeing the path and closing the session: the task stays idle. -/
theorem release (hf : Faithful t s) {p : Pipeline} (h : s.pipeline.release? = some p) :
    Faithful t { s with pipeline := p } := by
  obtain ⟨htask, rfl⟩ := Pipeline.of_release? h
  have haccounted := hf.accounted
  have hclosed := hf.closed_iff
  have hgiven := hf.given_up_iff
  simp only [htask, Task.held, reduceCtorEq, iff_false] at haccounted hclosed hgiven
  exact ⟨hf.consistent, hf.capacity_pos, hf.kept, haccounted,
    fun _ => hf.emptied ⟨by simp [htask], by simp [htask]⟩, by simpa using hclosed,
    by simpa using hgiven⟩

theorem finish (hf : Faithful t s) {p : Pipeline} (h : s.pipeline.close? = some p) :
    Faithful t { s with pipeline := p } := by
  obtain ⟨htask, rfl⟩ := Pipeline.of_close? h
  have haccounted := hf.accounted
  simp only [htask, Task.held] at haccounted
  exact ⟨hf.consistent, hf.capacity_pos, hf.kept, haccounted,
    fun _ => hf.emptied ⟨by simp [htask], by simp [htask]⟩,
    by simp [Session.finish, Session.setState],
    by simp [Session.finish, Session.setState, Session.dropProducer]⟩

theorem consume (hf : Faithful t s) (h : s.Consumes s') :
    Faithful t s' := by
  obtain ⟨taken, hlist, hevents, herrors⟩ := hf.accounted
  obtain ⟨e, session, hqueue, hsession, rfl⟩ | ⟨x, session, hqueue, hsession, rfl⟩ | rfl :=
    of_consumes h
  · refine ⟨hf.consistent, ?_, ?_, ⟨taken, hlist, ?_, ?_⟩, hf.emptied, ?_, ?_⟩
    · rw [hsession]
      exact hf.capacity_pos
    · rw [hsession]
      exact hf.kept
    · rw [← hevents]
      simp [sentEvents, hqueue]
    · rw [← herrors, sentErrors, sentErrors, hsession]
    · rw [hsession]
      exact hf.closed_iff
    · rw [hsession]
      exact hf.given_up_iff
  · refine ⟨hf.consistent, ?_, ?_, ⟨taken, hlist, ?_, ?_⟩, hf.emptied, ?_, ?_⟩
    · rw [hsession]
      exact hf.capacity_pos
    · rw [hsession]
      exact hf.kept
    · rw [← hevents, sentEvents, sentEvents, hsession]
    · rw [← herrors]
      simp [sentErrors, hqueue]
    · rw [hsession]
      exact hf.closed_iff
    · rw [hsession]
      exact hf.given_up_iff
  · exact ⟨hf.consistent, hf.capacity_pos, hf.kept, ⟨taken, hlist, hevents, herrors⟩, hf.emptied,
      hf.closed_iff, hf.given_up_iff⟩

theorem step {t : Timestamp → Interpretation} (ht : Steady t) {now : Timestamp}
    (hf : Faithful (t now) s) (h : Step t s s') : Faithful (t now) s' := by
  cases h with
  | notify h => exact hf.notify h
  | unregister h => exact hf.unregister h
  | buffer h => exact hf.buffer h
  | heedEnd h => exact hf.heedEnd h
  | receive now' h =>
    obtain ⟨htask, ⟨n, b, hreceive, rfl⟩ | ⟨hended, rfl⟩⟩ := Pipeline.of_receive? h
    · -- Whenever the notification is interpreted, it comes to the same.
      refine hf.take htask hreceive ?_ ?_
      · rw [ht.eventsOf_eq now now', eventsOf_singleton]
      · rw [ht.errorsOf_eq now now', errorsOf_singleton]
    · exact hf.ended htask hended
  | send h => exact hf.send h
  | release h => exact hf.release h
  | finish h => exact hf.finish h
  | consume h => exact hf.consume h

theorem steps {t : Timestamp → Interpretation} (ht : Steady t) {now : Timestamp}
    (hf : Faithful (t now) s) (h : ReflTransGen (Step t) s s') : Faithful (t now) s' := by
  induction h with
  | refl => exact hf
  | tail _ hstep ih => exact ih.step ht hstep

end Faithful

/-! ## States go forward -/

section Forward

variable {t : Timestamp → Interpretation} {now : Timestamp}

/-- A later state of a session: it has not gone back, and once it has been given up nothing more
has been sent. -/
structure Later (s s' : Delivery) : Prop where
  rank_le : s.pipeline.session.state.rank ≤ s'.pipeline.session.state.rank
  still_given_up : s.pipeline.session.hasProducer = false →
    s'.pipeline.session.hasProducer = false ∧ s'.sentEvents = s.sentEvents ∧
      s'.sentErrors = s.sentErrors

theorem Later.refl (s : Delivery) : Later s s :=
  ⟨Nat.le_refl _, fun hgiven => ⟨hgiven, rfl, rfl⟩⟩

theorem Later.trans {s'' : Delivery} (h : Later s s') (h' : Later s' s'') : Later s s'' where
  rank_le := Nat.le_trans h.rank_le h'.rank_le
  still_given_up := by
    intro hgiven
    obtain ⟨hgiven', hevents, herrors⟩ := h.still_given_up hgiven
    obtain ⟨hgiven'', hevents', herrors'⟩ := h'.still_given_up hgiven'
    exact ⟨hgiven'', hevents'.trans hevents, herrors'.trans herrors⟩

/-- A step of the task before it is finished, when the session has not been given up. -/
theorem Faithful.later {u : Interpretation} (hf : Faithful u s)
    (htask : s.pipeline.task ≠ .finished)
    (hrank : s.pipeline.session.state.rank ≤ s'.pipeline.session.state.rank) : Later s s' :=
  ⟨hrank, fun hgiven => absurd (hf.given_up_iff.mp hgiven) htask⟩

theorem Faithful.later_step {u : Interpretation} (hf : Faithful u s) (h : Step t s s') :
    Later s s' := by
  cases h with
  | notify h =>
    obtain ⟨b, -, rfl⟩ := Pipeline.of_notify? h
    exact ⟨Nat.le_refl _, fun hgiven => ⟨hgiven, rfl, rfl⟩⟩
  | unregister h =>
    obtain ⟨-, rfl⟩ := Pipeline.of_unregister? h
    exact ⟨Nat.le_refl _, fun hgiven => ⟨hgiven, rfl, rfl⟩⟩
  | buffer h => exact ⟨Nat.le_refl _, fun hgiven => ⟨hgiven, rfl, rfl⟩⟩
  | heedEnd h =>
    obtain ⟨htask, rfl⟩ | ⟨htask, rfl⟩ := Pipeline.of_heedEnd? h
    · exact hf.later (by simp [htask]) (Nat.le_refl _)
    · -- The state was not the last one, and the one before that is published.
      have hclosed := hf.closed_iff
      simp only [htask, reduceCtorEq, iff_false] at hclosed
      refine hf.later (by simp [htask]) ?_
      cases hstate : s.pipeline.session.state with
      | closed => exact absurd hstate hclosed
      | _ => simp [Session.setState, WatchState.rank]
  | receive now' h =>
    obtain ⟨htask, ⟨n, b, -, rfl⟩ | ⟨-, rfl⟩⟩ := Pipeline.of_receive? h
    · refine hf.later (by simp [htask]) (Nat.le_of_eq ?_)
      match (t now').ofNotification n with
      | .ok (some _) => rfl
      | .ok none => rfl
      | .error x =>
        simp only [Pipeline.take, Session.sendError]
        split <;> rfl
    · exact hf.later (by simp [htask]) (Nat.le_refl _)
  | send h =>
    obtain ⟨e, htask, rfl⟩ := Pipeline.of_send? hf.kept h
    exact hf.later (by simp [htask]) (Nat.le_refl _)
  | release h =>
    obtain ⟨htask, rfl⟩ := Pipeline.of_release? h
    exact hf.later (by simp [htask]) (Nat.le_refl _)
  | finish h =>
    obtain ⟨htask, rfl⟩ := Pipeline.of_close? h
    refine hf.later (by simp [htask]) ?_
    cases s.pipeline.session.state <;> simp [Session.finish, Session.setState, WatchState.rank]
  | consume h =>
    obtain ⟨e, session, hqueue, hsession, rfl⟩ | ⟨x, session, hqueue, hsession, rfl⟩ | rfl :=
      of_consumes h
    · rw [hsession]
      exact ⟨Nat.le_refl _, fun hgiven => ⟨hgiven, by simp [sentEvents, hqueue], rfl⟩⟩
    · rw [hsession]
      exact ⟨Nat.le_refl _, fun hgiven => ⟨hgiven, rfl, by simp [sentErrors, hqueue]⟩⟩
    · exact ⟨Nat.le_refl _, fun hgiven => ⟨hgiven, rfl, rfl⟩⟩

theorem Faithful.later_steps (ht : Steady t) (hf : Faithful (t now) s)
    (h : ReflTransGen (Step t) s s') : Later s s' := by
  induction h with
  | refl => exact .refl s
  | tail hsteps hstep ih => exact ih.trans ((hf.steps ht hsteps).later_step hstep)

end Forward

/-! ## The end can be reached -/

section Progress

variable {t : Timestamp → Interpretation} {now : Timestamp}

/-- A later state in which the source has said nothing more. -/
def Onward (t : Timestamp → Interpretation) (s s' : Delivery) : Prop :=
  ReflTransGen (Step t) s s' ∧ s'.accepted = s.accepted

theorem Onward.refl (s : Delivery) : Onward t s s :=
  ⟨.refl, rfl⟩

theorem Onward.trans {s'' : Delivery} (h : Onward t s s') (h' : Onward t s' s'') :
    Onward t s s'' :=
  ⟨h.1.trans h'.1, h'.2.trans h.2⟩

/-- A step of the pipeline itself. -/
theorem Onward.single {p : Pipeline} (h : Step t s { s with pipeline := p }) :
    Onward t s { s with pipeline := p } :=
  ⟨.single h, rfl⟩

theorem Onward.consume (h : s.Consumes s') (haccepted : s'.accepted = s.accepted) :
    Onward t s s' :=
  ⟨.single (.consume h), haccepted⟩

theorem consumes_event {e : ChangeEvent} {rest : List ChangeEvent}
    (h : s.pipeline.session.events = e :: rest) :
    s.Consumes { s with
      pipeline := { s.pipeline with session := { s.pipeline.session with events := rest } }
      events := s.events ++ [e] } := by
  refine .takeEvent ?_
  unfold Session.nextEvent
  rw [h]

theorem consumes_error {x : SyncError} {rest : List SyncError}
    (h : s.pipeline.session.errors = x :: rest) :
    s.Consumes { s with
      pipeline := { s.pipeline with session := { s.pipeline.session with errors := rest } }
      errors := s.errors ++ [x] } := by
  refine .takeError ?_
  unfold Session.nextError
  rw [h]

theorem onward_moves {b : Buffer Notification}
    (hmoves : ReflTransGen Buffer.Moves s.pipeline.notifications b) :
    Onward t s { s with pipeline := { s.pipeline with notifications := b } } ∧
    b.toList = s.pipeline.notifications.toList ∧ b.isOpen = s.pipeline.notifications.isOpen := by
  induction hmoves with
  | refl => exact ⟨.refl s, rfl, rfl⟩
  | tail _ hmove ih =>
    obtain ⟨honward, hlist, hopen⟩ := ih
    exact ⟨honward.trans (.single (.buffer hmove)), hmove.toList_eq.trans hlist,
      hmove.unchanged.1.trans hopen⟩

/-- The consumer takes all that is queued. -/
theorem exists_onward_emptied (s : Delivery) : ∃ s', Onward t s s' ∧
    s'.pipeline.task = s.pipeline.task ∧
    s'.pipeline.notifications = s.pipeline.notifications ∧
    s'.pipeline.session.events = [] ∧ s'.pipeline.session.errors = [] := by
  induction hn : s.pipeline.session.events.length + s.pipeline.session.errors.length
    using Nat.strongRecOn generalizing s with
  | ind n ih =>
    subst hn
    cases hevents : s.pipeline.session.events with
    | cons e rest =>
      have htaken := Onward.consume (t := t) (consumes_event hevents) rfl
      refine (ih _ ?_ _ rfl).imp fun s' h => ⟨htaken.trans h.1, h.2⟩
      simp [hevents]
    | nil =>
      cases herrors : s.pipeline.session.errors with
      | cons x rest =>
        have htaken := Onward.consume (t := t) (consumes_error herrors) rfl
        refine (ih _ ?_ _ rfl).imp fun s' h => ⟨htaken.trans h.1, h.2⟩
        simp [hevents, herrors]
      | nil => exact ⟨s, .refl s, rfl, rfl, hevents, herrors⟩

/-- The task gets rid of an event in its hand, for which the consumer may have to make room. -/
theorem Faithful.onward_sending (hf : Faithful (t now) s) (ht : Steady t) {e : ChangeEvent}
    (htask : s.pipeline.task = .sending e) : ∃ s', Onward t s s' ∧
      s'.pipeline.task = .receiving ∧ s'.pipeline.notifications = s.pipeline.notifications := by
  obtain ⟨s', hemptied, htask', hbuffer, hevents, -⟩ := exists_onward_emptied (t := t) s
  have hf' := hf.steps ht hemptied.1
  have hroom : s'.pipeline.session.events.length < s'.pipeline.session.capacity := by
    rw [hevents]
    exact hf'.capacity_pos
  have hsend := Pipeline.send?_of_room (htask'.trans htask) hf'.kept hroom
  exact ⟨_, hemptied.trans (.single (.send hsend)), rfl, hbuffer⟩

/-- The task deals with the next notification. -/
theorem Faithful.onward_take (hf : Faithful (t now) s) (ht : Steady t) {n : Notification}
    {b : Buffer Notification} (htask : s.pipeline.task = .receiving)
    (hreceive : s.pipeline.notifications.receive? = some (n, b)) : ∃ s', Onward t s s' ∧
      s'.pipeline.task = .receiving ∧ s'.pipeline.notifications = b := by
  have htaken : Onward t s _ :=
    .single (.receive now (Pipeline.receive?_of_receive? htask hreceive))
  have hf' := hf.steps ht htaken.1
  cases houtcome : (t now).ofNotification n with
  | error x =>
    exact ⟨_, htaken, by simpa [houtcome, Pipeline.take] using htask,
      by simp [houtcome, Pipeline.take]⟩
  | ok event =>
    cases event with
    | none =>
      exact ⟨_, htaken, by simpa [houtcome, Pipeline.take] using htask,
        by simp [houtcome, Pipeline.take]⟩
    | some e =>
      rw [houtcome] at htaken hf'
      obtain ⟨s', honward, htask', hbuffer⟩ := hf'.onward_sending ht rfl
      exact ⟨s', htaken.trans honward, htask', hbuffer⟩

/-- Once the input is closed, the task comes to the end of the buffer. -/
theorem Faithful.onward_receiving (hf : Faithful (t now) s) (ht : Steady t)
    (htask : s.pipeline.task = .receiving) (hclosed : s.pipeline.notifications.isOpen = false) :
    ∃ s', Onward t s s' ∧ s'.pipeline.task = .releasing := by
  induction hn : s.pipeline.notifications.toList.length using Nat.strongRecOn generalizing s with
  | ind n ih =>
    subst hn
    -- First everything settles, which leaves nothing inside or something in the output.
    obtain ⟨hmoves, hrest⟩ := s.pipeline.notifications.settle_spec
    obtain ⟨hsettle, hlist, hopen⟩ := onward_moves (t := t) hmoves
    have hsettled := hf.steps ht hsettle.1
    cases houtput : s.pipeline.notifications.settle.output with
    | nil =>
      have hended := (hsettled.consistent.of_internal?_eq_none hrest houtput).2
        (hopen.trans hclosed)
      exact ⟨_, hsettle.trans (.single (.receive now (Pipeline.receive?_of_isEnded htask hended))),
        rfl⟩
    | cons n rest =>
      have hreceive : s.pipeline.notifications.settle.receive? =
          some (n, { s.pipeline.notifications.settle with output := rest }) := by
        unfold Buffer.receive?
        rw [houtput]
      obtain ⟨s₁, htake, htask₁, hbuffer₁⟩ := hsettled.onward_take ht htask hreceive
      have hlength := Buffer.toList_receive? hreceive
      rw [hlist, ← hbuffer₁] at hlength
      obtain ⟨s₂, hlast, htask₂⟩ := ih s₁.pipeline.notifications.toList.length (by simp [hlength])
        (hsettled.steps ht htake.1) htask₁ (by rw [hbuffer₁]; exact hopen.trans hclosed) rfl
      exact ⟨s₂, (hsettle.trans htake).trans hlast, htask₂⟩

/-- The end of the task: the path is freed, and the session closed. -/
theorem onward_releasing (htask : s.pipeline.task = .releasing) :
    ∃ s', Onward t s s' ∧ s'.pipeline.task = .finished := by
  have hrelease : s.pipeline.release? = some { s.pipeline with task := .closing } := by
    unfold Pipeline.release?
    rw [htask]
  exact ⟨_, (Onward.single (.release hrelease)).trans (.single (.finish rfl)), rfl⟩

/-- The consumer asks for the end, and the source is unregistered. -/
theorem exists_onward_unregistered (s : Delivery) : ∃ s', Onward t s s' ∧
    s'.pipeline.task = s.pipeline.task ∧ s'.pipeline.session.done = true ∧
    s'.pipeline.notifications.isOpen = false := by
  have hasked : Onward t s _ := .consume .close rfl
  cases hopen : s.pipeline.notifications.isOpen with
  | false => exact ⟨_, hasked, rfl, rfl, hopen⟩
  | true =>
    exact ⟨_, hasked.trans (.single (.unregister (Pipeline.unregister?_of_done rfl hopen))),
      rfl, rfl, rfl⟩

/-- When the consumer asks for the end and goes on taking, the session comes to be closed, and the
consumer gets all there is. -/
theorem Faithful.exists_onward_finished (hf : Faithful (t now) s) (ht : Steady t) :
    ∃ s', Onward t s s' ∧ s'.pipeline.task = .finished ∧ s'.pipeline.session.events = [] ∧
      s'.pipeline.session.errors = [] := by
  obtain ⟨s₁, hasked, -, hdone, hopen⟩ := exists_onward_unregistered (t := t) s
  have hf₁ := hf.steps ht hasked.1
  obtain ⟨s₂, hfinished, htask₂⟩ : ∃ s₂, Onward t s₁ s₂ ∧ s₂.pipeline.task = .finished := by
    cases htask : s₁.pipeline.task with
    | resting =>
      have hheed : s₁.pipeline.heedEnd? = some { s₁.pipeline with task := .releasing } := by
        simp [Pipeline.heedEnd?, hdone, htask]
      obtain ⟨s₂, hreleased, htask₂⟩ := onward_releasing (t := t)
        (s := { s₁ with pipeline := { s₁.pipeline with task := .releasing } }) rfl
      exact ⟨s₂, (Onward.single (.heedEnd hheed)).trans hreleased, htask₂⟩
    | receiving =>
      obtain ⟨s', hreceived, htask'⟩ := hf₁.onward_receiving ht htask hopen
      obtain ⟨s₂, hreleased, htask₂⟩ := onward_releasing (t := t) htask'
      exact ⟨s₂, hreceived.trans hreleased, htask₂⟩
    | sending e =>
      obtain ⟨s', hsent, htask', hbuffer⟩ := hf₁.onward_sending ht htask
      obtain ⟨s'', hreceived, htask''⟩ :=
        (hf₁.steps ht hsent.1).onward_receiving ht htask' (hbuffer ▸ hopen)
      obtain ⟨s₂, hreleased, htask₂⟩ := onward_releasing (t := t) htask''
      exact ⟨s₂, (hsent.trans hreceived).trans hreleased, htask₂⟩
    | releasing => exact onward_releasing htask
    | closing =>
      have hclose : s₁.pipeline.close? =
          some { s₁.pipeline with session := s₁.pipeline.session.finish, task := .finished } := by
        simp [Pipeline.close?, htask]
      exact ⟨_, .single (.finish hclose), rfl⟩
    | finished => exact ⟨s₁, .refl s₁, htask⟩
  obtain ⟨s', hemptied, htask', -, hempty⟩ := exists_onward_emptied (t := t) s₂
  exact ⟨s', (hasked.trans hfinished).trans hemptied, htask'.trans htask₂, hempty⟩

end Progress

/-! ## The session as a whole -/

section Whole

variable {σ R W : Type} {i : Interpreter} {backend : Backend σ R W} {w : World σ}

/-- A watch has just started. -/
inductive IsFresh : Delivery → Prop
  | resting (eventCapacity : Nat) : IsFresh { pipeline := .resting eventCapacity }
  | subscribed (bufferCapacity eventCapacity : Nat) :
      IsFresh { pipeline := .subscribed bufferCapacity eventCapacity }

theorem IsFresh.faithful {t : Interpretation} (h : s.IsFresh) : Faithful t s := by
  cases h with
  | resting eventCapacity => exact .resting eventCapacity
  | subscribed bufferCapacity eventCapacity => exact .subscribed bufferCapacity eventCapacity

/-- What has been sent are the events and errors of the first notifications. -/
theorem Faithful.sent_prefix {t : Interpretation} (hf : Faithful t s) :
    s.sentEvents.map ChangeEvent.undated <+: eventsOf t s.accepted ∧
      s.sentErrors <+: errorsOf t s.accepted := by
  obtain ⟨taken, hlist, hevents, herrors⟩ := hf.accounted
  rw [← hlist, eventsOf_append, errorsOf_append, ← hevents, ← herrors, List.map_append,
    List.append_assoc]
  exact ⟨List.prefix_append _ _, List.prefix_append _ _⟩

/-- Once the task is finished, everything has been sent. -/
theorem Faithful.sent_all {t : Interpretation} (hf : Faithful t s)
    (htask : s.pipeline.task = .finished) :
    s.sentEvents.map ChangeEvent.undated = eventsOf t s.accepted ∧
      s.sentErrors = errorsOf t s.accepted := by
  obtain ⟨taken, hlist, hevents, herrors⟩ := hf.accounted
  have hempty := (hf.emptied ⟨by simp [htask], by simp [htask]⟩).1
  rw [hempty, List.append_nil] at hlist
  subst hlist
  simp only [htask, Task.held, List.append_nil] at hevents
  exact ⟨hevents, herrors⟩

/-- Whatever the capacities and the schedule, and whenever the end is asked for: the consumer has
received events and errors of the notifications that were accepted, each in order and without a gap;
the state goes forward, and nothing is sent once the session has been given up; and when it is
closed everything is received or queued. From every state the session can be closed and everything
be received. -/
theorem session_lossless {s₀ s : Delivery} (hfresh : s₀.IsFresh)
    (hsteps : ReflTransGen (Step (i.still backend w)) s₀ s) (now : Timestamp) :
    s.events.map ChangeEvent.undated <+: eventsOf (i.still backend w now) s.accepted ∧
    s.errors <+: errorsOf (i.still backend w now) s.accepted ∧
    (∀ s', ReflTransGen (Step (i.still backend w)) s s' →
      s.pipeline.session.state.rank ≤ s'.pipeline.session.state.rank ∧
      (s.pipeline.session.hasProducer = false →
        s'.sentEvents = s.sentEvents ∧ s'.sentErrors = s.sentErrors)) ∧
    (s.pipeline.session.state = .closed →
      s.sentEvents.map ChangeEvent.undated = eventsOf (i.still backend w now) s.accepted ∧
      s.sentErrors = errorsOf (i.still backend w now) s.accepted) ∧
    ∃ s', ReflTransGen (Step (i.still backend w)) s s' ∧ s'.accepted = s.accepted ∧
      s'.pipeline.session.state = .closed ∧
      s'.events.map ChangeEvent.undated = eventsOf (i.still backend w now) s.accepted ∧
      s'.errors = errorsOf (i.still backend w now) s.accepted := by
  have hsteady := i.steady_still backend w
  have hf : Faithful (i.still backend w now) s := hfresh.faithful.steps hsteady hsteps
  obtain ⟨hevents, herrors⟩ := hf.sent_prefix
  refine ⟨?_, ?_, fun s' hsteps' => ?_, fun hstate => hf.sent_all (hf.closed_iff.mp hstate), ?_⟩
  · refine .trans ?_ hevents
    rw [sentEvents, List.map_append]
    exact List.prefix_append _ _
  · exact (List.prefix_append _ _).trans herrors
  · have hlater := hf.later_steps hsteady hsteps'
    exact ⟨hlater.rank_le, fun hgiven => (hlater.still_given_up hgiven).2⟩
  · obtain ⟨s', honward, htask, hnoEvents, hnoErrors⟩ := hf.exists_onward_finished hsteady
    have hf' := hf.steps hsteady honward.1
    obtain ⟨hevents', herrors'⟩ := hf'.sent_all htask
    rw [sentEvents, hnoEvents, List.append_nil, honward.2] at hevents'
    rw [sentErrors, hnoErrors, List.append_nil, honward.2] at herrors'
    exact ⟨s', honward.1, honward.2, hf'.closed_iff.mpr htask, hevents', herrors'⟩

/-- A directory with a file. -/
def stored : Memory where
  entries := [([], .dir ⟨0, 0⟩), ([Text.Utf8.encode "f"], .file (Text.Utf8.encode "x") ⟨1, 0⟩)]
  clock := fun look => ⟨look + 2, 0⟩

/-- What the raw events of a watch on it come to. -/
def storedWatch : Timestamp → Interpretation :=
  Interpreter.still ⟨NativePath.ofString "/mnt", ⟨[]⟩, 0⟩ Memory.backend ⟨stored, 0⟩

/-- The file was made, something else was removed, and then the source has failed. -/
def threeNotifications : List Notification :=
  [.ok ⟨NativePath.ofString "/mnt/f", { create := true }⟩,
    .ok ⟨NativePath.ofString "/mnt/g", { remove := true }⟩, .error "lost"]

def made (time : Timestamp) : ChangeEvent :=
  (ChangeEvent.present time .create "/f" 1 false).withSource 0

def gone (time : Timestamp) : ChangeEvent :=
  (ChangeEvent.removed time "/g").withSource 0

/-- There is room for one event in the session: the second one is in the hand of the task, and the
failure in the buffer. -/
def halfDelivered : Delivery where
  pipeline :=
    { session := { capacity := 1, events := [made ⟨5, 0⟩], state := .subscribed }
      notifications :=
        { initial := 1, input := [], isOpen := true, grower := .waiting
          segments := [⟨2, []⟩], drainer := .waiting, output := [.error "lost"] }
      task := .sending (gone ⟨6, 0⟩) }
  accepted := threeNotifications

/-- The consumer has asked for the end then, and has taken one event since. -/
def delivered : Delivery where
  pipeline :=
    { session :=
        { capacity := 1, events := [gone ⟨6, 0⟩], errors := [.notification "lost"]
          state := .closed, done := true, hasProducer := false }
      notifications :=
        { initial := 1, input := [], isOpen := false, grower := .finished
          segments := [⟨2, []⟩], drainer := .finished, output := [] }
      task := .finished
      draining := true }
  accepted := threeNotifications
  events := [made ⟨5, 0⟩]

theorem steps_halfDelivered :
    ReflTransGen (Step storedWatch) { pipeline := .subscribed 0 0 } halfDelivered := by
  -- For the first one a segment is opened, which stays for the others.
  refine .head (.notify (n := .ok ⟨NativePath.ofString "/mnt/f", { create := true }⟩) rfl) ?_
  refine .head (.buffer (.growerTake rfl)) (.head (.buffer (.growerChoose rfl)) ?_)
  refine .head (.buffer (.growerPlace rfl)) (.head (.buffer (.drainerTake rfl)) ?_)
  refine .head (.buffer (.drainerTake rfl)) (.head (.buffer (.drainerGive rfl)) ?_)
  refine .head (.receive ⟨5, 0⟩ rfl) (.head (.send rfl) ?_)
  refine .head (.notify (n := .ok ⟨NativePath.ofString "/mnt/g", { remove := true }⟩) rfl) ?_
  refine .head (.buffer (.growerTake rfl)) (.head (.buffer (.growerChoose rfl)) ?_)
  refine .head (.buffer (.growerPlace rfl)) (.head (.buffer (.drainerTake rfl)) ?_)
  refine .head (.buffer (.drainerGive rfl)) (.head (.receive ⟨6, 0⟩ rfl) ?_)
  refine .head (.notify (n := .error "lost") rfl) (.head (.buffer (.growerTake rfl)) ?_)
  refine .head (.buffer (.growerChoose rfl)) (.head (.buffer (.growerPlace rfl)) ?_)
  exact .head (.buffer (.drainerTake rfl)) (.single (.buffer (.drainerGive rfl)))

theorem steps_delivered : ReflTransGen (Step storedWatch) halfDelivered delivered := by
  refine .head (.consume .close) (.head (.unregister rfl) ?_)
  refine .head (.buffer (.growerTake rfl)) (.head (.buffer (.drainerTake rfl)) ?_)
  refine .head (.consume (.takeEvent rfl)) (.head (.send rfl) (.head (.heedEnd rfl) ?_))
  refine .head (.receive ⟨7, 0⟩ rfl) (.head (.receive ⟨7, 0⟩ rfl) ?_)
  exact .head (.release rfl) (.single (.finish rfl))

/-- The events and the error of what came in before the consumer asked for the end. -/
theorem session_lossless_delivered :
    delivered.pipeline.session.state = .closed ∧
      delivered.sentEvents.map ChangeEvent.undated = [made ⟨0, 0⟩, gone ⟨0, 0⟩] ∧
      delivered.sentErrors = [.notification "lost"] := by
  have hsteps := steps_halfDelivered.trans steps_delivered
  obtain ⟨-, -, -, hclosed, -⟩ := session_lossless (.subscribed 0 0) hsteps ⟨0, 0⟩
  exact ⟨rfl, hclosed rfl⟩

end Whole

end Delivery

end Watch

end SyncEndpoint
