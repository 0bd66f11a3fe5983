import Mathlib.Data.List.Basic
import SyncEndpoint.Watch.Session

set_option autoImplicit false

/-! # The two ends of a session

A producer does not give up its end of a session all at once: the queue of events goes first, then that
of errors, and at last the state, where it may publish that the session is closed. In between the
consumer goes on. A run of both keeps a log of what they did and what they were answered; from it one
sees all there is to know (`orderly_of_run`): what was accepted is received in order, a queue comes to
its end only when it is empty and its producer has left it, and the signal and the state say what has
been done. -/

namespace SyncEndpoint.Watch

namespace Session

/-- What a producer still holds of its end. `closes` tells whether it closes the session when it leaves,
or goes without a word. -/
inductive ProducerEnd where
  | held
  | eventsGone (closes : Bool)
  | errorsGone (closes : Bool)
  | gone (closes : Bool)

namespace ProducerEnd

def holdsEvents : ProducerEnd → Bool
  | held => true
  | _ => false

def holdsErrors : ProducerEnd → Bool
  | held | eventsGone _ => true
  | _ => false

def holdsState : ProducerEnd → Bool
  | gone _ => false
  | _ => true

/-- Whether a producer that leaves, or has left, closes the session. -/
def closes? : ProducerEnd → Option Bool
  | held => none
  | eventsGone closes | errorsGone closes | gone closes => some closes

theorem eq_gone {producer : ProducerEnd} {closes : Bool} (hleft : producer.holdsState = false)
    (hcloses : producer.closes? = some closes) : producer = .gone closes := by
  cases producer with
  | held | eventsGone | errorsGone => cases hleft
  | gone closes' =>
    cases hcloses
    rfl

end ProducerEnd

/-- A session whose producer may be about to leave. -/
structure Ends where
  session : Session
  producer : ProducerEnd := .held

/-- A session as it is seen by someone for whom the producer is there or not. -/
def seenWith (s : Session) (hasProducer : Bool) : Session :=
  { s with hasProducer }

namespace Ends

/-! ## What the ends do -/

/-- Asks a session in which the producer's end is there or not, whatever else the producer holds. -/
def ask {α : Type} (c : Ends) (query : Session → Poll α × Session) (hasProducer : Bool) :
    Poll α × Ends :=
  let (reply, session) := query (c.session.seenWith hasProducer)
  (reply, { c with session := session.seenWith c.session.hasProducer })

def nextEvent (c : Ends) : Poll ChangeEvent × Ends :=
  c.ask Session.nextEvent c.producer.holdsEvents

def nextError (c : Ends) : Poll SyncError × Ends :=
  c.ask Session.nextError c.producer.holdsErrors

/-- Whoever waits for both queues waits as long as the producer holds one of them. -/
def next (c : Ends) (errorFirst : Bool) : Poll (Except SyncError ChangeEvent) × Ends :=
  c.ask (Session.next · errorFirst) (c.producer.holdsEvents || c.producer.holdsErrors)

/-- What can be done at either end. -/
inductive Act where
  | sendEvent (e : ChangeEvent)
  | sendError (x : SyncError)
  | setState (state : WatchState)
  /-- The producer begins to leave: it gives up the queue of events. -/
  | leave (closes : Bool)
  | leaveErrors
  | leaveState
  | nextEvent
  | nextError
  | next (errorFirst : Bool)
  | close
  | drop

/-- What is answered. -/
inductive Reply where
  | nothing
  | sent (s : Sent)
  | event (p : Poll ChangeEvent)
  | error (p : Poll SyncError)
  | either (p : Poll (Except SyncError ChangeEvent))

/-- One step of one of the ends, as long as it is there. -/
inductive Step (c : Ends) : Act → Reply → Ends → Prop
  | sendEvent (e : ChangeEvent) (h : c.producer = .held) :
    Step c (.sendEvent e) (.sent (c.session.sendEvent e).1)
      { c with session := (c.session.sendEvent e).2 }
  | sendError (x : SyncError) (h : c.producer = .held) :
    Step c (.sendError x) (.sent (c.session.sendError x).1)
      { c with session := (c.session.sendError x).2 }
  | setState (state : WatchState) (h : c.producer = .held) :
    Step c (.setState state) .nothing { c with session := c.session.setState state }
  | leave (closes : Bool) (h : c.producer = .held) :
    Step c (.leave closes) .nothing { c with producer := .eventsGone closes }
  | leaveErrors {closes : Bool} (h : c.producer = .eventsGone closes) :
    Step c .leaveErrors .nothing { c with producer := .errorsGone closes }
  | leaveState {closes : Bool} (h : c.producer = .errorsGone closes) :
    Step c .leaveState .nothing
      { session := if closes then c.session.finish else c.session.dropProducer
        producer := .gone closes }
  | nextEvent (h : c.session.hasConsumer = true) :
    Step c .nextEvent (.event c.nextEvent.1) c.nextEvent.2
  | nextError (h : c.session.hasConsumer = true) :
    Step c .nextError (.error c.nextError.1) c.nextError.2
  | next (errorFirst : Bool) (h : c.session.hasConsumer = true) :
    Step c (.next errorFirst) (.either (c.next errorFirst).1) (c.next errorFirst).2
  | close (h : c.session.hasConsumer = true) :
    Step c .close .nothing { c with session := c.session.close }
  | drop (h : c.session.hasConsumer = true) :
    Step c .drop .nothing { c with session := c.session.drop }

/-- What was done and answered, in order. -/
abbrev Log : Type :=
  List (Act × Reply)

/-- What was done. -/
def Log.acts (log : Log) : List Act :=
  log.map Prod.fst

@[simp]
theorem Log.mem_acts_concat {log : Log} {act act' : Act} {reply : Reply} :
    act' ∈ Log.acts (log ++ [(act, reply)]) ↔ act' ∈ log.acts ∨ act' = act := by
  simp [acts]

/-- Both ends at work, in any order. -/
inductive Run (c₀ : Ends) : Log → Ends → Prop
  | start : Run c₀ [] c₀
  | step {log : Log} {c c' : Ends} {act : Act} {reply : Reply} (h : Run c₀ log c)
      (hstep : c.Step act reply c') : Run c₀ (log ++ [(act, reply)]) c'

/-- A producer that leaves step by step has finished with the session, or dropped its end of it. -/
theorem run_leave (s : Session) (closes : Bool) :
    Run ⟨s, .held⟩ [(.leave closes, .nothing), (.leaveErrors, .nothing), (.leaveState, .nothing)]
      ⟨if closes then s.finish else s.dropProducer, .gone closes⟩ :=
  ((Run.start.step (.leave closes rfl)).step (.leaveErrors rfl)).step (.leaveState rfl)

/-! ## What the consumer is answered -/

section Consumer

variable {c : Ends}

/-- Where nothing is left half-way, the answer is that of the session. -/
theorem ask_hasProducer {α : Type} {query : Session → Poll α × Session}
    (hkeeps : (query c.session).2.hasProducer = c.session.hasProducer) :
    c.ask query c.session.hasProducer =
      ((query c.session).1, { c with session := (query c.session).2 }) := by
  show ((query c.session).1, { c with session := (query c.session).2.seenWith _ }) = _
  rw [← hkeeps]
  rfl

theorem nextEvent_of_cons {e : ChangeEvent} {rest : List ChangeEvent}
    (h : c.session.events = e :: rest) :
    c.nextEvent = (.ready e, { c with session := { c.session with events := rest } }) := by
  simp only [nextEvent, ask, Session.nextEvent, seenWith, h]

theorem nextEvent_of_nil (h : c.session.events = []) :
    c.nextEvent = (if c.producer.holdsEvents then .pending else .ended, c) := by
  obtain ⟨⟨_, events, _, _, _, _, _⟩, _⟩ := c
  obtain rfl : events = [] := h
  rfl

theorem nextError_of_cons {x : SyncError} {rest : List SyncError}
    (h : c.session.errors = x :: rest) :
    c.nextError = (.ready x, { c with session := { c.session with errors := rest } }) := by
  simp only [nextError, ask, Session.nextError, seenWith, h]

theorem nextError_of_nil (h : c.session.errors = []) :
    c.nextError = (if c.producer.holdsErrors then .pending else .ended, c) := by
  obtain ⟨⟨_, _, errors, _, _, _, _⟩, _⟩ := c
  obtain rfl : errors = [] := h
  rfl

theorem next_of_nil (errorFirst : Bool) (hevents : c.session.events = [])
    (herrors : c.session.errors = []) :
    c.next errorFirst =
      (if c.producer.holdsEvents || c.producer.holdsErrors then .pending else .ended, c) := by
  obtain ⟨⟨_, events, errors, _, _, _, _⟩, _⟩ := c
  obtain rfl : events = [] := hevents
  obtain rfl : errors = [] := herrors
  rfl

/-- Whoever waits for both queues is given the first of one that has something. -/
theorem next_cases (c : Ends) (errorFirst : Bool) :
    (∃ e rest, c.session.events = e :: rest ∧ c.next errorFirst =
        (.ready (.ok e), { c with session := { c.session with events := rest } })) ∨
      (∃ x rest, c.session.errors = x :: rest ∧ c.next errorFirst =
        (.ready (.error x), { c with session := { c.session with errors := rest } })) ∨
      c.session.events = [] ∧ c.session.errors = [] := by
  cases hevents : c.session.events with
  | nil =>
    cases herrors : c.session.errors with
    | nil => exact Or.inr (Or.inr ⟨rfl, rfl⟩)
    | cons x rest =>
      refine Or.inr (Or.inl ⟨x, rest, rfl, ?_⟩)
      simp only [next, ask, Session.next, seenWith, hevents, herrors]
  | cons e rest =>
    cases herrors : c.session.errors with
    | nil =>
      refine Or.inl ⟨e, rest, rfl, ?_⟩
      simp only [next, ask, Session.next, seenWith, hevents, herrors]
    | cons x rest' =>
      cases errorFirst with
      | false =>
        refine Or.inl ⟨e, rest, rfl, ?_⟩
        simp [next, ask, Session.next, seenWith, hevents, herrors]
      | true =>
        refine Or.inr (Or.inl ⟨x, rest', rfl, ?_⟩)
        simp [next, ask, Session.next, seenWith, hevents, herrors]

theorem nextEvent_eq_ended_iff :
    c.nextEvent.1 = .ended ↔ c.producer.holdsEvents = false ∧ c.session.events = [] := by
  cases h : c.session.events with
  | nil =>
    rw [nextEvent_of_nil h]
    cases c.producer.holdsEvents <;> simp
  | cons e rest => simp [nextEvent_of_cons h]

theorem nextError_eq_ended_iff :
    c.nextError.1 = .ended ↔ c.producer.holdsErrors = false ∧ c.session.errors = [] := by
  cases h : c.session.errors with
  | nil =>
    rw [nextError_of_nil h]
    cases c.producer.holdsErrors <;> simp
  | cons x rest => simp [nextError_of_cons h]

theorem next_eq_ended_iff (errorFirst : Bool) :
    (c.next errorFirst).1 = .ended ↔
      (c.producer.holdsEvents = false ∧ c.producer.holdsErrors = false) ∧
        c.session.events = [] ∧ c.session.errors = [] := by
  obtain ⟨e, rest, hevents, hnext⟩ | ⟨x, rest, herrors, hnext⟩ | ⟨hevents, herrors⟩ :=
    c.next_cases errorFirst
  · simp [hnext, hevents]
  · simp [hnext, herrors]
  · rw [next_of_nil errorFirst hevents herrors]
    cases c.producer.holdsEvents <;> cases c.producer.holdsErrors <;> simp [hevents, herrors]

end Consumer

/-! ## What goes through the queues -/

/-- The event that was accepted, if any. -/
def acceptedEvent? : Act × Reply → Option ChangeEvent
  | (.sendEvent e, .sent .accepted) => some e
  | _ => none

/-- The error that was accepted, if any. -/
def acceptedError? : Act × Reply → Option SyncError
  | (.sendError x, .sent .accepted) => some x
  | _ => none

/-- The event that was received, if any, from whichever way of asking. -/
def receivedEvent? : Act × Reply → Option ChangeEvent
  | (_, .event (.ready e)) | (_, .either (.ready (.ok e))) => some e
  | _ => none

/-- The error that was received, if any, from whichever way of asking. -/
def receivedError? : Act × Reply → Option SyncError
  | (_, .error (.ready x)) | (_, .either (.ready (.error x))) => some x
  | _ => none

/-- A queue, as long as it has a consumer, holds what it has accepted and nobody has received; without
one, what it held may be lost. -/
structure InOrder {α : Type} (hasConsumer : Bool) (accepted received queued : List α) : Prop where
  kept : hasConsumer = true → received ++ queued = accepted
  received_isPrefix : received <+: accepted

section InOrder

variable {α : Type} {hasConsumer : Bool} {accepted received queued : List α} {a : α}

theorem InOrder.push (h : InOrder hasConsumer accepted received queued) :
    InOrder hasConsumer (accepted ++ [a]) received (queued ++ [a]) where
  kept := by
    intro hkept
    rw [← List.append_assoc, h.kept hkept]
  received_isPrefix := h.received_isPrefix.trans (List.prefix_append _ _)

theorem InOrder.pop (h : InOrder hasConsumer accepted received (a :: queued))
    (hkept : hasConsumer = true) : InOrder hasConsumer accepted (received ++ [a]) queued := by
  have hall : received ++ [a] ++ queued = accepted := by
    rw [List.append_assoc]
    exact h.kept hkept
  exact ⟨fun _ => hall, hall ▸ List.prefix_append _ _⟩

theorem InOrder.lose (h : InOrder hasConsumer accepted received queued) :
    InOrder false accepted received [] :=
  ⟨nofun, h.received_isPrefix⟩

end InOrder

/-- What was received is accounted for, and so is what is queued. -/
structure Delivered (capacity : Nat) (log : Log) (c : Ends) : Prop where
  capacity_eq : c.session.capacity = max capacity 1
  room : c.session.events.length ≤ max capacity 1
  events : InOrder c.session.hasConsumer (log.filterMap acceptedEvent?)
    (log.filterMap receivedEvent?) c.session.events
  errors : InOrder c.session.hasConsumer (log.filterMap acceptedError?)
    (log.filterMap receivedError?) c.session.errors

section Delivered

variable {capacity : Nat} {log : Log} {c c' : Ends} {act : Act} {reply : Reply}

theorem delivered_channel (capacity : Nat) : Delivered capacity [] ⟨.channel capacity, .held⟩ where
  capacity_eq := rfl
  room := Nat.zero_le _
  events := ⟨fun _ => rfl, List.nil_prefix⟩
  errors := ⟨fun _ => rfl, List.nil_prefix⟩

/-- One more entry adds to each of the lists what it tells of. -/
theorem Delivered.of_entry {entry : Act × Reply}
    (hcapacity : c'.session.capacity = max capacity 1)
    (hroom : c'.session.events.length ≤ max capacity 1)
    (hevents : InOrder c'.session.hasConsumer
      (log.filterMap acceptedEvent? ++ (acceptedEvent? entry).toList)
      (log.filterMap receivedEvent? ++ (receivedEvent? entry).toList) c'.session.events)
    (herrors : InOrder c'.session.hasConsumer
      (log.filterMap acceptedError? ++ (acceptedError? entry).toList)
      (log.filterMap receivedError? ++ (receivedError? entry).toList) c'.session.errors) :
    Delivered capacity (log ++ [entry]) c' := by
  have hconcat {α : Type} (f : Act × Reply → Option α) :
      (log ++ [entry]).filterMap f = log.filterMap f ++ (f entry).toList := by
    rw [List.filterMap_append]
    cases hentry : f entry <;> simp [hentry]
  refine ⟨hcapacity, hroom, ?_, ?_⟩
  · rw [hconcat, hconcat]
    exact hevents
  · rw [hconcat, hconcat]
    exact herrors

/-- The queues have not changed, and nothing has come or gone through them. -/
structure LeavesQueues (c : Ends) (entry : Act × Reply) (c' : Ends) : Prop where
  capacity_eq : c'.session.capacity = c.session.capacity := by rfl
  events_eq : c'.session.events = c.session.events := by rfl
  errors_eq : c'.session.errors = c.session.errors := by rfl
  hasConsumer_eq : c'.session.hasConsumer = c.session.hasConsumer := by rfl
  acceptedEvent?_eq : acceptedEvent? entry = none := by rfl
  acceptedError?_eq : acceptedError? entry = none := by rfl
  receivedEvent?_eq : receivedEvent? entry = none := by rfl
  receivedError?_eq : receivedError? entry = none := by rfl

theorem Delivered.of_leavesQueues {entry : Act × Reply} (h : Delivered capacity log c)
    (hquiet : LeavesQueues c entry c') : Delivered capacity (log ++ [entry]) c' := by
  obtain ⟨hcapacity, hevents, herrors, hconsumer, hae, hax, hre, hrx⟩ := hquiet
  refine .of_entry ?_ ?_ ?_ ?_
  · rw [hcapacity, h.capacity_eq]
  · rw [hevents]
    exact h.room
  · simpa [hevents, hconsumer, hae, hre] using h.events
  · simpa [herrors, hconsumer, hax, hrx] using h.errors

theorem Delivered.takeEvent {e : ChangeEvent} {rest : List ChangeEvent} {entry : Act × Reply}
    (h : Delivered capacity log c) (hconsumer : c.session.hasConsumer = true)
    (hevents : c.session.events = e :: rest)
    (haccepted : acceptedEvent? entry = none ∧ acceptedError? entry = none)
    (hreceived : receivedEvent? entry = some e ∧ receivedError? entry = none) :
    Delivered capacity (log ++ [entry])
      { c with session := { c.session with events := rest } } := by
  refine .of_entry h.capacity_eq ?_ ?_ ?_
  · have hroom := h.room
    rw [hevents] at hroom
    exact Nat.le_of_succ_le hroom
  · have horder := h.events
    rw [hevents] at horder
    simpa [haccepted, hreceived] using horder.pop hconsumer
  · simpa [haccepted, hreceived] using h.errors

theorem Delivered.takeError {x : SyncError} {rest : List SyncError} {entry : Act × Reply}
    (h : Delivered capacity log c) (hconsumer : c.session.hasConsumer = true)
    (herrors : c.session.errors = x :: rest)
    (haccepted : acceptedEvent? entry = none ∧ acceptedError? entry = none)
    (hreceived : receivedEvent? entry = none ∧ receivedError? entry = some x) :
    Delivered capacity (log ++ [entry])
      { c with session := { c.session with errors := rest } } := by
  refine .of_entry h.capacity_eq h.room ?_ ?_
  · simpa [haccepted, hreceived] using h.events
  · have horder := h.errors
    rw [herrors] at horder
    simpa [haccepted, hreceived] using horder.pop hconsumer

theorem Delivered.sendEvent (h : Delivered capacity log c) (e : ChangeEvent) :
    Delivered capacity (log ++ [(.sendEvent e, .sent (c.session.sendEvent e).1)])
      { c with session := (c.session.sendEvent e).2 } := by
  unfold Session.sendEvent
  split
  · exact h.of_leavesQueues {}
  · split
    · next hroom =>
      refine .of_entry h.capacity_eq ?_ ?_ ?_
      · rw [h.capacity_eq] at hroom
        simpa using Nat.succ_le_of_lt hroom
      · simpa [acceptedEvent?, receivedEvent?] using h.events.push
      · simpa [acceptedError?, receivedError?] using h.errors
    · exact h.of_leavesQueues {}

theorem Delivered.sendError (h : Delivered capacity log c) (x : SyncError) :
    Delivered capacity (log ++ [(.sendError x, .sent (c.session.sendError x).1)])
      { c with session := (c.session.sendError x).2 } := by
  unfold Session.sendError
  split
  · exact h.of_leavesQueues {}
  · refine .of_entry h.capacity_eq h.room ?_ ?_
    · simpa [acceptedEvent?, receivedEvent?] using h.events
    · simpa [acceptedError?, receivedError?] using h.errors.push

theorem Delivered.nextEvent (h : Delivered capacity log c)
    (hconsumer : c.session.hasConsumer = true) :
    Delivered capacity (log ++ [(.nextEvent, .event c.nextEvent.1)]) c.nextEvent.2 := by
  cases hevents : c.session.events with
  | nil =>
    rw [nextEvent_of_nil hevents]
    cases c.producer.holdsEvents <;> exact h.of_leavesQueues {}
  | cons e rest =>
    rw [nextEvent_of_cons hevents]
    exact h.takeEvent hconsumer hevents ⟨rfl, rfl⟩ ⟨rfl, rfl⟩

theorem Delivered.nextError (h : Delivered capacity log c)
    (hconsumer : c.session.hasConsumer = true) :
    Delivered capacity (log ++ [(.nextError, .error c.nextError.1)]) c.nextError.2 := by
  cases herrors : c.session.errors with
  | nil =>
    rw [nextError_of_nil herrors]
    cases c.producer.holdsErrors <;> exact h.of_leavesQueues {}
  | cons x rest =>
    rw [nextError_of_cons herrors]
    exact h.takeError hconsumer herrors ⟨rfl, rfl⟩ ⟨rfl, rfl⟩

theorem Delivered.next (h : Delivered capacity log c)
    (hconsumer : c.session.hasConsumer = true) (errorFirst : Bool) :
    Delivered capacity (log ++ [(.next errorFirst, .either (c.next errorFirst).1)])
      (c.next errorFirst).2 := by
  obtain ⟨e, rest, hevents, hnext⟩ | ⟨x, rest, herrors, hnext⟩ | ⟨hevents, herrors⟩ :=
    c.next_cases errorFirst
  · rw [hnext]
    exact h.takeEvent hconsumer hevents ⟨rfl, rfl⟩ ⟨rfl, rfl⟩
  · rw [hnext]
    exact h.takeError hconsumer herrors ⟨rfl, rfl⟩ ⟨rfl, rfl⟩
  · rw [next_of_nil errorFirst hevents herrors]
    cases c.producer.holdsEvents <;> cases c.producer.holdsErrors <;> exact h.of_leavesQueues {}

theorem Delivered.drop (h : Delivered capacity log c) :
    Delivered capacity (log ++ [(.drop, .nothing)]) { c with session := c.session.drop } := by
  refine .of_entry h.capacity_eq (Nat.zero_le _) ?_ ?_
  · simpa [acceptedEvent?, receivedEvent?, Session.drop] using h.events.lose
  · simpa [acceptedError?, receivedError?, Session.drop] using h.errors.lose

theorem Delivered.step (h : Delivered capacity log c) (hstep : c.Step act reply c') :
    Delivered capacity (log ++ [(act, reply)]) c' := by
  cases hstep with
  | sendEvent e _ => exact h.sendEvent e
  | sendError x _ => exact h.sendError x
  | setState | leave | leaveErrors | close => exact h.of_leavesQueues {}
  | @leaveState closes _ => cases closes <;> exact h.of_leavesQueues {}
  | nextEvent hconsumer => exact h.nextEvent hconsumer
  | nextError hconsumer => exact h.nextError hconsumer
  | next errorFirst hconsumer => exact h.next hconsumer errorFirst
  | drop _ => exact h.drop

theorem delivered_of_run (h : Run ⟨.channel capacity, .held⟩ log c) : Delivered capacity log c := by
  induction h with
  | start => exact delivered_channel capacity
  | step _ hstep ih => exact ih.step hstep

end Delivered

/-! ## How far a session has come -/

/-- What is done to the queues, while both ends stay what they are. -/
def Act.isTransfer : Act → Bool
  | .sendEvent _ | .sendError _ | .nextEvent | .nextError | .next _ => true
  | _ => false

/-- The signal, the producer's end and the published state tell what has been done. -/
structure Faithful (log : Log) (c : Ends) : Prop where
  done_iff : c.session.done = true ↔ .close ∈ log.acts ∨ .drop ∈ log.acts
  hasProducer_eq : c.session.hasProducer = c.producer.holdsState
  leave_iff : ∀ closes, .leave closes ∈ log.acts ↔ c.producer.closes? = some closes
  leaveState_iff : .leaveState ∈ log.acts ↔ c.producer.holdsState = false
  closed_of_gone : c.producer = .gone true → c.session.state = .closed
  gone_of_closed : c.session.state = .closed →
    .setState .closed ∈ log.acts ∨ c.producer = .gone true

section Faithful

variable {capacity : Nat} {log : Log} {c c' : Ends} {act : Act} {reply : Reply}

theorem faithful_channel (capacity : Nat) : Faithful [] ⟨.channel capacity, .held⟩ where
  done_iff := by simp [Session.channel, Log.acts]
  hasProducer_eq := rfl
  leave_iff := by simp [ProducerEnd.closes?, Log.acts]
  leaveState_iff := by simp [ProducerEnd.holdsState, Log.acts]
  closed_of_gone := nofun
  gone_of_closed := nofun

/-- A transfer changes the queues only. -/
theorem Step.eq_of_isTransfer (hstep : c.Step act reply c') (hact : act.isTransfer = true) :
    ∃ events errors, c' = { c with session := { c.session with events, errors } } := by
  cases hstep with
  | sendEvent e _ =>
    unfold Session.sendEvent
    split
    · exact ⟨_, _, rfl⟩
    · split <;> exact ⟨_, _, rfl⟩
  | sendError x _ =>
    unfold Session.sendError
    split <;> exact ⟨_, _, rfl⟩
  | nextEvent _ =>
    cases hevents : c.session.events with
    | nil => exact ⟨_, _, congrArg Prod.snd (nextEvent_of_nil hevents)⟩
    | cons e rest => exact ⟨_, _, congrArg Prod.snd (nextEvent_of_cons hevents)⟩
  | nextError _ =>
    cases herrors : c.session.errors with
    | nil => exact ⟨_, _, congrArg Prod.snd (nextError_of_nil herrors)⟩
    | cons x rest => exact ⟨_, _, congrArg Prod.snd (nextError_of_cons herrors)⟩
  | next errorFirst _ =>
    obtain ⟨e, rest, -, hnext⟩ | ⟨x, rest, -, hnext⟩ | ⟨hevents, herrors⟩ :=
      c.next_cases errorFirst
    · exact ⟨_, _, congrArg Prod.snd hnext⟩
    · exact ⟨_, _, congrArg Prod.snd hnext⟩
    · exact ⟨_, _, congrArg Prod.snd (next_of_nil errorFirst hevents herrors)⟩
  | setState | leave | leaveErrors | leaveState | close | drop => cases hact

theorem Faithful.transfer (h : Faithful log c) (hstep : c.Step act reply c')
    (hact : act.isTransfer = true) : Faithful (log ++ [(act, reply)]) c' := by
  obtain ⟨events, errors, rfl⟩ := hstep.eq_of_isTransfer hact
  have hold {act' : Act} (hother : act'.isTransfer = false) :
      act' ∈ Log.acts (log ++ [(act, reply)]) ↔ act' ∈ log.acts := by
    rw [Log.mem_acts_concat, or_iff_left]
    rintro rfl
    rw [hother] at hact
    cases hact
  refine ⟨?_, h.hasProducer_eq, ?_, ?_, h.closed_of_gone, ?_⟩
  -- Each of the fields speaks of acts that are no transfers, and of nothing that is in a queue.
  · rw [hold rfl, hold rfl]
    exact h.done_iff
  · intro closes
    rw [hold rfl]
    exact h.leave_iff closes
  · rw [hold rfl]
    exact h.leaveState_iff
  · rw [hold rfl]
    exact h.gone_of_closed

theorem Faithful.step (h : Faithful log c) (hstep : c.Step act reply c') :
    Faithful (log ++ [(act, reply)]) c' := by
  cases hstep with
  | sendEvent e hheld => exact h.transfer (.sendEvent e hheld) rfl
  | sendError x hheld => exact h.transfer (.sendError x hheld) rfl
  | nextEvent hconsumer => exact h.transfer (.nextEvent hconsumer) rfl
  | nextError hconsumer => exact h.transfer (.nextError hconsumer) rfl
  | next errorFirst hconsumer => exact h.transfer (.next errorFirst hconsumer) rfl
  | setState state hheld => exact {
      done_iff := by simpa [Session.setState] using h.done_iff
      hasProducer_eq := h.hasProducer_eq
      leave_iff := by simpa using h.leave_iff
      leaveState_iff := by simpa using h.leaveState_iff
      closed_of_gone := by simp [hheld]
      gone_of_closed := by
        rintro rfl
        exact Or.inl (Log.mem_acts_concat.mpr (Or.inr rfl)) }
  | leave closes hheld => exact {
      done_iff := by simpa using h.done_iff
      hasProducer_eq := by simpa [hheld, ProducerEnd.holdsState] using h.hasProducer_eq
      leave_iff := by
        intro closes'
        -- Whoever holds the whole end has not begun to leave before.
        have hnever := h.leave_iff closes'
        simp only [hheld, ProducerEnd.closes?, reduceCtorEq, iff_false] at hnever
        simp [hnever, ProducerEnd.closes?, eq_comm]
      leaveState_iff := by simpa [hheld, ProducerEnd.holdsState] using h.leaveState_iff
      closed_of_gone := nofun
      gone_of_closed := by simpa [hheld] using h.gone_of_closed }
  | leaveErrors hleft => exact {
      done_iff := by simpa using h.done_iff
      hasProducer_eq := by simpa [hleft, ProducerEnd.holdsState] using h.hasProducer_eq
      leave_iff := by simpa [hleft, ProducerEnd.closes?] using h.leave_iff
      leaveState_iff := by simpa [hleft, ProducerEnd.holdsState] using h.leaveState_iff
      closed_of_gone := nofun
      gone_of_closed := by simpa [hleft] using h.gone_of_closed }
  | @leaveState closes hleft => exact {
      done_iff := by
        cases closes <;>
          simpa [Session.finish, Session.dropProducer, Session.setState] using h.done_iff
      hasProducer_eq := by cases closes <;> rfl
      leave_iff := by simpa [hleft, ProducerEnd.closes?] using h.leave_iff
      leaveState_iff := by simp [ProducerEnd.holdsState]
      closed_of_gone := by
        intro hgone
        cases hgone
        rfl
      gone_of_closed := by
        cases closes with
        | true => exact fun _ => Or.inr rfl
        | false => simpa [hleft, Session.dropProducer] using h.gone_of_closed }
  | close hconsumer => exact {
      done_iff := by simp [Session.close]
      hasProducer_eq := h.hasProducer_eq
      leave_iff := by simpa using h.leave_iff
      leaveState_iff := by simpa using h.leaveState_iff
      closed_of_gone := h.closed_of_gone
      gone_of_closed := by simpa [Session.close] using h.gone_of_closed }
  | drop hconsumer => exact {
      done_iff := by simp [Session.drop, Session.close]
      hasProducer_eq := h.hasProducer_eq
      leave_iff := by simpa using h.leave_iff
      leaveState_iff := by simpa using h.leaveState_iff
      closed_of_gone := h.closed_of_gone
      gone_of_closed := by simpa [Session.drop, Session.close] using h.gone_of_closed }

theorem faithful_of_run (h : Run ⟨.channel capacity, .held⟩ log c) : Faithful log c := by
  induction h with
  | start => exact faithful_channel capacity
  | step _ hstep ih => exact ih.step hstep

/-- Unless the producer is on its way out, the consumer is answered as by the session itself. -/
theorem Faithful.answers_eq (h : Faithful log c)
    (hsettled : c.producer.holdsEvents = c.producer.holdsState) (errorFirst : Bool) :
    c.nextEvent = (c.session.nextEvent.1, { c with session := c.session.nextEvent.2 }) ∧
      c.nextError = (c.session.nextError.1, { c with session := c.session.nextError.2 }) ∧
      c.next errorFirst =
        ((c.session.next errorFirst).1, { c with session := (c.session.next errorFirst).2 }) := by
  have hevents : c.producer.holdsEvents = c.session.hasProducer := by
    rw [hsettled, h.hasProducer_eq]
  have herrors : c.producer.holdsErrors = c.session.hasProducer := by
    rw [h.hasProducer_eq]
    cases hproducer : c.producer with
    | held | gone => rfl
    | eventsGone | errorsGone =>
      rw [hproducer] at hsettled
      cases hsettled
  refine ⟨?_, ?_, ?_⟩
  · rw [nextEvent, hevents]
    refine ask_hasProducer ?_
    unfold Session.nextEvent
    split <;> rfl
  · rw [nextError, herrors]
    refine ask_hasProducer ?_
    unfold Session.nextError
    split <;> rfl
  · rw [next, hevents, herrors, Bool.or_self]
    refine ask_hasProducer ?_
    unfold Session.next
    split
    · rfl
    · rfl
    · rfl
    · split <;> rfl

end Faithful

/-! ## All together -/

/-- What can be said of a session after all that is in its log. -/
structure Orderly (capacity : Nat) (log : Log) (c : Ends) : Prop where
  events : InOrder c.session.hasConsumer (log.filterMap acceptedEvent?)
    (log.filterMap receivedEvent?) c.session.events
  errors : InOrder c.session.hasConsumer (log.filterMap acceptedError?)
    (log.filterMap receivedError?) c.session.errors
  room : c.session.events.length ≤ max capacity 1
  nextEvent_ended : c.nextEvent.1 = .ended ↔
    c.producer.holdsEvents = false ∧ c.session.events = []
  nextError_ended : c.nextError.1 = .ended ↔
    c.producer.holdsErrors = false ∧ c.session.errors = []
  next_ended : ∀ errorFirst, (c.next errorFirst).1 = .ended ↔
    (c.producer.holdsEvents = false ∧ c.producer.holdsErrors = false) ∧
      c.session.events = [] ∧ c.session.errors = []
  done_iff : c.session.done = true ↔ .close ∈ log.acts ∨ .drop ∈ log.acts
  /-- A producer that has closed the session has left it. -/
  finished : .leave true ∈ log.acts → .leaveState ∈ log.acts →
    c.session.state = .closed ∧ c.producer = .gone true
  /-- A session is not closed before its producer has left both queues, unless the producer has said
  so of itself. -/
  closed : c.session.state = .closed → .setState .closed ∉ log.acts →
    .leave true ∈ log.acts ∧ c.producer.holdsEvents = false ∧ c.producer.holdsErrors = false
  isClosed_iff : c.session.isClosed = true ↔
    c.session.state = .closed ∨ .leaveState ∈ log.acts

/-- The two ends of a session, in whatever order they are used, keep it orderly. -/
theorem orderly_of_run {capacity : Nat} {log : Log} {c : Ends}
    (h : Run ⟨.channel capacity, .held⟩ log c) : Orderly capacity log c := by
  have hdelivered : Delivered capacity log c := delivered_of_run h
  have hfaithful : Faithful log c := faithful_of_run h
  refine {
    events := hdelivered.events
    errors := hdelivered.errors
    room := hdelivered.room
    nextEvent_ended := nextEvent_eq_ended_iff
    nextError_ended := nextError_eq_ended_iff
    next_ended := next_eq_ended_iff
    done_iff := hfaithful.done_iff
    finished := ?_
    closed := ?_
    isClosed_iff := ?_ }
  · intro hleave hleaveState
    have hcloses : c.producer.closes? = some true := (hfaithful.leave_iff true).mp hleave
    have hleft : c.producer.holdsState = false := hfaithful.leaveState_iff.mp hleaveState
    have hgone : c.producer = .gone true := ProducerEnd.eq_gone hleft hcloses
    exact ⟨hfaithful.closed_of_gone hgone, hgone⟩
  · intro hclosed hnever
    obtain hsaid | hgone := hfaithful.gone_of_closed hclosed
    · exact absurd hsaid hnever
    · have hcloses : c.producer.closes? = some true := by rw [hgone]; rfl
      refine ⟨(hfaithful.leave_iff true).mpr hcloses, ?_, ?_⟩ <;> rw [hgone] <;> rfl
  · rw [hfaithful.leaveState_iff, ← hfaithful.hasProducer_eq]
    simp [Session.isClosed]

/-- A queue of one event, a producer that leaves while both queues hold something, and a consumer that
takes what there is. -/
theorem orderly_leaving :
    Orderly 0
      [(.sendEvent (.removed ⟨0, 0⟩ "/a"), .sent .accepted),
        (.sendEvent (.removed ⟨0, 0⟩ "/b"), .sent .full),
        (.sendError (.notification "queue overflow"), .sent .accepted),
        (.leave true, .nothing),
        (.next true, .either (.ready (.error (.notification "queue overflow")))),
        (.leaveErrors, .nothing),
        (.nextError, .error .ended),
        (.leaveState, .nothing),
        (.next true, .either (.ready (.ok (.removed ⟨0, 0⟩ "/a")))),
        (.next false, .either .ended),
        (.close, .nothing)]
      ⟨{ capacity := 1, state := .closed, done := true, hasProducer := false }, .gone true⟩ :=
  orderly_of_run <| Run.start
    |>.step (.sendEvent _ rfl)
    |>.step (.sendEvent _ rfl)
    |>.step (.sendError _ rfl)
    |>.step (.leave true rfl)
    |>.step (.next true rfl)
    |>.step (.leaveErrors rfl)
    |>.step (.nextError rfl)
    |>.step (.leaveState rfl)
    |>.step (.next true rfl)
    |>.step (.next false rfl)
    |>.step (.close rfl)

end Ends

end Session

end SyncEndpoint.Watch
