import SyncEndpoint.Error
import SyncEndpoint.Event

set_option autoImplicit false

/-! # Watch sessions

A session is two queues between the pipeline of a watch and its consumer, one of events and one of
errors, with a signal by which the consumer asks for the end and a state that the pipeline
publishes. The value below holds both ends, so each action of one end is a function on it. -/

namespace SyncEndpoint.Watch

/-- How far a session has come. -/
inductive WatchState where
  /-- Made, but not registered for notifications. -/
  | idle
  /-- Notifications arrive and are interpreted. -/
  | subscribed
  /-- No more notifications arrive; those that did are interpreted. -/
  | draining
  /-- Nothing more will be delivered. -/
  | closed
  deriving DecidableEq

namespace WatchState

def name : WatchState → String
  | .idle => "Idle"
  | .subscribed => "Subscribed"
  | .draining => "Draining"
  | .closed => "Closed"

/-- The place of a state in the order that a session goes through. -/
def rank : WatchState → Nat
  | .idle => 0
  | .subscribed => 1
  | .draining => 2
  | .closed => 3

end WatchState

/-- A session with both its ends. -/
structure Session where
  /-- How many events may be queued. -/
  capacity : Nat
  events : List ChangeEvent := []
  errors : List SyncError := []
  state : WatchState := .idle
  /-- Whether the consumer has asked for the end. -/
  done : Bool := false
  /-- Whether the producer's end is still held. -/
  hasProducer : Bool := true
  /-- Whether the consumer's end is still held. -/
  hasConsumer : Bool := true

namespace Session

/-- A fresh session; at least one event can be queued. -/
def channel (capacity : Nat) : Session :=
  { capacity := max capacity 1 }

/-! ## The producer's end -/

/-- What becomes of something that is sent. -/
inductive Sent where
  | accepted
  | full
  | closed
  deriving DecidableEq

/-- Queues an event, if there is room and someone to receive it. -/
def sendEvent (s : Session) (e : ChangeEvent) : Sent × Session :=
  if !s.hasConsumer then (.closed, s)
  else if s.events.length < s.capacity then (.accepted, { s with events := s.events ++ [e] })
  else (.full, s)

/-- Queues an error, for which there always is room. -/
def sendError (s : Session) (e : SyncError) : Sent × Session :=
  if !s.hasConsumer then (.closed, s)
  else (.accepted, { s with errors := s.errors ++ [e] })

/-- Publishes a state. -/
def setState (s : Session) (state : WatchState) : Session :=
  { s with state }

/-- Gives up the producer's end without a word. -/
def dropProducer (s : Session) : Session :=
  { s with hasProducer := false }

/-- Gives up the producer's end and then publishes that the session is closed. -/
def finish (s : Session) : Session :=
  s.dropProducer.setState .closed

/-! ## The consumer's end -/

/-- What a queue answers: something, that it would have to wait, or that it has ended. -/
inductive Poll (α : Type) where
  | ready (a : α)
  | pending
  | ended

/-- What an empty queue answers. -/
def whenEmpty {α : Type} (s : Session) : Poll α :=
  if s.hasProducer then .pending else .ended

def nextEvent (s : Session) : Poll ChangeEvent × Session :=
  match s.events with
  | e :: rest => (.ready e, { s with events := rest })
  | [] => (s.whenEmpty, s)

def nextError (s : Session) : Poll SyncError × Session :=
  match s.errors with
  | e :: rest => (.ready e, { s with errors := rest })
  | [] => (s.whenEmpty, s)

/-- Takes from the queue that has something. When both have, `errorFirst` chooses. -/
def next (s : Session) (errorFirst : Bool) : Poll (Except SyncError ChangeEvent) × Session :=
  match s.events, s.errors with
  | [], [] => (s.whenEmpty, s)
  | e :: rest, [] => (.ready (.ok e), { s with events := rest })
  | [], e :: rest => (.ready (.error e), { s with errors := rest })
  | e :: events, x :: errors =>
    if errorFirst then (.ready (.error x), { s with errors })
    else (.ready (.ok e), { s with events })

/-- Asks for the end. Asking twice is like asking once. -/
def close (s : Session) : Session :=
  { s with done := true }

/-- Whether the pipeline has finished: it says so, or has given up its end. -/
def isClosed (s : Session) : Bool :=
  s.state = .closed || !s.hasProducer

/-- Gives up the consumer's end, which asks for the end; what was queued is lost. -/
def drop (s : Session) : Session :=
  { s.close with hasConsumer := false, events := [], errors := [] }

/-- A session as it is shown to a developer. -/
def debugText (s : Session) : String :=
  "WatchSession \x7b state: " ++ s.state.name ++ ", closing: " ++
    (if s.done then "true" else "false") ++ " \x7d"

end Session

end SyncEndpoint.Watch
