import SyncEndpoint.Watch.Buffer
import SyncEndpoint.Watch.Notification
import SyncEndpoint.Watch.Session

set_option autoImplicit false

/-! # Pipelines

What runs between the source of notifications and the consumer of a session. Notifications enter
the growable buffer; the task takes one after the other, interprets it, and puts the event or the
error into the session. When the consumer asks for the end, the registration with the source goes,
which closes the buffer, and the task goes on until the buffer is empty. Only then is the watched
path free again, and only after that is the session closed.

A `Pipeline` is a snapshot of all of it. As with the buffer, each function is one step of one party
and answers `none` when that party has to wait. -/

namespace SyncEndpoint.Watch

/-- What a source of notifications says: a raw event, or that it failed. -/
abbrev Notification : Type := Except String RawEvent

/-- What a raw event comes to: an event, nothing, or an error. -/
abbrev Interpretation : Type := RawEvent → Except SyncError (Option ChangeEvent)

def Interpretation.ofNotification (t : Interpretation) :
    Notification → Except SyncError (Option ChangeEvent)
  | .ok raw => t raw
  | .error message => .error (.notification message)

/-- What the task of a pipeline is doing. -/
inductive Task where
  /-- Waiting for the end, since there is no source of notifications. -/
  | resting
  /-- Waiting for the next notification. -/
  | receiving
  /-- Holding an event that goes to the session. -/
  | sending (event : ChangeEvent)
  /-- Done with interpreting. The watched path is still taken. -/
  | releasing
  /-- The watched path is free. The session is not closed yet. -/
  | closing
  | finished
  deriving DecidableEq

def Task.holdsPath : Task → Bool
  | .closing | .finished => false
  | _ => true

structure Pipeline where
  session : Session
  notifications : Buffer Notification
  task : Task
  /-- Whether the task knows that the consumer has asked for the end. -/
  draining : Bool := false

namespace Pipeline

/-- A pipeline without a source of notifications. -/
def resting (eventCapacity : Nat) : Pipeline :=
  { session := .channel eventCapacity, notifications := (Buffer.empty 0).close, task := .resting }

/-- A pipeline that has been registered with a source of notifications. -/
def subscribed (bufferCapacity eventCapacity : Nat) : Pipeline :=
  { session := (Session.channel eventCapacity).setState .subscribed
    notifications := .empty bufferCapacity, task := .receiving }

/-! ## The source -/

/-- The source sends a notification. -/
def notify? (p : Pipeline) (n : Notification) : Option Pipeline :=
  (p.notifications.send? n).map fun notifications => { p with notifications }

/-- The registration with the source goes, once the end has been asked for. -/
def unregister? (p : Pipeline) : Option Pipeline :=
  if p.session.done && p.notifications.isOpen then
    some { p with notifications := p.notifications.close }
  else none

/-- The buffer moves an item on. -/
def buffer? (p : Pipeline) : Option Pipeline :=
  p.notifications.internal?.map fun notifications => { p with notifications }

/-! ## The task -/

/-- The task sees that the end has been asked for. -/
def heedEnd? (p : Pipeline) : Option Pipeline :=
  if p.session.done then
    match p.task with
    | .resting => some { p with task := .releasing }
    | .receiving =>
      if p.draining then none
      else some { p with draining := true, session := p.session.setState .draining }
    | _ => none
  else none

/-- What the task does with a notification once it is interpreted. -/
def take (p : Pipeline) : Except SyncError (Option ChangeEvent) → Pipeline
  | .ok (some event) => { p with task := .sending event }
  | .ok none => p
  | .error e => { p with session := (p.session.sendError e).2 }

/-- The task takes a notification, or sees that none will come. -/
def receive? (t : Interpretation) (p : Pipeline) : Option Pipeline :=
  match p.task with
  | .receiving =>
    match p.notifications.receive? with
    | some (n, notifications) => some ({ p with notifications }.take (t.ofNotification n))
    | none => if p.notifications.isEnded then some { p with task := .releasing } else none
  | _ => none

/-- The task puts its event into the session, if there is room. Without a consumer it gives up. -/
def send? (p : Pipeline) : Option Pipeline :=
  match p.task with
  | .sending event =>
    match p.session.sendEvent event with
    | (.accepted, session) => some { p with session, task := .receiving }
    | (.closed, _) => some { p with task := .releasing }
    | (.full, _) => none
  | _ => none

/-- The task frees the watched path. -/
def release? (p : Pipeline) : Option Pipeline :=
  match p.task with
  | .releasing => some { p with task := .closing }
  | _ => none

/-- The task closes the session. -/
def close? (p : Pipeline) : Option Pipeline :=
  match p.task with
  | .closing => some { p with session := p.session.finish, task := .finished }
  | _ => none

/-! ## Running -/

/-- A step of the pipeline itself, whoever can take one. -/
def internal? (t : Interpretation) (p : Pipeline) : Option Pipeline :=
  p.close? <|> p.release? <|> p.send? <|> p.heedEnd? <|> p.receive? t <|> p.unregister? <|>
    p.buffer?

/-- How many more steps the pipeline can take without source and consumer: each notification is
moved through the buffer, taken and sent. -/
def work (p : Pipeline) : Nat :=
  p.notifications.work + 2 * p.notifications.toList.length + 6

/-- At most `n` steps. -/
def run (t : Interpretation) : Nat → Pipeline → Pipeline
  | 0, p => p
  | n + 1, p =>
    match p.internal? t with
    | some p' => run t n p'
    | none => p

/-- Runs the pipeline until it waits. -/
def settle (t : Interpretation) (p : Pipeline) : Pipeline :=
  p.run t p.work

/-- The source sends a notification after everything else has settled. -/
def notify (t : Interpretation) (p : Pipeline) (n : Notification) : Pipeline :=
  let p := p.settle t
  (p.notify? n).getD p

/-- The events that a consumer gets if it takes at most `n`, each after everything else has
settled. -/
def nextEvents (t : Interpretation) : Nat → Pipeline → List ChangeEvent × Pipeline
  | 0, p => ([], p)
  | n + 1, p =>
    let p := p.settle t
    match p.session.nextEvent with
    | (.ready event, session) =>
      let (events, p) := nextEvents t n { p with session }
      (event :: events, p)
    | _ => ([], p)

end Pipeline

end SyncEndpoint.Watch
