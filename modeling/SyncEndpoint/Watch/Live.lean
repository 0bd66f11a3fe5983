import SyncEndpoint.Endpoint.OnDisk
import SyncEndpoint.Endpoint.Watching
import SyncEndpoint.Watch.Observer

set_option autoImplicit false

/-! # Live watches

A watch on a disk with all that takes part in it: the disk, the observer of it, and the watches of
the endpoint. Actions come in batches; the notifications of a batch are interpreted when all of its
actions have been done. -/

namespace SyncEndpoint.Watch

/-- What a raw event comes to on a disk. -/
def Interpreter.onDisk (t : Interpreter) (d : Disk) : Interpretation := fun raw =>
  (d.run t.root 0 (t.interpret d.now raw).run).1

structure Live where
  disk : Disk
  endpoint : Endpoint
  interpreter : Interpreter
  observer : Observer
  registry : Registry
  /-- The number of the watch call. -/
  id : Nat

namespace Live

/-- Starts a watch on a path. An endpoint whose storage has no source of notifications has no live
watch. -/
def start (d : Disk) (e : Endpoint) (source : EndpointRef) (subPath : String) (r : Registry) :
    Except SyncError (Option Live) × Registry :=
  match e.watch (Observer.register d) subPath r with
  | (.error x, r) => (.error x, r)
  | (.ok (id, observer), r) =>
    (.ok (do
      let root ← e.watchableRoot?
      pure ⟨d, e, e.interpreter root source, ← observer, r, id⟩), r)

/-- What raw events come to now. -/
def interpretation (w : Live) : Interpretation :=
  w.interpreter.onDisk w.disk

/-- Something happens to the pipeline, which then goes on until it waits. -/
def update (w : Live) (f : Pipeline → Pipeline) : Live :=
  { w with registry := w.registry.update w.id fun p => (f p).settle w.interpretation }

def pipeline? (w : Live) : Option Pipeline :=
  w.registry.pipeline? w.id

/-- Takes all events that the pipeline has for its consumer. -/
def takeEvents (w : Live) : List ChangeEvent × Live :=
  match w.pipeline? with
  | none => ([], w)
  | some p =>
    let most := p.notifications.toList.length + p.session.events.length + 2
    let (events, p) := p.nextEvents w.interpretation most
    (events, { w with registry := w.registry.update w.id fun _ => p })

/-- Does the actions of a batch: what is reported of them. -/
def act (w : Live) (actions : List Disk.Action) : List RawEvent × Live :=
  let (reports, disk) := w.observer.watchActions w.disk actions
  (rawEventsOf reports, { w with disk, observer := w.observer.follow disk reports })

/-- Sends raw events into the pipeline. -/
def send (w : Live) (raw : List RawEvent) : Live :=
  w.update fun p => raw.foldl (fun p r => p.notify w.interpretation (.ok r)) p

/-- Does the actions of a batch: the events that they come to. -/
def batch (w : Live) (actions : List Disk.Action) : List ChangeEvent × Live :=
  let (raw, w) := w.act actions
  (w.send raw).takeEvents

/-- The consumer asks for the end. -/
def close (w : Live) : Live :=
  w.update fun p => { p with session := p.session.close }

/-- The consumer goes away, with the given raw events pending. -/
def drop (w : Live) (pending : List RawEvent) : Live :=
  w.update fun p =>
    let p := { p with session := p.session.drop }
    pending.foldl (fun p r => p.notify w.interpretation (.ok r)) p

end Live

end SyncEndpoint.Watch
