import SyncEndpoint.Path.Canonical
import SyncEndpoint.Watch.Pipeline

set_option autoImplicit false

/-! # The watches of an endpoint

A path that is watched is taken until its pipeline frees it, so that it has one session at most. A
watch call takes the path first; when it cannot go on, it gives the path back. -/

namespace SyncEndpoint.Watch

/-- Who holds a path, or has held it. -/
inductive Holder where
  /-- A watch call that has not come to an end. -/
  | call
  | pipeline (p : Pipeline)

def Holder.holdsPath : Holder → Bool
  | .call => true
  | .pipeline p => p.task.holdsPath

/-- A path that was taken, with who holds it. -/
structure Reservation where
  path : String
  holder : Holder

/-- The watches of an endpoint. A reservation has the number of the call that made it. -/
structure Registry where
  /-- The paths that are taken. -/
  active : List String := []
  reservations : List (Nat × Reservation) := []
  /-- The number of the next call. -/
  next : Nat := 0

namespace Registry

/-- The reservation of a call. -/
def find? (r : Registry) (id : Nat) : Option Reservation :=
  (r.reservations.find? (·.1 == id)).map (·.2)

/-- The pipeline of a call. -/
def pipeline? (r : Registry) (id : Nat) : Option Pipeline :=
  match r.find? id with
  | some ⟨_, .pipeline p⟩ => some p
  | _ => none

def free (r : Registry) (path : String) : Registry :=
  { r with active := r.active.filter (· != path) }

/-- Puts another holder in the place of one; if it does not hold the path any more, the path is
free. -/
def replace (r : Registry) (id : Nat) (new : Holder) : Registry :=
  match r.find? id with
  | none => r
  | some taken =>
    let reservations := r.reservations.map fun (i, old) =>
      if i == id then (i, { old with holder := new }) else (i, old)
    let r := { r with reservations }
    if taken.holder.holdsPath && !new.holdsPath then r.free taken.path else r

/-- A watch call takes a path: the number of the call. -/
def begin (r : Registry) (subPath : String) : Except SyncError (Nat × Registry) :=
  let path := CanonicalPath.clean subPath
  if r.active.contains path then .error (.alreadyWatching path)
  else .ok (r.next,
    { active := path :: r.active, reservations := (r.next, ⟨path, .call⟩) :: r.reservations
      next := r.next + 1 })

/-- A watch call has led to a pipeline. -/
def succeed (r : Registry) (id : Nat) (p : Pipeline) : Registry :=
  r.replace id (.pipeline p)

/-- A watch call has failed, and gives its path back. -/
def fail (r : Registry) (id : Nat) : Registry :=
  match r.find? id with
  | none => r
  | some taken =>
    { r.free taken.path with reservations := r.reservations.filter (·.1 != id) }

/-- Something happens to a pipeline. -/
def update (r : Registry) (id : Nat) (f : Pipeline → Pipeline) : Registry :=
  match r.pipeline? id with
  | some p => r.replace id (.pipeline (f p))
  | none => r

/-- How many paths are taken. -/
def size (r : Registry) : Nat :=
  r.active.length

end Registry

end SyncEndpoint.Watch
