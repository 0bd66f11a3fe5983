set_option autoImplicit false

/-! # The growable buffer

A pipe between a source that cannot be slowed down and an interpretation that takes its time. Items
enter through a bounded input; the grower moves them into the last of a chain of bounded segments,
and opens a larger one when it is half full, or a smaller one when a burst has passed; the drainer
empties the segments in the order they were opened into a bounded output.

A `Buffer` is a snapshot of all of it. Each of the functions below is one step of one of the parties,
and answers `none` when that party has to wait; `settle` runs grower and drainer until both wait. -/

namespace SyncEndpoint.Watch

/-- A bounded part of the chain. -/
structure Segment (α : Type) where
  capacity : Nat
  items : List α

/-- What the grower is doing. -/
inductive Grower (α : Type) where
  /-- Waiting for an item. -/
  | waiting
  /-- Holding an item whose segment is not chosen yet. -/
  | holding (item : α)
  /-- Holding an item that goes to the current segment. -/
  | placing (item : α)
  /-- Done: the input is closed and empty, and the last segment is sealed. -/
  | finished

/-- What the drainer is doing. -/
inductive Drainer (α : Type) where
  /-- Waiting for an item of the first segment of the chain. -/
  | waiting
  /-- Holding an item that goes to the output. -/
  | holding (item : α)
  /-- Done: the last segment is sealed and empty, and the output is closed. -/
  | finished

/-- A growable buffer. -/
structure Buffer (α : Type) where
  /-- The capacity of the input, of the output and of the first segment. -/
  initial : Nat
  input : List α
  /-- Whether more may be sent. -/
  isOpen : Bool
  grower : Grower α
  /-- The segments that are not used up, in the order they were opened. -/
  segments : List (Segment α)
  drainer : Drainer α
  output : List α

namespace Buffer

variable {α : Type}

/-- An empty buffer. Its first segment holds at least one item. -/
def empty (capacity : Nat) : Buffer α :=
  let initial := max capacity 1
  { initial, input := [], isOpen := true, grower := .waiting
    segments := [⟨initial, []⟩], drainer := .waiting, output := [] }

/-- The capacity of a new segment for the next item, when the current one has the capacity `cap`
and holds `len` items; none if the current one stays. -/
def nextCapacity (len cap initial : Nat) : Option Nat :=
  if cap / 2 ≤ len then some (cap * 2)
  else if initial ≤ len ∧ len ≤ cap / 4 then some (cap / 2)
  else none

/-! ## The producer -/

/-- Sends an item, if there is room. -/
def send? (b : Buffer α) (item : α) : Option (Buffer α) :=
  if b.isOpen && b.input.length < b.initial then some { b with input := b.input ++ [item] }
  else none

/-- Closes the input. -/
def close (b : Buffer α) : Buffer α :=
  { b with isOpen := false }

/-! ## The grower -/

/-- The grower takes an item, or finishes when the input is closed and empty. -/
def growerTake? (b : Buffer α) : Option (Buffer α) :=
  match b.grower, b.input with
  | .waiting, item :: rest => some { b with input := rest, grower := .holding item }
  | .waiting, [] => if b.isOpen then none else some { b with grower := .finished }
  | _, _ => none

/-- The grower chooses a segment for its item, opening one if need be. -/
def growerChoose? (b : Buffer α) : Option (Buffer α) :=
  match b.grower, b.segments.getLast? with
  | .holding item, some current =>
    match nextCapacity current.items.length current.capacity b.initial with
    | some capacity =>
      some { b with segments := b.segments ++ [⟨capacity, []⟩], grower := .placing item }
    | none => some { b with grower := .placing item }
  | _, _ => none

/-- The grower puts its item into the current segment, if there is room. -/
def growerPlace? (b : Buffer α) : Option (Buffer α) :=
  match b.grower, b.segments.getLast? with
  | .placing item, some current =>
    if current.items.length < current.capacity then
      let filled : Segment α := { current with items := current.items ++ [item] }
      some { b with segments := b.segments.dropLast ++ [filled], grower := .waiting }
    else none
  | _, _ => none

/-! ## The drainer -/

/-- The drainer takes an item, passes on to the next segment, or finishes when the last segment is
sealed and empty. -/
def drainerTake? (b : Buffer α) : Option (Buffer α) :=
  match b.drainer, b.segments with
  | .waiting, ⟨capacity, item :: items⟩ :: rest =>
    some { b with segments := ⟨capacity, items⟩ :: rest, drainer := .holding item }
  | .waiting, ⟨_, []⟩ :: next :: rest => some { b with segments := next :: rest }
  | .waiting, [⟨_, []⟩] =>
    match b.grower with
    | .finished => some { b with drainer := .finished }
    | _ => none
  | _, _ => none

/-- The drainer puts its item into the output, if there is room. -/
def drainerGive? (b : Buffer α) : Option (Buffer α) :=
  match b.drainer with
  | .holding item =>
    if b.output.length < b.initial then
      some { b with output := b.output ++ [item], drainer := .waiting }
    else none
  | _ => none

/-! ## The consumer -/

/-- Takes an item from the output. -/
def receive? (b : Buffer α) : Option (α × Buffer α) :=
  match b.output with
  | item :: rest => some (item, { b with output := rest })
  | [] => none

/-- Whether nothing more will come. -/
def isEnded (b : Buffer α) : Bool :=
  b.output.isEmpty && match b.drainer with
    | .finished => true
    | _ => false

/-! ## Running -/

/-- A step of the grower or of the drainer, whoever can take one. -/
def internal? (b : Buffer α) : Option (Buffer α) :=
  b.drainerGive? <|> b.drainerTake? <|> b.growerPlace? <|> b.growerChoose? <|> b.growerTake?

/-- How many more steps grower and drainer can take without producer and consumer: each step
brings an item at least one place further on, and an item may open one segment. -/
def work (b : Buffer α) : Nat :=
  let stored := b.segments.foldl (fun n s => n + s.items.length + s.items.length + 1) 0
  let held := match b.grower with
    | .waiting => 1
    | .holding _ => 6
    | .placing _ => 4
    | .finished => 0
  let carried := match b.drainer with
    | .waiting => 1
    | .holding _ => 2
    | .finished => 0
  7 * b.input.length + held + stored + carried

/-- At most `n` steps of grower and drainer. -/
def run : Nat → Buffer α → Buffer α
  | 0, b => b
  | n + 1, b =>
    match b.internal? with
    | some b' => run n b'
    | none => b

/-- Runs grower and drainer until both wait. -/
def settle (b : Buffer α) : Buffer α :=
  b.run b.work

/-- Sends an item after everything else has settled, so that there is room. -/
def push (b : Buffer α) (item : α) : Buffer α :=
  let b := b.settle
  (b.send? item).getD b

/-- Takes the next item after everything else has settled. -/
def pull (b : Buffer α) : Option α × Buffer α :=
  let b := b.settle
  match b.receive? with
  | some (item, b') => (some item, b')
  | none => (none, b)

/-- Takes `n` times. -/
def pullMany : Nat → Buffer α → List (Option α) × Buffer α
  | 0, b => ([], b)
  | n + 1, b =>
    let (item, b) := b.pull
    let (items, b) := pullMany n b
    (item :: items, b)

/-- Everything that is inside, in the order it will come out. -/
def toList (b : Buffer α) : List α :=
  let carried := match b.drainer with
    | .holding item => [item]
    | _ => []
  let held := match b.grower with
    | .holding item | .placing item => [item]
    | _ => []
  b.output ++ carried ++ b.segments.flatMap (·.items) ++ held ++ b.input

end Buffer

end SyncEndpoint.Watch
