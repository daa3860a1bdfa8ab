import TestRig.Config

/-!
# Bounded queues

First in, first out, with a capacity and a policy for a push that finds the queue full. A closed
queue takes nothing more, but what it holds can still be popped.

A push or a pop that has to wait changes nothing and says so; it is tried again after the next
change of the queue. `pushDuring` and `popDuring` do that for a single change made meanwhile.
-/

namespace TestRig

/-- A bounded first-in-first-out queue. -/
structure Queue (α : Type) where
  /-- The number of items that may wait. -/
  capacity : Nat
  /-- What happens to a push that finds the queue full. -/
  policy : OverflowPolicy
  /-- The waiting items, oldest first. -/
  items : List α := []
  /-- Nothing more is taken. -/
  closed : Bool := false
  deriving Repr, Inhabited

/-- What became of a push. -/
inductive Pushed (α : Type) where
  /-- The item was queued; the oldest one may have made room for it. -/
  | accepted (evicted : Option α)
  | refused (failure : Failure)
  /-- There is no room yet. -/
  | waiting
  deriving Repr, Inhabited

/-- What became of a pop that is ready to wait. -/
inductive Popped (α : Type) where
  /-- The oldest item. -/
  | item (a : α)
  /-- The queue is closed and empty. -/
  | ended
  /-- There is no item yet. -/
  | waiting
  deriving Repr, Inhabited

namespace Queue

variable {α : Type}

/-- The empty queue of a capacity; zero counts as one. -/
def empty (capacity : Nat) (policy : OverflowPolicy) : Queue α where
  capacity := max capacity 1
  policy := policy

/-- Number of waiting items. -/
def length (queue : Queue α) : Nat :=
  queue.items.length

/-- Nothing waits. -/
def isEmpty (queue : Queue α) : Bool :=
  queue.items.isEmpty

/-- There is room for one more item. -/
def hasRoom (queue : Queue α) : Bool :=
  queue.items.length < queue.capacity

/-- Puts an item at the back. -/
def append (queue : Queue α) (a : α) : Queue α :=
  { queue with items := queue.items ++ [a] }

/-- Puts an item at the back and drops the oldest one. -/
def replaceOldest (queue : Queue α) (a : α) : Pushed α × Queue α :=
  match queue.items with
  | [] => (.accepted none, queue.append a)
  | oldest :: rest => (.accepted (some oldest), { queue with items := rest ++ [a] })

/-- Tries to put an item at the back. -/
def push (queue : Queue α) (a : α) : Pushed α × Queue α :=
  if queue.closed then (.refused .queueClosed, queue)
  else if queue.hasRoom then (.accepted none, queue.append a)
  else
    match queue.policy with
    | .reject => (.refused (.queueFull queue.capacity), queue)
    | .dropOldest => queue.replaceOldest a
    | .block => (.waiting, queue)

/-- Takes the oldest item, if there is one. -/
def tryPop (queue : Queue α) : Option α × Queue α :=
  match queue.items with
  | [] => (none, queue)
  | a :: rest => (some a, { queue with items := rest })

/-- Takes the oldest item, or waits for one while the queue is open. -/
def pop (queue : Queue α) : Popped α × Queue α :=
  match queue.items with
  | [] => (if queue.closed then .ended else .waiting, queue)
  | a :: rest => (.item a, { queue with items := rest })

/-- Drops all items and tells their number. -/
def clear (queue : Queue α) : Nat × Queue α :=
  (queue.length, { queue with items := [] })

/-- Takes nothing more from now on. -/
def close (queue : Queue α) : Queue α :=
  { queue with closed := true }

/-- A push, and a change that is made while it waits, or behind it if it does not have to. -/
def pushDuring {β : Type} (queue : Queue α) (a : α) (change : Queue α → β × Queue α) :
    Pushed α × β × Queue α :=
  match queue.push a with
  | (.waiting, queue) =>
    let (b, queue) := change queue
    let (pushed, queue) := queue.push a
    (pushed, b, queue)
  | (pushed, queue) =>
    let (b, queue) := change queue
    (pushed, b, queue)

/-- A pop, and a change that is made while it waits, or behind it if it does not have to. -/
def popDuring {β : Type} (queue : Queue α) (change : Queue α → β × Queue α) :
    Popped α × β × Queue α :=
  match queue.pop with
  | (.waiting, queue) =>
    let (b, queue) := change queue
    let (popped, queue) := queue.pop
    (popped, b, queue)
  | (popped, queue) =>
    let (b, queue) := change queue
    (popped, b, queue)

/-- One line that shows the state of a queue. -/
def describe (queue : Queue α) : String :=
  s!"BoundedQueue \x7b len: {queue.length}, capacity: {queue.capacity}, policy: " ++
    queue.policy.describe ++ s!", closed: {queue.closed} \x7d"

end Queue

end TestRig
