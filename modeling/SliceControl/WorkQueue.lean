import SliceControl.SortedMap

/-!
# The work queue

Keys wait in the order in which they arrived, each at most once. A key that is being worked on is
in flight and is not handed out again; when it is added meanwhile it becomes dirty, and it waits
again once the work on it is done. Failures in a row are counted for each key.
-/

namespace SliceControl

/-- The keys that wait, are worked on, or have to be worked on again. -/
structure WorkQueue where
  /-- Waiting keys, the longest waiting first. -/
  pending : List String
  queued : NameSet
  inFlight : NameSet
  dirty : NameSet
  failures : SortedMap Nat
  deriving DecidableEq

namespace WorkQueue

def empty : WorkQueue := ⟨[], .empty, .empty, .empty, .empty⟩

/-- Lets a key wait, unless it does already; says whether it was put in line. -/
def enqueue (queue : WorkQueue) (key : String) : WorkQueue × Bool :=
  if queue.queued.contains key then (queue, false)
  else ({ queue with pending := queue.pending ++ [key], queued := queue.queued.add key }, true)

/-- Adds a key; says whether it was put in line. -/
def add (queue : WorkQueue) (key : String) : WorkQueue × Bool :=
  if queue.inFlight.contains key then ({ queue with dirty := queue.dirty.add key }, false)
  else queue.enqueue key

/-- Hands out the key that has waited longest; says whether others still wait. -/
def next? (queue : WorkQueue) : Option (String × WorkQueue × Bool) :=
  match queue.pending with
  | [] => none
  | key :: rest =>
    some (key,
      { queue with
        pending := rest
        queued := queue.queued.erase key
        inFlight := queue.inFlight.add key },
      !rest.isEmpty)

/-- Ends the work on a key, which waits again if it is dirty; says whether it was put in line. -/
def done (queue : WorkQueue) (key : String) : WorkQueue × Bool :=
  let released := { queue with inFlight := queue.inFlight.erase key }
  if queue.dirty.contains key then { released with dirty := queue.dirty.erase key }.enqueue key
  else (released, false)

/-- Counts a failure; gives the number of failures in a row. -/
def recordFailure (queue : WorkQueue) (key : String) : Nat × WorkQueue :=
  let count := (queue.failures.get? key).getD 0 + 1
  (count, { queue with failures := queue.failures.insert key count })

/-- Forgets the failures of a key. -/
def forget (queue : WorkQueue) (key : String) : WorkQueue :=
  { queue with failures := queue.failures.erase key }

/-- The number of waiting keys. -/
def size (queue : WorkQueue) : Nat := queue.pending.length

def isEmpty (queue : WorkQueue) : Bool := queue.pending.isEmpty

end WorkQueue

end SliceControl
