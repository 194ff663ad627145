import SliceControl.Agenda
import SliceControl.WorkQueue.Dispatch

/-!
# Delayed adds

Keys may be added after a delay. Time is counted in milliseconds; when it moves on, the adds that
fall due happen in order, each one followed by everything that it sets off.
-/

namespace SliceControl

/-- A queue with its callers, the adds that are still to come, and the time. -/
structure TimedQueue where
  dispatch : Dispatch
  agenda : Agenda String
  elapsed : Nat

namespace TimedQueue

def empty : TimedQueue := ⟨.empty, .empty, 0⟩

/-- Does something with the callers and lets them come to rest. -/
def act (timed : TimedQueue) (change : Dispatch → Dispatch) : TimedQueue :=
  { timed with dispatch := (change timed.dispatch).settle }

/-- Adds the keys that fall due at `due`. -/
def fire (timed : TimedQueue) (due : Nat) : TimedQueue :=
  let (keys, agenda) := timed.agenda.takeAt due
  keys.foldl (fun timed key => timed.act (·.add key)) { timed with agenda, elapsed := due }

/-- Lets time move on to `target`, with at most `fuel` stops on the way. -/
def moveTo (target : Nat) : Nat → TimedQueue → TimedQueue
  | 0, timed => { timed with elapsed := target }
  | fuel + 1, timed =>
    match timed.agenda.earliest? with
    | some due =>
      if due ≤ target then moveTo target fuel (timed.fire due) else { timed with elapsed := target }
    | none => { timed with elapsed := target }

/-- Lets `millis` pass. Every stop takes an entry off the agenda, so there is one stop at most for
each entry. -/
def advance (timed : TimedQueue) (millis : Nat) : TimedQueue :=
  timed.moveTo (timed.elapsed + millis) timed.agenda.entries.length

/-- Adds a key after `millis`, at once if there is no delay. -/
def addAfter (timed : TimedQueue) (key : String) (millis : Nat) : TimedQueue :=
  { timed with agenda := timed.agenda.schedule (timed.elapsed + millis) key }.advance 0

end TimedQueue

end SliceControl
