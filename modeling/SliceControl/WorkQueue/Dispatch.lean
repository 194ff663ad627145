import SliceControl.WorkQueue

/-!
# Handing out keys to callers

Callers ask the queue for a key and park while there is none. A signal wakes the caller that has
been parked longest; when nobody is parked it leaves a permit, and at most one permit is kept. The
first caller to park with a permit there takes it and looks again.

Changing the queue and sending the signal are separate steps, as are finding the queue empty and
parking, so the steps of several callers may come in any order. A caller that takes a key while
others wait passes a signal on.
-/

namespace SliceControl

/-- How far a caller has come. -/
inductive CallerPhase where
  /-- About to look into the queue. -/
  | looking
  /-- Found the queue empty and is about to park. -/
  | parking
  /-- Waits for a signal. -/
  | parked
  /-- Took a key and is about to pass a signal on. -/
  | signalling (key : String)
  /-- Has its key. -/
  | served (key : String)
  deriving DecidableEq

/-- The queue with its callers. -/
structure Dispatch where
  queue : WorkQueue
  permit : Bool
  /-- Parked callers, the longest parked first. -/
  parked : List Nat
  /-- Callers by number. -/
  callers : List (Nat × CallerPhase)
  /-- Signals that are still to be sent for keys that were put in line. -/
  owed : Nat
  deriving DecidableEq

namespace Dispatch

def empty : Dispatch := ⟨.empty, false, [], [], 0⟩

/-- Sets how far a caller has come. -/
def setPhase (dispatch : Dispatch) (caller : Nat) (phase : CallerPhase) : Dispatch :=
  { dispatch with
    callers := dispatch.callers.map fun entry =>
      if entry.1 = caller then (caller, phase) else entry }

/-- Wakes the longest parked caller, or leaves a permit. -/
def signal (dispatch : Dispatch) : Dispatch :=
  match dispatch.parked with
  | caller :: rest => { dispatch with parked := rest }.setPhase caller .looking
  | [] => { dispatch with permit := true }

/-! ## Steps -/

/-- A new caller. -/
def arrive (dispatch : Dispatch) (caller : Nat) : Dispatch :=
  { dispatch with callers := dispatch.callers ++ [(caller, .looking)] }

/-- A caller goes away. -/
def leave (dispatch : Dispatch) (caller : Nat) : Dispatch :=
  { dispatch with
    callers := dispatch.callers.filter fun entry => entry.1 ≠ caller
    parked := dispatch.parked.filter (· ≠ caller) }

/-- Keeps a changed queue and owes a signal if a key was put in line. -/
def withQueue (dispatch : Dispatch) (changed : WorkQueue × Bool) : Dispatch :=
  { dispatch with
    queue := changed.1
    owed := if changed.2 then dispatch.owed + 1 else dispatch.owed }

def add (dispatch : Dispatch) (key : String) : Dispatch :=
  dispatch.withQueue (dispatch.queue.add key)

def done (dispatch : Dispatch) (key : String) : Dispatch :=
  dispatch.withQueue (dispatch.queue.done key)

/-- Sends a signal that is owed. -/
def sendOwed (dispatch : Dispatch) : Dispatch :=
  match dispatch.owed with
  | 0 => dispatch
  | owed + 1 => { dispatch with owed }.signal

/-- The next step of a caller. A parked caller and one with a key have none. -/
def advance (dispatch : Dispatch) (caller : Nat) : CallerPhase → Dispatch
  | .looking =>
    match dispatch.queue.next? with
    | some (key, queue, more) =>
      { dispatch with queue }.setPhase caller (if more then .signalling key else .served key)
    | none => dispatch.setPhase caller .parking
  | .parking =>
    if dispatch.permit then { dispatch with permit := false }.setPhase caller .looking
    else { dispatch with parked := dispatch.parked ++ [caller] }.setPhase caller .parked
  | .signalling key => dispatch.signal.setPhase caller (.served key)
  | .parked => dispatch
  | .served _ => dispatch

/-! ## Running to rest -/

def isActive : CallerPhase → Bool
  | .looking | .parking | .signalling _ => true
  | .parked | .served _ => false

/-- One step of something that is not at rest: first the owed signals, then the first active
caller. -/
def step? (dispatch : Dispatch) : Option Dispatch :=
  if dispatch.owed = 0 then
    (dispatch.callers.find? fun entry => isActive entry.2).map fun (caller, phase) =>
      dispatch.advance caller phase
  else some dispatch.sendOwed

/-- Takes up to `fuel` steps, until everything is at rest. -/
def runSteps : Nat → Dispatch → Dispatch
  | 0, dispatch => dispatch
  | fuel + 1, dispatch =>
    match dispatch.step? with
    | some next => runSteps fuel next
    | none => dispatch

/-- Enough steps for everything to come to rest: every caller looks, parks or signals a few times
for each signal, and there is a signal at most for each waiting key. -/
def stepBound (dispatch : Dispatch) : Nat :=
  4 * (dispatch.callers.length + dispatch.queue.size + dispatch.owed + 2) *
    (dispatch.callers.length + 1)

/-- Lets everything come to rest. -/
def settle (dispatch : Dispatch) : Dispatch := dispatch.runSteps dispatch.stepBound

/-- The key of a caller that has one. -/
def served? (dispatch : Dispatch) (caller : Nat) : Option String :=
  match dispatch.callers.find? (·.1 = caller) with
  | some (_, .served key) => some key
  | _ => none

/-- Asks for a key without waiting: a caller that looks, and goes away again if it has to park. -/
def poll (dispatch : Dispatch) (caller : Nat) : Option String × Dispatch :=
  let settled := (dispatch.arrive caller).settle
  (settled.served? caller, settled.leave caller)

end Dispatch

end SliceControl
