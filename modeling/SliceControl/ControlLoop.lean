import SliceControl.Agenda
import SliceControl.Cluster
import SliceControl.WorkQueue.Dispatch

/-!
# The control loop

Workers take keys from the work queue and make a pass over each. A published key is forwarded to the
queue; when keys were dropped on the way, all keys are listed and added instead, and the same
happens at every tick of the resync interval. After a pass the key is added again when the outcome
asks for it, or after a delay that grows with the failures in a row.

Everything that can happen at a moment happens before time moves on, and what waits for a later
moment stands on the agenda: delayed adds, ticks, and passes and listings that wait before they
repeat a call.
-/

namespace SliceControl

/-- Who lists all keys. -/
inductive Lister where
  | forwarder
  /-- The tick, and the time of the next one. -/
  | ticker (next : Nat)

/-- What is to happen later. -/
inductive Alarm where
  | add (key : String)
  | tick
  | work (worker : Nat) (key : String) (rest : StoreProcedure (Except PassError Outcome))
  | list (lister : Lister) (rest : StoreProcedure (Except StoreError (List String)))

/-- What follows a pass over a key: the queue with its failures counted or forgotten, and after how
many milliseconds the key is to be added again, if at all. -/
def PassSettings.followUp (settings : PassSettings) (queue : WorkQueue) (key : String) :
    Except PassError Outcome → WorkQueue × Option Nat
  | .ok outcome => (queue.forget key, outcome.requeueAfter.map Duration.millisCeil)
  | .error _ =>
    let (failures, queue) := queue.recordFailure key
    (queue, some (settings.retry.backoffMs failures))

/-- The cluster with its work queue, workers and agenda. -/
structure ControlLoop where
  cluster : Cluster
  settings : PassSettings
  dispatch : Dispatch
  /-- Whether published keys are being forwarded at the moment. -/
  forwarding : Bool
  agenda : Agenda Alarm

namespace ControlLoop

/-- A cluster without workers, where only requests from outside happen. -/
def idle (settings : PassSettings) (now : Instant) : ControlLoop :=
  ⟨.start now, settings, .empty, false, .empty⟩

/-- The resync interval in milliseconds. -/
def interval (loop : ControlLoop) : Nat := loop.settings.resyncInterval.millisCeil

/-- A cluster with at least one worker, and a first tick at once. -/
def running (settings : PassSettings) (workers : Nat) (now : Instant) : ControlLoop :=
  let loop := idle settings now
  { loop with
    cluster := { loop.cluster with channel := some .empty }
    dispatch := (List.range (max workers 1)).foldl Dispatch.arrive .empty
    forwarding := true
    agenda := if loop.interval = 0 then .empty else loop.agenda.schedule 0 .tick }

/-! ## Single events -/

def addKey (loop : ControlLoop) (key : String) : ControlLoop :=
  { loop with dispatch := loop.dispatch.add key }

/-- Enters an alarm that rings after `millis`. -/
def scheduleIn (loop : ControlLoop) (millis : Nat) (alarm : Alarm) : ControlLoop :=
  { loop with agenda := loop.agenda.schedule (loop.cluster.elapsed + millis) alarm }

/-- Settles a key after a pass: when to add it again, and how many failures it has. -/
def recordResult (loop : ControlLoop) (key : String) (result : Except PassError Outcome) :
    ControlLoop :=
  let (queue, delay) := loop.settings.followUp loop.dispatch.queue key result
  let recorded := { loop with dispatch := { loop.dispatch with queue } }
  match delay with
  | some millis => recorded.scheduleIn millis (.add key)
  | none => recorded

/-- Ends the work of a worker on a key; the worker then asks for the next key. -/
def finishWork (loop : ControlLoop) (worker : Nat) (key : String)
    (result : Except PassError Outcome) : ControlLoop :=
  let recorded := loop.recordResult key result
  { recorded with dispatch := (recorded.dispatch.done key).arrive worker }

/-- Goes on with a pass until it ends or waits. -/
def work (loop : ControlLoop) (worker : Nat) (key : String)
    (procedure : StoreProcedure (Except PassError Outcome)) : ControlLoop :=
  match procedure.runUntilSleep Cluster.world loop.cluster with
  | (.finished result, cluster) => { loop with cluster }.finishWork worker key result
  | (.asleep millis rest, cluster) =>
    { loop with cluster }.scheduleIn millis (.work worker key rest)

/-- Ends a listing: the keys are added, and whoever listed them goes on. -/
def finishList (loop : ControlLoop) (lister : Lister)
    (result : Except StoreError (List String)) : ControlLoop :=
  let added := match result with
    | .ok keys => keys.foldl addKey loop
    | .error _ => loop
  match lister with
  | .forwarder => { added with forwarding := true }
  | .ticker next => { added with agenda := added.agenda.schedule next .tick }

/-- Goes on with a listing until it ends or waits. -/
def list (loop : ControlLoop) (lister : Lister)
    (procedure : StoreProcedure (Except StoreError (List String))) : ControlLoop :=
  match procedure.runUntilSleep Cluster.world loop.cluster with
  | (.finished result, cluster) => { loop with cluster }.finishList lister result
  | (.asleep millis rest, cluster) => { loop with cluster }.scheduleIn millis (.list lister rest)

/-- Forwards what comes off the channel. -/
def forward (loop : ControlLoop) (received : EventChannel.Received) : ControlLoop :=
  match received with
  | .key key => loop.addKey key
  | .lagged _ => { loop with forwarding := false }.list .forwarder loop.settings.listKeys

/-- Lets an alarm ring that was due at `due`. -/
def ring (due : Nat) (loop : ControlLoop) : Alarm → ControlLoop
  | .add key => loop.addKey key
  | .tick => loop.list (.ticker (due + loop.interval)) loop.settings.listKeys
  | .work worker key rest => loop.work worker key rest
  | .list lister rest => loop.list lister rest

/-! ## Running to rest -/

/-- The first worker that has been handed a key. -/
def served? (loop : ControlLoop) : Option (Nat × String) :=
  loop.dispatch.callers.findSome? fun entry =>
    match entry.2 with
    | .served key => some (entry.1, key)
    | _ => none

/-- What comes off the channel next, while keys are being forwarded. -/
def received? (loop : ControlLoop) : Option (EventChannel.Received × ControlLoop) :=
  if loop.forwarding then
    (loop.cluster.channel.bind EventChannel.receive?).map fun (received, channel) =>
      (received, { loop with cluster := { loop.cluster with channel := some channel } })
  else none

/-- One thing that can happen at once: a worker begins a pass, a published key is forwarded, or a
worker takes a step towards its next key. -/
def step? (loop : ControlLoop) : Option ControlLoop :=
  match loop.served? with
  | some (worker, key) =>
    some ({ loop with dispatch := loop.dispatch.leave worker }.work worker key
      (loop.settings.pass key))
  | none =>
    match loop.received? with
    | some (received, rest) => some (rest.forward received)
    | none => loop.dispatch.step?.map fun dispatch => { loop with dispatch }

/-- Takes up to `fuel` steps, until nothing can happen at once. -/
def runSteps : Nat → ControlLoop → ControlLoop
  | 0, loop => loop
  | fuel + 1, loop =>
    match loop.step? with
    | some next => runSteps fuel next
    | none => loop

/-- A bound on the steps that are taken at one moment. -/
def stepBound : Nat := 100000

/-- Lets everything happen that can happen at once. -/
def settle (loop : ControlLoop) : ControlLoop := runSteps stepBound loop

/-- Moves the clock forward to `time`. -/
def moveClock (loop : ControlLoop) (time : Nat) : ControlLoop :=
  { loop with cluster := loop.cluster.elapse (time - loop.cluster.elapsed) }

/-- Lets the alarms ring that are due at `due`, and everything happen that they set off. -/
def fire (loop : ControlLoop) (due : Nat) : ControlLoop :=
  let (alarms, agenda) := loop.agenda.takeAt due
  (alarms.foldl (ring due) ({ loop with agenda }.moveClock due)).settle

/-- Lets time move on to `target`, with at most `fuel` stops on the way. -/
def moveTo (target : Nat) : Nat → ControlLoop → ControlLoop
  | 0, loop => loop.moveClock target
  | fuel + 1, loop =>
    match loop.agenda.earliest? with
    | some due => if due ≤ target then moveTo target fuel (loop.fire due) else loop.moveClock target
    | none => loop.moveClock target

/-- A bound on the stops while `millis` pass. -/
def stopBound (loop : ControlLoop) (millis : Nat) : Nat :=
  64 * (millis + 1) + loop.agenda.entries.length

/-- Lets `millis` pass, with all that happens meanwhile. -/
def advance (millis : Nat) (loop : ControlLoop) : ControlLoop :=
  loop.settle.moveTo (loop.cluster.elapsed + millis) (loop.stopBound millis)

/-- A world for procedures, in which the control loop goes on while they wait. -/
def world : World StoreRequest StoreRequest.Reply ControlLoop where
  serve := fun request loop =>
    let (reply, cluster) := loop.cluster.serve request
    (reply, { loop with cluster })
  elapse := advance
  now := fun loop => loop.cluster.now

/-- Carries out a procedure from outside. -/
def perform {α : Type} (loop : ControlLoop) (procedure : StoreProcedure α) : α × ControlLoop :=
  procedure.run world loop

end ControlLoop

end SliceControl
