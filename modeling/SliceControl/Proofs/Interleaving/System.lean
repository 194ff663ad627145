import Mathlib.Logic.Function.Basic
import SliceControl.ControlLoop
import SliceControl.Proofs.Pass.Run
import SliceControl.Proofs.Store.Mutation
import SliceControl.Proofs.WorkQueue.Consistency

/-!
# Interleavings

The cluster, the work queue, the delayed adds and the workers, with everything that may happen to
them in any order: changes from outside, keys that are forwarded from the channel, delayed adds,
time that passes, and the workers, who take a key, make a pass over it, arrange what follows and end
their round. A pass is one event, and calls may fail during it. A run is a list of events; an event
that cannot happen changes nothing.
-/

namespace SliceControl

/-- Where a worker is in its round. -/
inductive WorkerStage where
  | free
  /-- A key has been taken. -/
  | working (key : String)
  /-- The pass is over. -/
  | passed (key : String) (result : Except PassError Outcome)
  /-- What follows the pass has been arranged. -/
  | recorded (key : String)

namespace WorkerStage

/-- The key that the worker works on. -/
def key? : WorkerStage → Option String
  | free => none
  | working key => some key
  | passed key _ => some key
  | recorded key => some key

/-- The key that the worker works on and for which it will arrange nothing more. -/
def leaves? : WorkerStage → Option String
  | passed key (.ok ⟨_, none⟩) => some key
  | recorded key => some key
  | _ => none

theorem key?_of_leaves? {stage : WorkerStage} {key : String} (h : stage.leaves? = some key) :
    stage.key? = some key := by
  unfold leaves? at h
  split at h
  · exact h
  · exact h
  · cases h

end WorkerStage

/-- Outages that do not pretend that something is missing or there already. -/
abbrev HonestOutages := { plan : OutagePlan // plan.IsHonest }

def HonestOutages.none : HonestOutages := ⟨.empty, OutagePlan.isHonest_empty⟩

/-- What may happen. -/
inductive Event where
  | mutate (mutation : Mutation)
  /-- The next key on the channel is forwarded to the queue. -/
  | deliver
  /-- One of the delayed adds is made, if it is due. -/
  | fire (index : Nat)
  /-- A free worker takes the key that has waited longest. -/
  | take (worker : Nat)
  | pass (worker : Nat) (outages : HonestOutages)
  | record (worker : Nat)
  /-- A worker ends its round. -/
  | finish (worker : Nat)
  /-- Time passes, and the clock on the wall may be set anew. -/
  | wait (millis : Nat) (now : Instant)

/-- The cluster, with the work queue, the delayed adds and any number of workers. -/
structure System where
  cluster : Cluster
  queue : WorkQueue
  delayed : Agenda String
  workers : Nat → WorkerStage

namespace System

/-- The store is empty, the channel is listened to, and all workers are free. -/
def start (now : Instant) : System :=
  ⟨{ Cluster.start now with channel := some .empty }, .empty, .empty, fun _ ↦ .free⟩

def setWorker (system : System) (worker : Nat) (stage : WorkerStage) : System :=
  { system with workers := Function.update system.workers worker stage }

def addKey (system : System) (key : String) : System :=
  { system with queue := (system.queue.add key).1 }

/-- A change from outside is made, and its keys are published. -/
def mutate (system : System) (mutation : Mutation) : System :=
  let (store, keys) := mutation.effect system.cluster.store system.cluster.now
  { system with cluster := system.cluster.publish store keys }

def deliver (system : System) : System :=
  match system.cluster.channel.bind EventChannel.receive? with
  | some (.key key, rest) => { system with cluster.channel := some rest }.addKey key
  | _ => system

def fire (system : System) (index : Nat) : System :=
  match system.delayed.entries[index]? with
  | some (due, key) =>
    if due ≤ system.cluster.elapsed then
      { system with delayed := ⟨system.delayed.entries.eraseIdx index⟩ }.addKey key
    else system
  | none => system

def take (system : System) (worker : Nat) : System :=
  match system.workers worker, system.queue.next? with
  | .free, some (key, queue, _) => { system with queue }.setWorker worker (.working key)
  | _, _ => system

/-- A worker makes a pass over its key, during which calls fail as planned. -/
def pass (settings : PassSettings) (system : System) (worker : Nat) (outages : OutagePlan) :
    System :=
  match system.workers worker with
  | .working key =>
    let (result, cluster) := (settings.pass key).run Cluster.world { system.cluster with outages }
    { system with cluster }.setWorker worker (.passed key result)
  | _ => system

/-- A worker arranges what follows its pass. -/
def record (settings : PassSettings) (system : System) (worker : Nat) : System :=
  match system.workers worker with
  | .passed key result =>
    let (queue, delay) := settings.followUp system.queue key result
    let delayed := match delay with
      | some millis => system.delayed.schedule (system.cluster.elapsed + millis) key
      | none => system.delayed
    { system with queue, delayed }.setWorker worker (.recorded key)
  | _ => system

def finish (system : System) (worker : Nat) : System :=
  match system.workers worker with
  | .recorded key => { system with queue := (system.queue.done key).1 }.setWorker worker .free
  | _ => system

def wait (system : System) (millis : Nat) (now : Instant) : System :=
  { system with
    cluster := { system.cluster with now, elapsed := system.cluster.elapsed + millis } }

/-! Only changes from outside, deliveries, passes and waits touch the cluster. -/

@[simp] theorem cluster_fire (system : System) (index : Nat) :
    (system.fire index).cluster = system.cluster := by
  unfold fire
  split
  · split_ifs <;> rfl
  · rfl

@[simp] theorem cluster_take (system : System) (worker : Nat) :
    (system.take worker).cluster = system.cluster := by
  unfold take
  split <;> rfl

@[simp] theorem cluster_record (settings : PassSettings) (system : System) (worker : Nat) :
    (system.record settings worker).cluster = system.cluster := by
  unfold record
  split <;> rfl

@[simp] theorem cluster_finish (system : System) (worker : Nat) :
    (system.finish worker).cluster = system.cluster := by
  unfold finish
  split <;> rfl

/-- Lets an event happen. -/
def act (settings : PassSettings) (system : System) : Event → System
  | .mutate mutation => system.mutate mutation
  | .deliver => system.deliver
  | .fire index => system.fire index
  | .take worker => system.take worker
  | .pass worker outages => system.pass settings worker outages.val
  | .record worker => system.record settings worker
  | .finish worker => system.finish worker
  | .wait millis now => system.wait millis now

/-- Where a list of events leads. -/
def run (settings : PassSettings) (now : Instant) (events : List Event) : System :=
  events.foldl (act settings) (start now)

/-- The channel has not dropped a key. -/
def Lossless (system : System) : Prop :=
  ∀ channel, system.cluster.channel = some channel → channel.missed = 0

/-- A key is on the channel, it waits in the queue or is dirty, or it is to be added later. -/
def Waits (system : System) (key : String) : Prop :=
  (∃ channel, system.cluster.channel = some channel ∧ key ∈ channel.waiting) ∨
    system.queue.Awaits key ∨ ∃ due, (due, key) ∈ system.delayed.entries

/-- A key waits somewhere, or it is in flight. -/
def Tracks (system : System) (key : String) : Prop :=
  system.Waits key ∨ system.queue.inFlight.contains key = true

end System

namespace Sample

def settings : PassSettings := ⟨"tpu-slice", .ofSeconds 600, .ofSeconds 300, .default⟩

/-- The sample node and the sample workload are registered, and a worker makes a pass. -/
def events : List Event :=
  [.mutate (.upsertNode node), .mutate (.upsertWorkload workload), .deliver, .take 0,
    .pass 0 .none, .record 0, .finish 0]

end Sample

end SliceControl
