import SliceControl.Api
import SliceControl.Pass
import SliceControl.Store.Request

/-!
# The cluster

The store together with what surrounds it: the clock, the channel on which published keys travel,
the plan of outages, and a record of calls and publications. Time passes only in milliseconds.
-/

namespace SliceControl

/-- Published keys on their way, the oldest first. A full channel drops its oldest key and counts
it as missed. -/
structure EventChannel where
  waiting : List String
  missed : Nat
  deriving DecidableEq

namespace EventChannel

def capacity : Nat := 1024

def empty : EventChannel := ⟨[], 0⟩

def send (channel : EventChannel) (key : String) : EventChannel :=
  if channel.waiting.length < capacity then { channel with waiting := channel.waiting ++ [key] }
  else ⟨channel.waiting.drop 1 ++ [key], channel.missed + 1⟩

/-- What the receiver gets. -/
inductive Received where
  | key (key : String)
  /-- So many keys were dropped. -/
  | lagged (missed : Nat)

/-- Takes the next thing off the channel; dropped keys are reported first. -/
def receive? (channel : EventChannel) : Option (Received × EventChannel) :=
  if channel.missed ≠ 0 then some (.lagged channel.missed, { channel with missed := 0 })
  else match channel.waiting with
    | [] => none
    | key :: rest => some (.key key, { channel with waiting := rest })

end EventChannel

/-- The store and its surroundings. -/
structure Cluster where
  store : Store
  outages : OutagePlan
  /-- None if nobody listens. -/
  channel : Option EventChannel
  /-- The kinds of calls made, the last one first. -/
  calls : List String
  /-- The keys published, the last one first. -/
  published : List String
  /-- What the clock on the wall says. -/
  now : Instant
  /-- Milliseconds since the beginning. -/
  elapsed : Nat

namespace Cluster

/-- A cluster with an empty store. -/
def start (now : Instant) : Cluster := ⟨.empty, .empty, none, [], [], now, 0⟩

/-- Keeps a changed store and publishes keys. -/
def publish (cluster : Cluster) (store : Store) (keys : List String) : Cluster :=
  { cluster with
    store
    channel := cluster.channel.map fun channel => keys.foldl EventChannel.send channel
    published := keys.reverse ++ cluster.published }

/-- Keeps the store that an operation leaves and publishes its keys. -/
def commit {α : Type} (cluster : Cluster) (change : Change α) : Cluster :=
  cluster.publish change.store change.published

/-- Carries out an operation on the store. -/
def perform {α : Type} (cluster : Cluster) (operation : Store → Instant → Change α) :
    Except StoreError α × Cluster :=
  let change := operation cluster.store cluster.now
  (change.result, cluster.commit change)

/-- Answers a request from a client of the server, where `drawn` is the identifier for a resource
that comes without one. -/
def respond (cluster : Cluster) (stalenessTimeout : Duration) (drawn : Uid)
    (request : Api.Request) : Api.Response × Cluster :=
  let answer := Api.answer ⟨cluster.now, stalenessTimeout, drawn⟩ cluster.store request
  (answer.response, cluster.publish answer.store answer.published)

/-- Answers a request as the plan of outages says. -/
def serve (request : StoreRequest) (cluster : Cluster) : request.Reply × Cluster :=
  let (outage, outages) := cluster.outages.take request.method
  let called := { cluster with outages, calls := request.method :: cluster.calls }
  match outage with
  | none => called.perform fun store now => store.serve now request
  | some outage =>
    (.error outage.error,
      if outage.takesEffect then (called.perform fun store now => store.serve now request).2
      else called)

/-- Lets `millis` pass. -/
def elapse (millis : Nat) (cluster : Cluster) : Cluster :=
  { cluster with
    now := cluster.now.after (.ofMillis millis)
    elapsed := cluster.elapsed + millis }

/-- A world for procedures, in which nothing else happens while they wait. -/
def world : World StoreRequest StoreRequest.Reply Cluster := ⟨serve, elapse, now⟩

end Cluster

end SliceControl
