import SliceControl.Store

/-!
# Requests to the store

A pass reaches the store only through the requests below. A plan of outages says which of the coming
calls fail, and whether a failing call takes effect all the same.
-/

namespace SliceControl

/-- A request to the store. -/
inductive StoreRequest where
  | getWorkload (key : String)
  | listWorkloadKeys
  | listOwnedSlices (key : String)
  | listNodes
  | getSlice (name : String)
  | createSlice (slice : Slice)
  | deleteSlice (name : String)
  | updateCheck (key : String) (check : AdmissionCheck)

namespace StoreRequest

/-- What a request is answered with. -/
def Answer : StoreRequest → Type
  | getWorkload _ => Option Workload
  | listWorkloadKeys => List String
  | listOwnedSlices _ => List Slice
  | listNodes => List Node
  | getSlice _ => Option Slice
  | createSlice _ => Slice
  | deleteSlice _ => Unit
  | updateCheck _ _ => Unit

/-- An answer or a failure. -/
abbrev Reply (request : StoreRequest) : Type := Except StoreError request.Answer

/-- The name of the kind of request. -/
def method : StoreRequest → String
  | getWorkload _ => "get_workload"
  | listWorkloadKeys => "list_workload_keys"
  | listOwnedSlices _ => "list_owned_slices"
  | listNodes => "list_nodes"
  | getSlice _ => "get_slice"
  | createSlice _ => "create_slice"
  | deleteSlice _ => "delete_slice"
  | updateCheck _ _ => "update_admission_check"

end StoreRequest

/-- Carries out a request. -/
def Store.serve (store : Store) (now : Instant) :
    (request : StoreRequest) → Change request.Answer
  | .getWorkload key => ⟨.ok (store.workload? key), store, []⟩
  | .listWorkloadKeys => ⟨.ok store.workloadKeys, store, []⟩
  | .listOwnedSlices key => ⟨.ok (store.ownedSlices key), store, []⟩
  | .listNodes => ⟨.ok store.listNodes, store, []⟩
  | .getSlice name => ⟨.ok (store.slice? name), store, []⟩
  | .createSlice slice => store.insertSlice slice now
  | .deleteSlice name =>
    let change := store.removeSlice name
    ⟨change.result.map fun _ => (), change.store, change.published⟩
  | .updateCheck key check => store.updateCheck key check

/-- A call that fails. -/
structure Outage where
  error : StoreError
  /-- Whether the request is carried out although its answer is lost. -/
  takesEffect : Bool

/-- For each kind of request, what happens to the coming calls; nothing after the last one. -/
abbrev OutagePlan := SortedMap (List (Option Outage))

namespace OutagePlan

/-- What happens to the next call of a kind, and the plan after it. -/
def take (plan : OutagePlan) (method : String) : Option Outage × OutagePlan :=
  match plan.get? method with
  | some (next :: rest) => (next, plan.insert method rest)
  | _ => (none, plan)

/-- Plans a further `times` calls of a kind: they fail without effect if there is an error, and
succeed otherwise. -/
def add (plan : OutagePlan) (method : String) (error : Option StoreError) (times : Nat) :
    OutagePlan :=
  plan.insert method ((plan.get? method).getD [] ++
    List.replicate times (error.map fun error => ⟨error, false⟩))

end OutagePlan

end SliceControl
