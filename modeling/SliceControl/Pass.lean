import SliceControl.Reconcile
import SliceControl.Retry
import SliceControl.Store.Request

/-!
# Passes

A pass over one workload reads the workload, its slices and the nodes, reconciles, and carries out
the writes one after the other. Every call is retried. A read that still fails ends the pass; a
write that still fails is counted, and the pass fails in the end.
-/

namespace SliceControl

/-- A procedure over the store. -/
abbrev StoreProcedure := Procedure StoreRequest StoreRequest.Reply

/-- Why a pass fails. -/
inductive PassError where
  | read (key : String) (source : StoreError)
  | writes (key : String) (failed total : Nat)
  deriving DecidableEq

def PassError.message : PassError → String
  | read key source => "Failed to read state for '" ++ key ++ "': " ++ source.message
  | writes key failed total => s!"{failed} of {total} writes for '{key}' failed"

/-- What a pass needs to know besides the store. -/
structure PassSettings where
  checkName : String
  stalenessTimeout : Duration
  resyncInterval : Duration
  retry : RetryPolicy
  deriving DecidableEq

namespace PassSettings

def contextAt (settings : PassSettings) (now : Instant) : PassContext :=
  ⟨settings.checkName, settings.stalenessTimeout, settings.resyncInterval, now⟩

/-- Makes a request to the store, with retries. -/
def ask (settings : PassSettings) (request : StoreRequest) : StoreProcedure request.Reply :=
  withBackoff settings.retry request

/-- The keys of all workloads. -/
def listKeys (settings : PassSettings) : StoreProcedure (Except StoreError (List String)) :=
  settings.ask .listWorkloadKeys

/-- A slice that exists already counts as created only if it names `key` as its owner. -/
def confirmOwner (settings : PassSettings) (key name : String) :
    StoreProcedure (Except StoreError Unit) := do
  match ← settings.ask (.getSlice name) with
  | .error error => return .error error
  | .ok none => return .error (.notFound .slice name)
  | .ok (some slice) =>
    match Slice.ownerKey slice with
    | some owner =>
      if owner = key then return .ok () else return .error (.ownedElsewhere name owner)
    | none => return .error (.ownedElsewhere name "")

/-- Carries out one write. A slice that is gone already counts as deleted. -/
def apply (settings : PassSettings) (key : String) :
    Write → StoreProcedure (Except StoreError Unit)
  | .createSlice slice => do
    match ← settings.ask (.createSlice slice) with
    | .ok _ => return .ok ()
    | .error error =>
      if error.isAlreadyExists then settings.confirmOwner key slice.name else return .error error
  | .deleteSlice name => do
    match ← settings.ask (.deleteSlice name) with
    | .ok _ => return .ok ()
    | .error error => if error.isNotFound then return .ok () else return .error error
  | .setCheck check => do
    match ← settings.ask (.updateCheck key check) with
    | .ok _ => return .ok ()
    | .error error => return .error error

/-- Carries out writes in order and counts those that fail. -/
def applyAll (settings : PassSettings) (key : String) : List Write → StoreProcedure Nat
  | [] => return 0
  | write :: rest => do
    let result ← settings.apply key write
    let failed ← settings.applyAll key rest
    match result with
    | .ok _ => return failed
    | .error _ => return failed + 1

/-- Reads what a pass is about; all reads come before the clock is read. -/
def readSnapshot (settings : PassSettings) (key : String) :
    StoreProcedure (Except StoreError Snapshot) := do
  match ← settings.ask (.getWorkload key) with
  | .error error => return .error error
  | .ok workload =>
    match ← settings.ask (.listOwnedSlices key) with
    | .error error => return .error error
    | .ok slices =>
      match ← settings.ask .listNodes with
      | .error error => return .error error
      | .ok nodes => return .ok ⟨key, workload, slices, nodes⟩

/-- One pass over the workload `key`. -/
def pass (settings : PassSettings) (key : String) : StoreProcedure (Except PassError Outcome) := do
  match ← settings.readSnapshot key with
  | .error error => return .error (.read key error)
  | .ok snapshot =>
    let now ← Procedure.time
    let outcome := reconcile snapshot (settings.contextAt now)
    let failed ← settings.applyAll key outcome.writes
    if failed = 0 then return .ok outcome
    else return .error (.writes key failed outcome.writes.length)

end PassSettings

end SliceControl
