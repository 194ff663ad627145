import SliceControl.Reconcile.Wanted
import SliceControl.Slice.State

/-!
# Reconciling

Reconciling is a function from what was read about one workload to the writes that bring the store
closer to what the workload wants, and to the time after which to look again. It keeps no state, so
it may be repeated at any time and stopped halfway.

A workload that is gone, finished, being deleted, or not admitted releases its slices. Otherwise
missing slices are created, and slices that are not wanted or have another spec are deleted. The
workload's admission check says how far that has come: it asks for another try if a slice has
failed, and is ready once every wanted slice is.
-/

namespace SliceControl

open Text

/-- Settings and time of one pass. -/
structure PassContext where
  /-- The admission check that is answered for. -/
  checkName : String
  stalenessTimeout : Duration
  /-- The longest time that a pending workload waits for its next pass. -/
  resyncInterval : Duration
  now : Instant
  deriving DecidableEq

/-- What was read about one workload. -/
structure Snapshot where
  key : String
  /-- None if the workload does not exist. -/
  workload : Option Workload
  /-- The slices that it owns. -/
  slices : List Slice
  nodes : List Node
  deriving DecidableEq

/-- One change to the store. -/
inductive Write where
  | createSlice (slice : Slice)
  | deleteSlice (name : String)
  | setCheck (check : AdmissionCheck)
  deriving DecidableEq

/-- The result of reconciling. -/
structure Outcome where
  writes : List Write
  requeueAfter : Option Duration
  deriving DecidableEq

namespace Outcome

/-- Nothing to do, and nothing to wait for. -/
def idle : Outcome := ⟨[], none⟩

def isConverged (outcome : Outcome) : Bool := outcome.writes.isEmpty

end Outcome

/-- Deletes every slice that is not being deleted. -/
def releaseAll (slices : List Slice) : Outcome :=
  ⟨(slices.filter fun slice => !slice.isDeleting).map fun slice => .deleteSlice slice.name, none⟩

/-! ## Wanted and existing slices -/

/-- How a wanted slice stands. -/
inductive Standing where
  | missing
  /-- There is a slice of that name with another spec. -/
  | outdated
  | present (slice : Slice)

/-- The last slice of a name. -/
def lastNamed? (slices : List Slice) (name : String) : Option Slice :=
  slices.reverse.find? (·.name = name)

namespace WantedSlice

def standing (wanted : WantedSlice) (slices : List Slice) : Standing :=
  match lastNamed? slices wanted.name with
  | none => .missing
  | some slice =>
    if !slice.isDeleting && slice.spec ≠ wanted.spec then .outdated else .present slice

/-- The write that the standing asks for. -/
def write? (wanted : WantedSlice) (slices : List Slice) : Option Write :=
  match wanted.standing slices with
  | .missing => some (.createSlice wanted.slice)
  | .outdated => some (.deleteSlice wanted.name)
  | .present _ => none

/-- The state of the slice, if it is present. -/
def state? (wanted : WantedSlice) (slices : List Slice) (context : PassContext) :
    Option SliceState :=
  match wanted.standing slices with
  | .present slice => some (slice.state context.now context.stalenessTimeout)
  | _ => none

def isReady (wanted : WantedSlice) (slices : List Slice) (context : PassContext) : Bool :=
  (wanted.state? slices context).any SliceState.isReady

/-- The complaint about a slice that has to be replaced. -/
def failure? (wanted : WantedSlice) (slices : List Slice) (context : PassContext) :
    Option String :=
  match wanted.state? slices context with
  | some state =>
    if state.isError then
      some ("slice " ++ wanted.name ++ " (" ++ wanted.key.group ++ " replica " ++
        String.ofList (Numeral.digits wanted.key.index) ++ ") is " ++ state.name)
    else none
  | none => none

/-- How long a slice that is neither ready nor broken may go on waiting. -/
def patience? (wanted : WantedSlice) (slices : List Slice) (context : PassContext) :
    Option Duration :=
  match wanted.standing slices with
  | .present slice =>
    let state := slice.state context.now context.stalenessTimeout
    if state.isReady || state.isError then none
    else slice.timeToStale? context.now context.stalenessTimeout
  | _ => none

end WantedSlice

/-! ## The verdict on an admitted workload -/

/-- The plans of a workload beside the slices that it owns. -/
structure Progress where
  plans : List PodSetPlan
  slices : List Slice
  context : PassContext

namespace Progress

/-- All wanted slices. -/
def wanted (progress : Progress) : List WantedSlice := progress.plans.flatMap PodSetPlan.wanted

/-- Slices that are not wanted and not being deleted. -/
def unwanted (progress : Progress) : List Slice :=
  let names := progress.wanted.map WantedSlice.name
  progress.slices.filter fun slice => !names.contains slice.name && !slice.isDeleting

/-- Creations and deletions. -/
def sliceWrites (progress : Progress) : List Write :=
  progress.wanted.filterMap (·.write? progress.slices) ++
    progress.unwanted.map fun slice => .deleteSlice slice.name

def failures (progress : Progress) : List String :=
  progress.wanted.filterMap (·.failure? progress.slices progress.context)

def allReady (progress : Progress) : Bool :=
  progress.plans.all (·.problem?.isNone) &&
    progress.wanted.all (·.isReady progress.slices progress.context) &&
    progress.sliceWrites.isEmpty

/-- The state of the admission check. -/
def checkState (progress : Progress) : CheckState :=
  if !progress.failures.isEmpty then .retry
  else if progress.allReady then .ready
  else .pending

/-- The part of the summary about pod sets of one name. -/
def summaryOf (progress : Progress) (name : String) : String :=
  let problems := progress.plans.filter fun plan => plan.name = name && plan.problem?.isSome
  match problems.head?.bind PodSetPlan.problem? with
  | some problem => name ++ ": " ++ problem.message
  | none =>
    let slices := progress.wanted.filter (·.key.group = name)
    let ready := slices.countP (·.isReady progress.slices progress.context)
    name ++ ": " ++ String.ofList (Numeral.digits ready) ++ "/" ++
      String.ofList (Numeral.digits slices.length) ++ " slices ready"

def summary (progress : Progress) : String :=
  if progress.plans.isEmpty then "no slices required"
  else ", ".intercalate (progress.plans.map fun plan => progress.summaryOf plan.name)

/-- The message of the admission check. -/
def message (progress : Progress) : String :=
  if !progress.failures.isEmpty then "; ".intercalate progress.failures else progress.summary

/-- The admission check as it should be. -/
def check (progress : Progress) : AdmissionCheck :=
  ⟨progress.context.checkName, progress.checkState, progress.message, some progress.context.now⟩

/-- The check, if it says something new. -/
def checkWrites (progress : Progress) (current : AdmissionCheck) : List Write :=
  if current.sameAs progress.check then [] else [.setCheck progress.check]

/-- The time to the next pass: until the first slice would become stale, but no longer than the
resync interval. -/
def delay (progress : Progress) : Duration :=
  (progress.wanted.filterMap (·.patience? progress.slices progress.context)).foldl Duration.least
    progress.context.resyncInterval

def outcome (progress : Progress) (current : AdmissionCheck) : Outcome :=
  ⟨progress.sliceWrites ++ progress.checkWrites current,
    if progress.checkState = .pending then some progress.delay else none⟩

end Progress

/-- The writes for one workload. -/
def reconcile (snapshot : Snapshot) (context : PassContext) : Outcome :=
  match snapshot.workload with
  | none => releaseAll snapshot.slices
  | some workload =>
    if workload.status.finished || workload.metadata.isDeleting then releaseAll snapshot.slices
    else match workload.check? context.checkName with
      | none => .idle
      | some current =>
        if !workload.isAdmitted then releaseAll snapshot.slices
        else if current.state = .retry ∨ current.state = .rejected then .idle
        else
          (Progress.mk (workload.plans snapshot.nodes) snapshot.slices context).outcome current

end SliceControl
