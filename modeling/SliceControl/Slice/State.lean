import SliceControl.Slice

/-!
# The state of a slice

The state follows from the deletion mark, the conditions, and the time that the slice has been
waiting. The rules are tried in order: a deletion mark, a failure, a wait beyond the timeout, and
then what the condition `Ready` says.
-/

namespace SliceControl

/-- The lifecycle state of a slice. -/
inductive SliceState where
  /-- Nothing has been reported yet. -/
  | created
  /-- The hardware is being brought up. -/
  | activating
  | active
  /-- Usable with reduced health. -/
  | activeDegraded
  | failed
  /-- Being torn down. -/
  | deleted
  /-- Did not become ready in time. -/
  | stale
  /-- Ready for a reason that is not known here. -/
  | unknown
  deriving DecidableEq

namespace SliceState

/-- Whether a job may run on the slice. -/
def isReady : SliceState → Bool
  | active | activeDegraded => true
  | _ => false

/-- Whether the slice has to be replaced. -/
def isError : SliceState → Bool
  | failed | stale => true
  | _ => false

def name : SliceState → String
  | created => "Created"
  | activating => "Activating"
  | active => "Active"
  | activeDegraded => "ActiveDegraded"
  | failed => "Failed"
  | deleted => "Deleted"
  | stale => "Stale"
  | unknown => "Unknown"

end SliceState

namespace Slice

def ready? (slice : Slice) : Option Condition := slice.status.condition? Condition.ready

/-- Whether the hardware has failed or could not be set up. -/
def hasFailed (slice : Slice) : Bool :=
  slice.ready?.any (fun condition =>
    condition.isFalse && condition.reason = Condition.reasonHardwareFailure) ||
  (slice.status.condition? Condition.creationFailed).any Condition.isTrue

/-- Since when the slice has been waiting to become ready: since the report that it is not, or since
its creation while there is no report. -/
def waitingSince? (slice : Slice) : Option Instant :=
  match slice.ready? with
  | none => slice.metadata.creationTimestamp
  | some condition => if condition.isFalse then some condition.lastTransitionTime else none

/-- Whether the slice has waited for longer than `timeout`. -/
def isOverdue (slice : Slice) (now : Instant) (timeout : Duration) : Bool :=
  slice.waitingSince?.any fun since => since.elapsedBeyond now timeout

/-- What the condition `Ready` says by itself. -/
def reportedState (slice : Slice) : SliceState :=
  match slice.ready? with
  | none => .created
  | some condition =>
    if condition.isTrue then
      if condition.reason = Condition.reasonActive then .active
      else if condition.reason = Condition.reasonDegraded then .activeDegraded
      else .unknown
    else .activating

/-- The state at `now`. -/
def state (slice : Slice) (now : Instant) (timeout : Duration) : SliceState :=
  if slice.isDeleting then .deleted
  else if slice.hasFailed then .failed
  else if slice.isOverdue now timeout then .stale
  else slice.reportedState

/-- The time until the slice would become stale, at least one second. -/
def timeToStale? (slice : Slice) (now : Instant) (timeout : Duration) : Option Duration :=
  slice.waitingSince?.map fun since =>
    (timeout.remaining (since.elapsed now)).greatest (.ofSeconds 1)

end Slice

end SliceControl
