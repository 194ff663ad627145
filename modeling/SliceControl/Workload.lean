import SliceControl.Placement
import SliceControl.PodTemplate.Codec

/-!
# Workloads

A workload is a job as the queue sees it, with one pod set for each replica group. Once quota is
reserved it carries an admission with a placement for each pod set, and it waits until each of its
admission checks is ready.
-/

namespace SliceControl

/-- The pods of one replica group. -/
structure PodSet where
  name : String
  /-- Pods over all replicas. -/
  count : UInt32
  template : PodTemplate
  deriving DecidableEq

structure PodSetAssignment where
  name : String
  count : UInt32
  placement : Option Placement
  deriving DecidableEq

structure Admission where
  clusterQueue : String
  assignments : List PodSetAssignment
  deriving DecidableEq

/-- The state of an admission check. -/
inductive CheckState where
  | pending
  | ready
  /-- The workload is to be evicted and queued again. -/
  | retry
  /-- The workload is to be given up. -/
  | rejected
  deriving DecidableEq

/-- One admission check on a workload. -/
structure AdmissionCheck where
  name : String
  state : CheckState
  message : String
  lastTransitionTime : Option Instant
  deriving DecidableEq

structure WorkloadStatus where
  admission : Option Admission
  checks : List AdmissionCheck
  /-- Whether the job has completed. -/
  finished : Bool
  deriving DecidableEq

/-- A job as the queue sees it. -/
structure Workload where
  apiVersion : String
  kind : String
  metadata : Metadata
  podSets : List PodSet
  status : WorkloadStatus
  deriving DecidableEq

namespace AdmissionCheck

/-- Same name, state and message, whenever they came about. -/
def sameAs (check other : AdmissionCheck) : Bool :=
  check.name = other.name && check.state = other.state && check.message = other.message

/-- The check after an update: a state that stays keeps the time of its transition. -/
def update (check next : AdmissionCheck) : AdmissionCheck :=
  if check.state = next.state then { check with message := next.message } else next

end AdmissionCheck

namespace WorkloadStatus

def empty : WorkloadStatus := ⟨none, [], false⟩

end WorkloadStatus

namespace Workload

/-- Namespace and name, joined by a slash. -/
def key (workload : Workload) : String := workload.metadata.qualifiedName

def namespaceName (workload : Workload) : String := workload.metadata.namespaceOrDefault

/-- The job that the workload stands for: its controlling owner, or its own name. -/
def jobName (workload : Workload) : String :=
  match workload.metadata.controllerOwner with
  | some owner => owner.name
  | none => workload.metadata.name

def isAdmitted (workload : Workload) : Bool := workload.status.admission.isSome

/-- The first check of a name. -/
def check? (workload : Workload) (name : String) : Option AdmissionCheck :=
  workload.status.checks.find? (·.name = name)

/-- The first assignment for a pod set. -/
def assignment? (workload : Workload) (podSet : String) : Option PodSetAssignment :=
  workload.status.admission.bind fun admission => admission.assignments.find? (·.name = podSet)

/-- Whether the admission places pods on the node `host`. -/
def usesHost (workload : Workload) (host : String) : Bool :=
  workload.status.admission.any fun admission =>
    admission.assignments.any fun assignment =>
      assignment.placement.any fun placement => placement.placesOn host

/-- Updates the first check of the same name. -/
def updateFirst (next : AdmissionCheck) : List AdmissionCheck → Option (List AdmissionCheck)
  | [] => none
  | check :: rest =>
    if check.name = next.name then some (check.update next :: rest)
    else (updateFirst next rest).map (check :: ·)

/-- The workload with an updated check, if it carries that check. -/
def setCheck? (workload : Workload) (next : AdmissionCheck) : Option Workload :=
  (updateFirst next workload.status.checks).map fun checks =>
    { workload with status := { workload.status with checks } }

end Workload

/-! ## JSON form -/

namespace CheckState

def spellings : List (String × CheckState) :=
  [("Pending", .pending), ("Ready", .ready), ("Retry", .retry), ("Rejected", .rejected)]

def name : CheckState → String
  | pending => "Pending"
  | ready => "Ready"
  | retry => "Retry"
  | rejected => "Rejected"

def toJson (state : CheckState) : Json := .string state.name

def ofJson : Json → Decoded CheckState := Json.decodeVariant spellings

end CheckState

namespace AdmissionCheck

def toJson (check : AdmissionCheck) : Json :=
  .ofMembers ([("name", .string check.name), ("state", check.state.toJson),
    ("message", .string check.message)] ++
    Json.optional "lastTransitionTime" (check.lastTransitionTime.map Instant.toJson))

def fields : List Json.Field :=
  [.required "name" Json.decodeString, .defaulted "state" CheckState.ofJson,
    .defaulted "message" Json.decodeString,
    .defaulted "lastTransitionTime" (Json.decodeNullable Instant.ofJson)]

def ofJson (value : Json) : Decoded AdmissionCheck := do
  let members ← value.decodeRecord "AdmissionCheckState" fields
  let time ← Json.decodeMember members "lastTransitionTime" (Json.decodeNullable Instant.ofJson)
  let message ← Json.decodeMember members "message" Json.decodeString
  let name ← Json.decodeMember members "name" Json.decodeString
  let state ← Json.decodeMember members "state" CheckState.ofJson
  return {
    name := ← Json.required "name" name
    state := state.getD .pending
    message := message.getD ""
    lastTransitionTime := time.getD none }

end AdmissionCheck

namespace PodSetAssignment

def toJson (assignment : PodSetAssignment) : Json :=
  .ofMembers ([("name", .string assignment.name), ("count", .ofUInt32 assignment.count)] ++
    Json.optional "topologyAssignment" (assignment.placement.map Placement.toJson))

def fields : List Json.Field :=
  [.required "name" Json.decodeString, .defaulted "count" Json.decodeUInt32,
    .defaulted "topologyAssignment" (Json.decodeNullable Placement.ofJson)]

def ofJson (value : Json) : Decoded PodSetAssignment := do
  let members ← value.decodeRecord "PodSetAssignment" fields
  let count ← Json.decodeMember members "count" Json.decodeUInt32
  let name ← Json.decodeMember members "name" Json.decodeString
  let placement ← Json.decodeMember members "topologyAssignment"
    (Json.decodeNullable Placement.ofJson)
  return {
    name := ← Json.required "name" name
    count := count.getD 0
    placement := placement.getD none }

end PodSetAssignment

namespace Admission

def toJson (admission : Admission) : Json :=
  .ofMembers [("clusterQueue", .string admission.clusterQueue),
    ("podSetAssignments", .array (admission.assignments.map PodSetAssignment.toJson))]

def fields : List Json.Field :=
  [.defaulted "clusterQueue" Json.decodeString,
    .defaulted "podSetAssignments" (Json.decodeList PodSetAssignment.ofJson)]

def ofJson (value : Json) : Decoded Admission := do
  let members ← value.decodeRecord "Admission" fields
  let queue ← Json.decodeMember members "clusterQueue" Json.decodeString
  let assignments ←
    Json.decodeMember members "podSetAssignments" (Json.decodeList PodSetAssignment.ofJson)
  return ⟨queue.getD "", assignments.getD []⟩

end Admission

namespace WorkloadStatus

def toJson (status : WorkloadStatus) : Json :=
  .ofMembers (Json.optional "admission" (status.admission.map Admission.toJson) ++
    [("admissionChecks", .array (status.checks.map AdmissionCheck.toJson)),
      ("finished", .bool status.finished)])

def fields : List Json.Field :=
  [.defaulted "admission" (Json.decodeNullable Admission.ofJson),
    .defaulted "admissionChecks" (Json.decodeList AdmissionCheck.ofJson),
    .defaulted "finished" Json.decodeBool]

def ofJson (value : Json) : Decoded WorkloadStatus := do
  let members ← value.decodeRecord "WorkloadStatus" fields
  let admission ← Json.decodeMember members "admission" (Json.decodeNullable Admission.ofJson)
  let checks ← Json.decodeMember members "admissionChecks" (Json.decodeList AdmissionCheck.ofJson)
  let finished ← Json.decodeMember members "finished" Json.decodeBool
  return ⟨admission.getD none, checks.getD [], finished.getD false⟩

end WorkloadStatus

namespace PodSet

def toJson (podSet : PodSet) : Json :=
  .ofMembers [("name", .string podSet.name), ("count", .ofUInt32 podSet.count),
    ("template", podSet.template.toJson)]

def fields : List Json.Field :=
  [.required "name" Json.decodeString, .required "count" Json.decodeUInt32,
    .required "template" PodTemplate.ofJson]

def ofJson (value : Json) : Decoded PodSet := do
  let members ← value.decodeRecord "PodSet" fields
  let count ← Json.decodeMember members "count" Json.decodeUInt32
  let name ← Json.decodeMember members "name" Json.decodeString
  let template ← Json.decodeMember members "template" PodTemplate.ofJson
  return {
    name := ← Json.required "name" name
    count := ← Json.required "count" count
    template := ← Json.required "template" template }

end PodSet

namespace Workload

def specToJson (podSets : List PodSet) : Json :=
  .ofMembers [("podSets", .array (podSets.map PodSet.toJson))]

def specFields : List Json.Field :=
  [.defaulted "podSets" (Json.decodeList PodSet.ofJson)]

def specOfJson (value : Json) : Decoded (List PodSet) := do
  let members ← value.decodeRecord "WorkloadSpec" specFields
  let podSets ← Json.decodeMember members "podSets" (Json.decodeList PodSet.ofJson)
  return podSets.getD []

def toJson (workload : Workload) : Json :=
  .ofMembers [("apiVersion", .string workload.apiVersion), ("kind", .string workload.kind),
    ("metadata", workload.metadata.toJson), ("spec", specToJson workload.podSets),
    ("status", workload.status.toJson)]

def fields : List Json.Field :=
  [.defaulted "apiVersion" Json.decodeString, .defaulted "kind" Json.decodeString,
    .required "metadata" (Metadata.ofJson .generated), .required "spec" specOfJson,
    .defaulted "status" WorkloadStatus.ofJson]

def ofJson (drawn : Uid) (value : Json) : Decoded Workload := do
  let members ← value.decodeRecord "Workload" fields
  let apiVersion ← Json.decodeMember members "apiVersion" Json.decodeString
  let kind ← Json.decodeMember members "kind" Json.decodeString
  let metadata ← Json.decodeMember members "metadata" (Metadata.ofJson drawn)
  let spec ← Json.decodeMember members "spec" specOfJson
  let status ← Json.decodeMember members "status" WorkloadStatus.ofJson
  return {
    apiVersion := apiVersion.getD "kueue.x-k8s.io/v1beta1"
    kind := kind.getD "Workload"
    metadata := ← Json.required "metadata" metadata
    podSets := ← Json.required "spec" spec
    status := status.getD .empty }

end Workload

end SliceControl
