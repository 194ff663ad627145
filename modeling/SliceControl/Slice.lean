import SliceControl.Label
import SliceControl.Slice.Condition
import SliceControl.Topology.Accelerator

/-!
# Slices

A slice is one physical accelerator partition behind one replica of a job. Its spec is written once,
when the slice is created; its status holds what the health agent reports.
-/

namespace SliceControl

/-- The hardware that a slice asks for. -/
structure SliceSpec where
  accelerator : Accelerator
  topology : String
  /-- For each label, the values that a node may have. -/
  nodeSelector : SortedMap (List String)
  deriving DecidableEq

/-- One physical accelerator partition. -/
structure Slice where
  apiVersion : String
  kind : String
  metadata : Metadata
  spec : SliceSpec
  status : SliceStatus
  deriving DecidableEq

namespace SliceSpec

/-- Whether a node with these labels satisfies the selector. -/
def admits (spec : SliceSpec) (labels : SortedMap String) : Bool :=
  spec.nodeSelector.entries.all fun entry =>
    match labels.get? entry.1 with
    | some value => entry.2.contains value
    | none => false

def toJson (spec : SliceSpec) : Json :=
  .ofMembers [("acceleratorType", spec.accelerator.toJson), ("topology", .string spec.topology),
    ("nodeSelector", .ofMap (spec.nodeSelector.mapValues Json.ofStrings))]

def fields : List Json.Field :=
  [.required "acceleratorType" Accelerator.ofJson, .required "topology" Json.decodeString,
    .defaulted "nodeSelector" (Json.decodeMap Json.decodeStrings)]

def ofJson (value : Json) : Decoded SliceSpec := do
  let members ← value.decodeRecord "SliceSpec" fields
  let accelerator ← Json.decodeMember members "acceleratorType" Accelerator.ofJson
  let selector ← Json.decodeMember members "nodeSelector" (Json.decodeMap Json.decodeStrings)
  let topology ← Json.decodeMember members "topology" Json.decodeString
  return {
    accelerator := ← Json.required "acceleratorType" accelerator
    topology := ← Json.required "topology" topology
    nodeSelector := selector.getD .empty }

end SliceSpec

namespace Slice

/-- A slice that nothing has been reported about. -/
def new (metadata : Metadata) (spec : SliceSpec) : Slice :=
  ⟨SliceControl.apiVersion, "Slice", metadata, spec, .empty⟩

def name (slice : Slice) : String := slice.metadata.name

def isDeleting (slice : Slice) : Bool := slice.metadata.isDeleting

/-- Namespace and name of the owning workload, if both are recorded. -/
def ownerKey (slice : Slice) : Option String :=
  match slice.metadata.annotations.get? Label.ownerWorkloadNamespace,
      slice.metadata.annotations.get? Label.ownerWorkloadName with
  | some space, some name => some (space ++ "/" ++ name)
  | _, _ => none

def toJson (slice : Slice) : Json :=
  .ofMembers [("apiVersion", .string slice.apiVersion), ("kind", .string slice.kind),
    ("metadata", slice.metadata.toJson), ("spec", slice.spec.toJson),
    ("status", slice.status.toJson)]

def fields : List Json.Field :=
  [.required "apiVersion" Json.decodeString, .required "kind" Json.decodeString,
    .required "metadata" (Metadata.ofJson .generated), .required "spec" SliceSpec.ofJson,
    .defaulted "status" SliceStatus.ofJson]

def ofJson (drawn : Uid) (value : Json) : Decoded Slice := do
  let members ← value.decodeRecord "Slice" fields
  let apiVersion ← Json.decodeMember members "apiVersion" Json.decodeString
  let kind ← Json.decodeMember members "kind" Json.decodeString
  let metadata ← Json.decodeMember members "metadata" (Metadata.ofJson drawn)
  let spec ← Json.decodeMember members "spec" SliceSpec.ofJson
  let status ← Json.decodeMember members "status" SliceStatus.ofJson
  return {
    apiVersion := ← Json.required "apiVersion" apiVersion
    kind := ← Json.required "kind" kind
    metadata := ← Json.required "metadata" metadata
    spec := ← Json.required "spec" spec
    status := status.getD .empty }

end Slice

end SliceControl
