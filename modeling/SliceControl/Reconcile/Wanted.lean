import SliceControl.Slice
import SliceControl.Slice.Name
import SliceControl.Workload

/-!
# Wanted slices

An admitted workload wants one slice for each replica of every pod set that asks for slices. The
slice of a replica is described by the replica's share of the placement: the partitions of the nodes
that it uses become the selector of the slice. A pod set whose placement cannot be mapped has a
problem instead of slices.
-/

namespace SliceControl

open Text

/-- Why the slices of a pod set cannot be described. -/
inductive PodSetProblem where
  | noPlacement
  | missingSliceSize
  | unreadableSliceSize
  | sliceSizeTooLarge (size cubes : Nat)
  | placement (error : PlacementError)
  | unlabelledNode (replica : Nat) (label : String)
  deriving DecidableEq

def PodSetProblem.message : PodSetProblem → String
  | noPlacement => "admission has no topology assignment"
  | missingSliceSize => "missing " ++ Label.sliceSize ++ " annotation"
  | unreadableSliceSize => Label.sliceSize ++ " is not a number"
  | sliceSizeTooLarge size cubes => Label.sliceSize ++ s!" of {size} is too large for {cubes} cubes"
  | placement error => error.message
  | unlabelledNode replica label => s!"replica {replica} is placed on a node without label {label}"

/-- A slice that a workload should have, with the replica it backs. -/
structure WantedSlice where
  key : SliceKey
  slice : Slice
  deriving DecidableEq

/-- What one pod set wants. -/
structure PodSetPlan where
  name : String
  slices : Except PodSetProblem (List WantedSlice)

namespace WantedSlice

def name (wanted : WantedSlice) : String := wanted.slice.metadata.name

def spec (wanted : WantedSlice) : SliceSpec := wanted.slice.spec

end WantedSlice

namespace Workload

/-- Labels and annotations that tie a slice to its replica, job and workload. -/
def sliceMetadata (workload : Workload) (key : SliceKey) : Metadata :=
  { Metadata.named key.sliceName with
    labels := SortedMap.ofList
      [(Label.replicatedJob, key.group),
        (Label.replicaIndex, String.ofList (Numeral.digits key.index))]
    annotations := SortedMap.ofList
      [(Label.ownerWorkloadNamespace, workload.namespaceName),
        (Label.ownerWorkloadName, workload.metadata.name),
        (Label.ownerJobNamespace, key.namespaceName), (Label.ownerJobName, key.job)] }

/-- The selector of a slice: its blocks, if any are known, and its partitions. -/
def sliceSelector (fineLabel : String) (blocks partitions : List String) :
    SortedMap (List String) :=
  let coarse : SortedMap (List String) :=
    if blocks.isEmpty then .empty else SortedMap.empty.insert Label.block blocks
  coarse.insert fineLabel partitions

/-- The slice of the replica that `piece` places. -/
def wantedSlice (workload : Workload) (group : String) (topology : Topology)
    (accelerator : Accelerator) (nodes : List Node) (entry : Placement × Nat) :
    Except PodSetProblem WantedSlice := do
  let (piece, index) := entry
  let fineLabel := topology.sliceLevelLabel
  let partitions ← (piece.partitionIds nodes fineLabel).mapError .placement
  if partitions.contains "" then throw (.unlabelledNode index fineLabel)
  let blocks ← (piece.partitionIds nodes Label.block).mapError .placement
  let key : SliceKey := ⟨workload.namespaceName, workload.jobName, group, index⟩
  return ⟨key, Slice.new (workload.sliceMetadata key)
    ⟨accelerator, topology.write,
      sliceSelector fineLabel (blocks.filter (· ≠ "")) partitions⟩⟩

/-- The number of pods in one replica of a pod set. -/
def podsPerReplica (podSet : PodSet) (topology : Topology) : Except PodSetProblem Nat :=
  match podSet.template.annotation? Label.sliceSize with
  | none => .error .missingSliceSize
  | some text =>
    match Numeral.readBounded? Numeral.max32 text.toList with
    | none => .error .unreadableSliceSize
    | some size =>
      if size * topology.cubes ≤ Numeral.max32 then .ok (size * topology.cubes)
      else .error (.sliceSizeTooLarge size topology.cubes)

/-- The slices of a pod set that asks for `topology`. -/
def wantedSlices (workload : Workload) (podSet : PodSet) (topology : Topology)
    (accelerator : Accelerator) (nodes : List Node) : Except PodSetProblem (List WantedSlice) := do
  match (workload.assignment? podSet.name).bind (·.placement) with
  | none => throw .noPlacement
  | some placement =>
    let perReplica ← podsPerReplica podSet topology
    let assigned ← placement.totalPods.mapError .placement
    if assigned ≠ podSet.count.toNat then
      throw (.placement (.podCountMismatch assigned podSet.count.toNat))
    let pieces ← (placement.splitByReplica perReplica).mapError .placement
    pieces.zipIdx.mapM (workload.wantedSlice podSet.name topology accelerator nodes)

/-- The plan for a pod set, if it asks for slices. -/
def plan? (workload : Workload) (nodes : List Node) (podSet : PodSet) : Option PodSetPlan :=
  podSet.template.requestedSlice?.map fun (topology, accelerator) =>
    ⟨podSet.name, workload.wantedSlices podSet topology accelerator nodes⟩

/-- The plans for all pod sets that ask for slices, in their order. -/
def plans (workload : Workload) (nodes : List Node) : List PodSetPlan :=
  workload.podSets.filterMap (workload.plan? nodes)

end Workload

namespace PodSetPlan

/-- The slices of a plan; none if it has a problem. -/
def wanted (plan : PodSetPlan) : List WantedSlice :=
  match plan.slices with
  | .ok slices => slices
  | .error _ => []

def problem? (plan : PodSetPlan) : Option PodSetProblem :=
  match plan.slices with
  | .ok _ => none
  | .error problem => some problem

end PodSetPlan

end SliceControl
