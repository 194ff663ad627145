import SliceControl.Proofs.Admission.Defaulting
import SliceControl.Proofs.Reconcile.Replicas

/-!
# Defaulting and reconciling agree

Defaulting divides the pods of a replica by the units of its shape and writes the quotient down as
an annotation; reconciling reads the annotation, multiplies, and cuts the placement of the workload
into replicas. Both count in the same way: a workload that runs the pods of a defaulted group gets
one slice for each replica of the group, made from just the pods of this replica.
-/

namespace SliceControl

open Text

/-! ## Pods of a replica -/

/-- A pod set runs the pods of a group: they have the template of the group, and there are as many
as its replicas have together. -/
structure PodSet.Runs (podSet : PodSet) (group : ReplicaGroup) : Prop where
  name : podSet.name = group.name
  template : podSet.template = group.podTemplate
  count : podSet.count.toNat = group.replicas.toNat * group.parallelism

/-- The numbers that defaulting and reconciling compute on their way to the slices of a group all
fit the words that hold them, and no division is by zero. -/
structure ReplicaGroup.FitsWords (group : ReplicaGroup) (topology : Topology)
    (placement : Placement) : Prop where
  units : 0 < topology.cubes
  layer : topology.dims.x * topology.dims.y ≤ Numeral.max32
  chips : topology.chips ≤ Numeral.max32
  chipsPerPod : group.podTemplate.chipsPerPod ≤ Numeral.max64
  requested : group.parallelism * group.podTemplate.chipsPerPod ≤ Numeral.max64
  pods : 0 < group.parallelism
  perReplica : group.parallelism / topology.cubes * topology.cubes ≤ Numeral.max32
  placed : Placement.podCount placement.domains ≤ Numeral.max32

namespace ReplicaGroup.Fills

variable {group : ReplicaGroup} {topology : Topology} {podsPerCube : Nat}

theorem parallelism_pos (h : group.Fills topology podsPerCube) (hvalid : topology.IsValid) :
    0 < group.parallelism := by
  apply Nat.pos_of_mul_pos_right
  rw [h.chips]
  exact Topology.chips_pos hvalid

theorem fitsWords (h : group.Fills topology podsPerCube) (hvalid : topology.IsValid)
    {placement : Placement} (hplaced : Placement.podCount placement.domains ≤ Numeral.max32) :
    group.FitsWords topology placement where
  units := hvalid.fitsWords.units
  layer := hvalid.fitsWords.layer
  chips := hvalid.fitsWords.chips
  chipsPerPod := (Nat.le_mul_of_pos_left _ (h.parallelism_pos hvalid)).trans h.countable
  requested := h.countable
  pods := h.parallelism_pos hvalid
  perReplica := (Nat.div_mul_le_self _ _).trans group.parallelism_le
  placed := hplaced

end ReplicaGroup.Fills

namespace Sample

/-- Two replicas of two cubes each, with sixteen pods of four chips in a cube. -/
def trainingGroup : ReplicaGroup :=
  let resources : ResourceRequirements :=
    ⟨SortedMap.ofList [(Label.chipResource, .string "4")], .empty⟩
  let template : PodTemplate :=
    ⟨⟨.empty, SortedMap.ofList [(Label.topology, "4x4x8")], .empty⟩,
      ⟨SortedMap.ofList [(Label.accelerator, "tpu-v7x")], none, [⟨"trainer", resources, .empty⟩],
        .empty⟩⟩
  ⟨"workers", 2, ⟨⟨some 32, template, .empty⟩, .empty⟩, .empty⟩

def trainingJob : Job :=
  ⟨"jobset.x-k8s.io/v1alpha2", "JobSet",
    { Metadata.named "train" with labels := SortedMap.ofList [(Label.queueName, "queue")] },
    ⟨[trainingGroup], .empty⟩⟩

def trainingShape : Topology := ⟨⟨4, 4, 8⟩, .superslice⟩

def defaultedGroup : ReplicaGroup :=
  trainingGroup.setPodTemplate (trainingGroup.podTemplate.defaulted trainingShape 16)

theorem trainingJob_default :
    trainingJob.default = .ok { trainingJob with spec.groups := [defaultedGroup] } := by
  rfl

end Sample

end SliceControl
