import SliceControl.Admission.Defaulting
import SliceControl.Proofs.Topology.Shape

/-!
# What defaulting makes sure of

Defaulting adds annotations and a requirement to the template of a group, and changes nothing else.
A group that passes fills its shape: each unit of the shape has as many pods as the annotation says,
and all pods of a replica together ask for just the chips of the shape.
-/

namespace SliceControl

open Text

/-! ## Templates -/

namespace PodTemplate

variable (template : PodTemplate)

@[simp] theorem annotation?_annotate (key value other : String) :
    (template.annotate key value).annotation? other =
      if key = other then some value else template.annotation? other :=
  SortedMap.get?_insert template.metadata.annotations key other value

@[simp] theorem metadata_requireHealthyNodes :
    template.requireHealthyNodes.metadata = template.metadata := by
  unfold requireHealthyNodes
  split_ifs <;> rfl

@[simp] theorem nodeSelector_requireHealthyNodes :
    template.requireHealthyNodes.spec.nodeSelector = template.spec.nodeSelector := by
  unfold requireHealthyNodes
  split_ifs <;> rfl

@[simp] theorem containers_requireHealthyNodes :
    template.requireHealthyNodes.spec.containers = template.spec.containers := by
  unfold requireHealthyNodes
  split_ifs <;> rfl

theorem annotation?_annotateForQueue (topology : Topology) (podsPerCube : Nat) (key : String)
    (hrequired : Label.requiredTopology ≠ key) (hslice : Label.sliceRequiredTopology ≠ key) :
    (template.annotateForQueue topology podsPerCube).annotation? key =
      if Label.sliceSize = key then some (String.ofList (Numeral.digits podsPerCube))
      else template.annotation? key := by
  simp [annotateForQueue, hrequired, hslice]

/-- The template as defaulting leaves it. -/
def defaulted (topology : Topology) (podsPerCube : Nat) : PodTemplate :=
  (template.annotateForQueue topology podsPerCube).requireHealthyNodes

theorem annotation?_defaulted (topology : Topology) (podsPerCube : Nat) (key : String) :
    (template.defaulted topology podsPerCube).annotation? key =
      (template.annotateForQueue topology podsPerCube).annotation? key := by
  unfold defaulted annotation?
  rw [metadata_requireHealthyNodes]

theorem sliceSize_defaulted (topology : Topology) (podsPerCube : Nat) :
    (template.defaulted topology podsPerCube).annotation? Label.sliceSize =
      some (String.ofList (Numeral.digits podsPerCube)) := by
  rw [annotation?_defaulted, annotation?_annotateForQueue _ _ _ _ (by decide) (by decide),
    if_pos rfl]

/-- Defaulting leaves the request for a slice as it is. -/
theorem requestedSlice?_defaulted (topology : Topology) (podsPerCube : Nat) :
    (template.defaulted topology podsPerCube).requestedSlice? = template.requestedSlice? := by
  have htext : (template.defaulted topology podsPerCube).topologyText? =
      template.topologyText? := by
    unfold topologyText?
    rw [annotation?_defaulted, annotation?_annotateForQueue _ _ _ _ (by decide) (by decide),
      if_neg (by decide)]
  have haccelerator : (template.defaulted topology podsPerCube).acceleratorText? =
      template.acceleratorText? := by
    unfold defaulted acceleratorText?
    rw [nodeSelector_requireHealthyNodes]
    rfl
  unfold requestedSlice?
  rw [htext, haccelerator]

theorem chipsPerPod_defaulted (topology : Topology) (podsPerCube : Nat) :
    (template.defaulted topology podsPerCube).chipsPerPod = template.chipsPerPod := by
  unfold defaulted chipsPerPod
  rw [containers_requireHealthyNodes]
  rfl

/-- The template asks for a slice of a shape: its annotation is the text of the shape, and its
selector names an accelerator that is supported. -/
structure AsksFor (topology : Topology) : Prop where
  shape : ∃ text, template.annotation? Label.topology = some text ∧
    Topology.parse text = .ok topology
  accelerator : ∃ text accelerator,
    template.spec.nodeSelector.get? Label.accelerator = some text ∧
      Accelerator.parse text = .ok accelerator

variable {template} {topology : Topology}

theorem asksFor_iff :
    template.AsksFor topology ↔
      ∃ accelerator, template.requestedSlice? = some (topology, accelerator) := by
  unfold requestedSlice? topologyText? acceleratorText?
  constructor
  · intro h
    obtain ⟨shape, hshape, hparse⟩ := h.shape
    obtain ⟨name, accelerator, hname, haccelerator⟩ := h.accelerator
    refine ⟨accelerator, ?_⟩
    rw [hshape, hname, Option.map_some, Option.map_some, hparse, haccelerator]
  · intro h
    obtain ⟨accelerator, h⟩ := h
    split at h
    · next hshape haccelerator =>
      cases h
      obtain ⟨shape, hshape, hparse⟩ := Option.map_eq_some_iff.mp hshape
      obtain ⟨name, hname, haccelerator⟩ := Option.map_eq_some_iff.mp haccelerator
      exact ⟨⟨shape, hshape, hparse⟩, name, accelerator, hname, haccelerator⟩
    · cases h

/-- A template asks for one shape at most. -/
theorem AsksFor.unique (h : template.AsksFor topology) {other : Topology}
    (hother : template.AsksFor other) : topology = other := by
  obtain ⟨accelerator, hslice⟩ := asksFor_iff.mp h
  obtain ⟨another, hanother⟩ := asksFor_iff.mp hother
  cases hslice.symm.trans hanother
  rfl

theorem AsksFor.isValid (h : template.AsksFor topology) : topology.IsValid := by
  obtain ⟨text, -, hparse⟩ := h.shape
  exact Topology.isValid_of_parse hparse

end PodTemplate

/-! ## Groups -/

namespace ReplicaGroup

variable {group original : ReplicaGroup} {topology : Topology} {podsPerCube : Nat}

theorem parallelism_le (group : ReplicaGroup) : group.parallelism ≤ Numeral.max32 :=
  Nat.le_of_lt_succ (UInt32.toNat_lt _)

theorem podsPerCube_eq_ok_iff : group.podsPerCube topology = .ok podsPerCube ↔
    group.parallelism * group.podTemplate.chipsPerPod ≤ Numeral.max64 ∧
      topology.cubes ∣ group.parallelism * group.podTemplate.chipsPerPod ∧
      group.parallelism * group.podTemplate.chipsPerPod / topology.cubes = topology.unitChips ∧
      topology.cubes ∣ group.parallelism ∧ group.parallelism / topology.cubes = podsPerCube := by
  unfold ReplicaGroup.podsPerCube
  dsimp only
  simp only [Nat.dvd_iff_mod_eq_zero]
  split_ifs with hbeyond hpartial huneven
  · apply iff_of_false (by simp)
    omega
  · apply iff_of_false (by simp)
    omega
  · apply iff_of_false (by simp)
    omega
  · rw [Except.ok.injEq]
    omega

/-- The pods of a replica fill a shape, and the template says how many belong in each unit. -/
structure Fills (group : ReplicaGroup) (topology : Topology) (podsPerCube : Nat) : Prop where
  announced : group.podTemplate.annotation? Label.sliceSize =
    some (String.ofList (Numeral.digits podsPerCube))
  pods : podsPerCube * topology.cubes = group.parallelism
  chips : group.parallelism * group.podTemplate.chipsPerPod = topology.chips
  countable : group.parallelism * group.podTemplate.chipsPerPod ≤ Numeral.max64

/-- Defaulting leaves a group alone unless it asks for a slice, and else it counts the pods of a
unit and changes the template. -/
theorem default_eq_ok_iff :
    original.default = .ok group ↔
      (original.podTemplate.requestedSlice? = none ∧ group = original) ∨
        ∃ topology accelerator podsPerCube,
          original.podTemplate.requestedSlice? = some (topology, accelerator) ∧
            original.podsPerCube topology = .ok podsPerCube ∧
              group = original.setPodTemplate
                (original.podTemplate.defaulted topology podsPerCube) := by
  unfold ReplicaGroup.default
  cases hslice : original.podTemplate.requestedSlice? with
  | none => simp [eq_comm]
  | some slice =>
    obtain ⟨topology, accelerator⟩ := slice
    dsimp only
    rw [map_eq_ok_iff]
    constructor
    · intro h
      obtain ⟨podsPerCube, hcount, rfl⟩ := h
      exact .inr ⟨topology, accelerator, podsPerCube, rfl, hcount, rfl⟩
    · intro h
      rcases h with ⟨hnone, -⟩ | ⟨_, _, podsPerCube, hsame, hcount, rfl⟩
      · cases hnone
      · cases hsame
        exact ⟨podsPerCube, hcount, rfl⟩

theorem default_eq_error_iff {error : AdmissionError} :
    group.default = .error error ↔
      ∃ topology, group.podTemplate.AsksFor topology ∧
        group.podsPerCube topology = .error error := by
  unfold ReplicaGroup.default
  simp only [PodTemplate.asksFor_iff]
  cases hslice : group.podTemplate.requestedSlice? with
  | none => simp
  | some slice =>
    obtain ⟨topology, accelerator⟩ := slice
    have hmap : (group.podsPerCube topology).map (fun podsPerCube ↦ group.setPodTemplate
        (group.podTemplate.defaulted topology podsPerCube)) = .error error ↔
          group.podsPerCube topology = .error error := map_eq_error_iff
    refine hmap.trans ⟨fun hcount ↦ ⟨topology, ⟨accelerator, rfl⟩, hcount⟩, ?_⟩
    intro h
    obtain ⟨_, ⟨_, hsame⟩, hcount⟩ := h
    cases hsame
    exact hcount

/-- A group that asks for a shape and has passed has the template that defaulting gives it. -/
theorem exists_podsPerCube_of_default (hdefault : original.default = .ok group)
    (hasks : original.podTemplate.AsksFor topology) :
    ∃ podsPerCube, original.podsPerCube topology = .ok podsPerCube ∧
      group = original.setPodTemplate
        (original.podTemplate.defaulted topology podsPerCube) := by
  obtain ⟨accelerator, hslice⟩ := PodTemplate.asksFor_iff.mp hasks
  rcases default_eq_ok_iff.mp hdefault with ⟨hnone, -⟩ | ⟨_, _, podsPerCube, hfound, hcount, rfl⟩
  · cases hnone.symm.trans hslice
  · cases hfound.symm.trans hslice
    exact ⟨podsPerCube, hcount, rfl⟩

end ReplicaGroup

/-! ## Jobs -/

namespace Job

variable {job defaulted : Job}

/-- Defaulting leaves a job alone unless it is queued, and else it defaults the groups one by one.
-/
theorem default_eq_ok_iff :
    job.default = .ok defaulted ↔
      (job.isQueued = false ∧ defaulted = job) ∨
        job.isQueued = true ∧ ∃ groups, job.spec.groups.mapM ReplicaGroup.default = .ok groups ∧
          defaulted = { job with spec := { job.spec with groups } } := by
  unfold Job.default
  cases hqueued : job.isQueued with
  | false => simp [eq_comm]
  | true =>
    rw [if_pos rfl, map_eq_ok_iff]
    simp [eq_comm]

theorem exists_groups_of_default (hqueued : job.isQueued = true)
    (hdefault : job.default = .ok defaulted) :
    ∃ groups, job.spec.groups.mapM ReplicaGroup.default = .ok groups ∧
      defaulted = { job with spec := { job.spec with groups } } := by
  rcases default_eq_ok_iff.mp hdefault with ⟨hunqueued, -⟩ | ⟨-, hgroups⟩
  · cases hqueued.symm.trans hunqueued
  · exact hgroups

end Job

end SliceControl
