import SliceControl.Proofs.Admission.Health
import SliceControl.Proofs.Admission.Patch

/-!
# Defaulting twice

A job that was admitted may be reviewed again. Defaulting takes the same decisions on a job that it
has defaulted: the request for a slice and the pods of a cube are the same, the annotations are
there already, and the template says something about health. So the second review changes nothing
and sends no patch.
-/

namespace SliceControl

open Text

/-! ## Templates -/

namespace PodTemplate

variable {template : PodTemplate}

theorem annotate_eq_self {key value : String} (h : template.annotation? key = some value) :
    template.annotate key value = template := by
  have hinsert : template.metadata.annotations.insert key value =
      template.metadata.annotations := by
    apply SortedMap.ext_get?
    intro other
    rw [SortedMap.get?_insert]
    split_ifs with hkey
    · rw [← hkey]
      exact h.symm
    · rfl
  unfold annotate
  rw [hinsert]

/-- The annotations for the queue are those of a shape. -/
structure IsAnnotated (template : PodTemplate) (topology : Topology) (podsPerCube : Nat) :
    Prop where
  required : template.annotation? Label.requiredTopology = some Label.block
  slice : template.annotation? Label.sliceRequiredTopology = some topology.sliceLevelLabel
  size : template.annotation? Label.sliceSize = some (String.ofList (Numeral.digits podsPerCube))

theorem IsAnnotated.annotateForQueue_eq_self {topology : Topology} {podsPerCube : Nat}
    (h : template.IsAnnotated topology podsPerCube) :
    template.annotateForQueue topology podsPerCube = template := by
  unfold annotateForQueue
  rw [annotate_eq_self h.required, annotate_eq_self h.slice, annotate_eq_self h.size]

theorem isAnnotated_annotateForQueue (template : PodTemplate) (topology : Topology)
    (podsPerCube : Nat) :
    (template.annotateForQueue topology podsPerCube).IsAnnotated topology podsPerCube where
  required := by
    unfold annotateForQueue
    rw [annotation?_annotate, if_neg (by decide), annotation?_annotate, if_neg (by decide),
      annotation?_annotate, if_pos rfl]
  slice := by
    unfold annotateForQueue
    rw [annotation?_annotate, if_neg (by decide), annotation?_annotate, if_pos rfl]
  size := by
    unfold annotateForQueue
    rw [annotation?_annotate, if_pos rfl]

theorem isAnnotated_defaulted (template : PodTemplate) (topology : Topology) (podsPerCube : Nat) :
    (template.defaulted topology podsPerCube).IsAnnotated topology podsPerCube := by
  obtain ⟨hrequired, hslice, hsize⟩ :=
    isAnnotated_annotateForQueue template topology podsPerCube
  have hunchanged := annotation?_defaulted template topology podsPerCube
  exact ⟨(hunchanged _).trans hrequired, (hunchanged _).trans hslice,
    (hunchanged _).trans hsize⟩

theorem mentions_requireLabel (template : PodTemplate) (requirement : Requirement) :
    (template.requireLabel requirement).Mentions requirement.key := by
  have hterm : ∃ term ∈ (template.requireLabel requirement).requiredTerms,
      requirement ∈ term.expressions := by
    rw [requiredTerms_requireLabel]
    cases template.requiredTerms with
    | nil => exact ⟨_, List.mem_cons_self, List.mem_cons_self⟩
    | cons first rest =>
      exact ⟨_, List.mem_cons_self, List.mem_append_right first.expressions List.mem_cons_self⟩
  obtain ⟨term, hterm, hrequirement⟩ := hterm
  exact .expression hterm hrequirement rfl

theorem mentions_requireHealthyNodes (template : PodTemplate) :
    template.requireHealthyNodes.Mentions Label.health := by
  unfold requireHealthyNodes
  split_ifs with hconstrains
  · exact constrainsLabel_iff.mp hconstrains
  · exact mentions_requireLabel template healthyNode

theorem Mentions.requireHealthyNodes_eq_self (h : template.Mentions Label.health) :
    template.requireHealthyNodes = template :=
  if_pos (constrainsLabel_iff.mpr h)

theorem defaulted_defaulted (template : PodTemplate) (topology : Topology) (podsPerCube : Nat) :
    (template.defaulted topology podsPerCube).defaulted topology podsPerCube =
      template.defaulted topology podsPerCube := by
  have hmentions : (template.defaulted topology podsPerCube).Mentions Label.health :=
    mentions_requireHealthyNodes _
  calc ((template.defaulted topology podsPerCube).annotateForQueue topology
          podsPerCube).requireHealthyNodes
      = (template.defaulted topology podsPerCube).requireHealthyNodes := by
        rw [(isAnnotated_defaulted template topology podsPerCube).annotateForQueue_eq_self]
    _ = template.defaulted topology podsPerCube := hmentions.requireHealthyNodes_eq_self

end PodTemplate

/-! ## Groups and jobs -/

/-- The pods of a cube depend on a template by its chips only. -/
theorem ReplicaGroup.podsPerCube_setPodTemplate {group : ReplicaGroup} {template : PodTemplate}
    (hchips : template.chipsPerPod = group.podTemplate.chipsPerPod) (topology : Topology) :
    (group.setPodTemplate template).podsPerCube topology = group.podsPerCube topology := by
  have htotal : (group.setPodTemplate template).parallelism * template.chipsPerPod =
      group.parallelism * group.podTemplate.chipsPerPod := congrArg (group.parallelism * ·) hchips
  unfold podsPerCube
  rw [show (group.setPodTemplate template).podTemplate = template from rfl, htotal]
  rfl

theorem ReplicaGroup.default_of_default {group defaulted : ReplicaGroup}
    (h : group.default = .ok defaulted) : defaulted.default = .ok defaulted := by
  rcases default_eq_ok_iff.mp h with
    ⟨hnone, rfl⟩ | ⟨topology, accelerator, podsPerCube, hslice, hcount, rfl⟩
  · exact h
  · apply default_eq_ok_iff.mpr
    refine .inr ⟨topology, accelerator, podsPerCube, ?_, ?_, ?_⟩
    · exact (PodTemplate.requestedSlice?_defaulted ..).trans hslice
    · have hchips := PodTemplate.chipsPerPod_defaulted group.podTemplate topology podsPerCube
      exact (podsPerCube_setPodTemplate hchips topology).trans hcount
    · exact congrArg group.setPodTemplate
        (PodTemplate.defaulted_defaulted group.podTemplate topology podsPerCube).symm

theorem Job.default_of_default {job defaulted : Job} (h : job.default = .ok defaulted) :
    defaulted.default = .ok defaulted := by
  rcases default_eq_ok_iff.mp h with ⟨hunqueued, rfl⟩ | ⟨hqueued, groups, hgroups, rfl⟩
  · exact h
  · have hagain : groups.mapM ReplicaGroup.default = .ok groups := by
      have hgroup : ∀ group ∈ groups, group.default = .ok (id group) := by
        intro group hgroup
        obtain ⟨original, -, horiginal⟩ := exists_of_mem_mapM hgroups hgroup
        exact ReplicaGroup.default_of_default horiginal
      rw [mapM_eq_ok_of_mem hgroup, List.map_id]
    exact default_eq_ok_iff.mpr (.inr ⟨hqueued, groups, hagain, rfl⟩)

/-! ## Reviews -/

/-- Defaulting a job that was defaulted changes nothing, and a review of it is answered without a
patch, whichever identifier is drawn. -/
theorem Job.default_settles {job defaulted : Job} (h : job.default = .ok defaulted) :
    defaulted.default = .ok defaulted ∧
      ∀ (review : Review) (request : ReviewRequest) (drawn : Uid),
        review.request = some request → Job.ofJson drawn request.object = .ok defaulted →
          review.answer drawn =
            ⟨review.apiVersion, review.kind, none, some (.allow request.uid)⟩ := by
  have hagain : defaulted.default = .ok defaulted := Job.default_of_default h
  refine ⟨hagain, ?_⟩
  intro review request drawn hrequest hobject
  rw [Review.answer, hrequest]
  dsimp only
  rw [ReviewRequest.respond_of_unchanged hobject hagain]

/-- The job that was submitted becomes another one, which stays as it is when it comes back. -/
theorem Job.default_settles_sample :
    Sample.submittedJob.default = .ok Sample.admittedJob ∧
      Sample.admittedJob ≠ Sample.submittedJob ∧
      Sample.admittedJob.default = .ok Sample.admittedJob ∧
      (Sample.reviewOf Sample.admittedJob.toJson).answer .generated =
        ⟨"admission.k8s.io/v1", "AdmissionReview", none, some (.allow "r1")⟩ := by
  have hreads : Job.ofJson .generated Sample.admittedJob.toJson = .ok Sample.admittedJob := by
    decide +kernel
  obtain ⟨hagain, hanswer⟩ := Job.default_settles Sample.submittedJob_default
  exact ⟨Sample.submittedJob_default, Sample.admittedJob_ne, hagain,
    hanswer (Sample.reviewOf Sample.admittedJob.toJson) _ _ rfl hreads⟩

end SliceControl
