import SliceControl.Proofs.Admission.Agreement
import SliceControl.Proofs.PodTemplate.Fate

/-!
# Which nodes a template accepts

A template accepts a node by its selector and by its required terms. The requirements of a term hold
together, but the terms are alternatives, so that a further requirement has to go into each of them.

Defaulting demands healthy nodes in this way from every template that asks for a slice and says
nothing about health itself. Such a template then accepts just the healthy nodes that it accepted
before, whatever its other requirements mean.
-/

namespace SliceControl

/-- What the requirements and the untyped members of a term say about a node. The requirement for a
healthy node is the only one whose meaning is given. -/
structure Interpretation where
  meets : Requirement → Node → Prop
  admits : String → Json → Node → Prop
  meets_healthyNode : ∀ node,
    meets PodTemplate.healthyNode node ↔ node.label? Label.health = some Label.healthy

variable {reading : Interpretation} {node : Node} {requirement : Requirement}

/-! ## Terms -/

/-- The node meets all requirements of the term, and all its untyped members admit it. -/
structure SelectorTerm.Accepts (term : SelectorTerm) (reading : Interpretation) (node : Node) :
    Prop where
  requirements : ∀ requirement ∈ term.expressions, reading.meets requirement node
  members : ∀ key value, term.extra.get? key = some value → reading.admits key value node

theorem SelectorTerm.accepts_empty : SelectorTerm.empty.Accepts reading node where
  requirements := fun _ hmem ↦ absurd hmem List.not_mem_nil
  members := fun _ _ hmem ↦ nomatch hmem

theorem SelectorTerm.accepts_append_iff {term : SelectorTerm} :
    SelectorTerm.Accepts { term with expressions := term.expressions ++ [requirement] } reading
        node ↔
      term.Accepts reading node ∧ reading.meets requirement node := by
  constructor
  · intro h
    obtain ⟨hterm, hnew⟩ := List.forall_mem_append.mp h.requirements
    exact ⟨⟨hterm, h.members⟩, hnew requirement List.mem_cons_self⟩
  · intro h
    obtain ⟨hterm, hnew⟩ := h
    refine ⟨List.forall_mem_append.mpr ⟨hterm.requirements, ?_⟩, hterm.members⟩
    exact List.forall_mem_singleton.mpr hnew

namespace PodTemplate

/-- One of the terms accepts the node, if there are any. -/
def SomeAccepts (terms : List SelectorTerm) (reading : Interpretation) (node : Node) : Prop :=
  terms = [] ∨ ∃ term ∈ terms, term.Accepts reading node

/-- A requirement in every term is a requirement beside the terms. -/
theorem someAccepts_addToTerms_iff {terms : List SelectorTerm} :
    SomeAccepts (addToTerms requirement terms) reading node ↔
      SomeAccepts terms reading node ∧ reading.meets requirement node := by
  have hnonempty : addToTerms requirement terms ≠ [] := by
    cases terms <;> exact List.cons_ne_nil _ _
  have hterms : (∃ term ∈ addToTerms requirement terms, term.Accepts reading node) ↔
      (∃ term ∈ (if terms.isEmpty then [.empty] else terms), term.Accepts reading node) ∧
        reading.meets requirement node := by
    simp only [addToTerms, List.mem_map, exists_exists_and_eq_and,
      SelectorTerm.accepts_append_iff, ← and_assoc, exists_and_right]
  have hbefore : (∃ term ∈ (if terms.isEmpty then [.empty] else terms),
      term.Accepts reading node) ↔ SomeAccepts terms reading node := by
    cases terms with
    | nil =>
      -- The term that is made where there was none accepts every node.
      exact iff_of_true ⟨.empty, List.mem_cons_self, SelectorTerm.accepts_empty⟩ (.inl rfl)
    | cons first rest => exact (or_iff_right (List.cons_ne_nil first rest)).symm
  calc SomeAccepts (addToTerms requirement terms) reading node
      ↔ ∃ term ∈ addToTerms requirement terms, term.Accepts reading node := or_iff_right hnonempty
    _ ↔ _ := hterms
    _ ↔ SomeAccepts terms reading node ∧ reading.meets requirement node :=
      and_congr_left' hbefore

/-! ## Templates -/

/-- The node has all labels that the template selects, and one of the required terms accepts it. -/
structure Accepts (template : PodTemplate) (reading : Interpretation) (node : Node) : Prop where
  selected : ∀ key value, template.spec.nodeSelector.get? key = some value →
    node.label? key = some value
  required : SomeAccepts template.requiredTerms reading node

/-- The template says something about a label of nodes, in its selector or in a required term. -/
inductive Mentions (template : PodTemplate) (key : String) : Prop
  | selector {value : String} (hvalue : template.spec.nodeSelector.get? key = some value)
  | expression {term : SelectorTerm} {requirement : Requirement}
      (hterm : term ∈ template.requiredTerms) (hrequirement : requirement ∈ term.expressions)
      (hkey : requirement.key = key)

variable {template : PodTemplate}

theorem constrainsLabel_iff {key : String} :
    template.constrainsLabel key = true ↔ template.Mentions key := by
  unfold constrainsLabel SortedMap.contains
  rw [Bool.or_eq_true, Option.isSome_iff_exists, List.any_eq_true]
  simp only [List.any_eq_true, decide_eq_true_eq]
  constructor
  · intro h
    rcases h with ⟨value, hvalue⟩ | ⟨term, hterm, requirement, hrequirement, hkey⟩
    · exact .selector hvalue
    · exact .expression hterm hrequirement hkey
  · intro h
    cases h with
    | selector hvalue => exact .inl ⟨_, hvalue⟩
    | expression hterm hrequirement hkey => exact .inr ⟨_, hterm, _, hrequirement, hkey⟩

theorem requiredTerms_requireLabel (template : PodTemplate) (requirement : Requirement) :
    (template.requireLabel requirement).requiredTerms =
      addToTerms requirement template.requiredTerms := by
  obtain ⟨metadata, selector, affinity, containers, extra⟩ := template
  rcases affinity with _ | ⟨_ | ⟨_ | required, nodeExtra⟩, affinityExtra⟩ <;> rfl

theorem accepts_requireLabel_iff :
    (template.requireLabel requirement).Accepts reading node ↔
      template.Accepts reading node ∧ reading.meets requirement node := by
  constructor
  · intro h
    obtain ⟨hselected, hrequired⟩ := h
    rw [requiredTerms_requireLabel] at hrequired
    obtain ⟨hterms, hmeets⟩ := someAccepts_addToTerms_iff.mp hrequired
    exact ⟨⟨hselected, hterms⟩, hmeets⟩
  · intro h
    obtain ⟨haccepts, hmeets⟩ := h
    refine ⟨haccepts.selected, ?_⟩
    rw [requiredTerms_requireLabel]
    exact someAccepts_addToTerms_iff.mpr ⟨haccepts.required, hmeets⟩

/-- The other template has the same members, except for its required terms and the annotations for
the queue. -/
structure Keeps (template other : PodTemplate) : Prop where
  labels : other.metadata.labels = template.metadata.labels
  metadata : other.metadata.extra = template.metadata.extra
  annotations : ∀ key ∉ TemplateMetadata.queueAnnotations,
    other.annotation? key = template.annotation? key
  nodeSelector : other.spec.nodeSelector = template.spec.nodeSelector
  containers : other.spec.containers = template.spec.containers
  spec : other.spec.extra = template.spec.extra
  affinity : (other.spec.affinity.getD .empty).extra = (template.spec.affinity.getD .empty).extra
  nodeAffinity : ((other.spec.affinity.getD .empty).nodeAffinity.getD .empty).extra =
    ((template.spec.affinity.getD .empty).nodeAffinity.getD .empty).extra
  terms : other.requiredTerms.map SelectorTerm.extra =
      template.requiredTerms.map SelectorTerm.extra ∨
    template.requiredTerms = [] ∧ other.requiredTerms.map SelectorTerm.extra = [.empty]

theorem Keeps.refl (template : PodTemplate) : template.Keeps template :=
  ⟨rfl, rfl, fun _ _ ↦ rfl, rfl, rfl, rfl, rfl, rfl, .inl rfl⟩

theorem keeps_annotateForQueue (template : PodTemplate) (topology : Topology)
    (podsPerCube : Nat) : template.Keeps (template.annotateForQueue topology podsPerCube) :=
  { Keeps.refl template with
    annotations := fun _ hkey ↦ get?_annotateForQueue template topology podsPerCube hkey }

theorem keeps_requireLabel (template : PodTemplate) (requirement : Requirement) :
    template.Keeps (template.requireLabel requirement) where
  labels := rfl
  metadata := rfl
  annotations := fun _ _ ↦ rfl
  nodeSelector := rfl
  containers := rfl
  spec := rfl
  affinity := rfl
  nodeAffinity := rfl
  terms := by
    rw [requiredTerms_requireLabel]
    cases hterms : template.requiredTerms with
    | nil => exact .inr ⟨rfl, rfl⟩
    | cons first rest =>
      left
      unfold addToTerms
      rw [if_neg (by simp), List.map_map]
      rfl

/-! ## Defaulting -/

theorem constrainsLabel_annotateForQueue (template : PodTemplate) (topology : Topology)
    (podsPerCube : Nat) (key : String) :
    (template.annotateForQueue topology podsPerCube).constrainsLabel key =
      template.constrainsLabel key :=
  rfl

theorem keeps_defaulted (template : PodTemplate) (topology : Topology) (podsPerCube : Nat) :
    template.Keeps (template.defaulted topology podsPerCube) := by
  have hannotated := keeps_annotateForQueue template topology podsPerCube
  unfold defaulted requireHealthyNodes
  split_ifs
  · exact hannotated
  · exact { keeps_requireLabel template healthyNode with
      labels := hannotated.labels
      metadata := hannotated.metadata
      annotations := hannotated.annotations }

theorem spec_defaulted_of_mentions (hmentions : template.Mentions Label.health)
    (topology : Topology) (podsPerCube : Nat) :
    (template.defaulted topology podsPerCube).spec = template.spec := by
  unfold defaulted requireHealthyNodes
  rw [constrainsLabel_annotateForQueue, if_pos (constrainsLabel_iff.mpr hmentions)]
  rfl

/-- A template that says nothing about health demands it in addition. -/
theorem accepts_defaulted_iff (hsilent : ¬template.Mentions Label.health) (topology : Topology)
    (podsPerCube : Nat) :
    (template.defaulted topology podsPerCube).Accepts reading node ↔
      template.Accepts reading node ∧ node.label? Label.health = some Label.healthy := by
  have hannotated : (template.annotateForQueue topology podsPerCube).Accepts reading node ↔
      template.Accepts reading node :=
    ⟨fun h ↦ ⟨h.selected, h.required⟩, fun h ↦ ⟨h.selected, h.required⟩⟩
  unfold defaulted requireHealthyNodes
  rw [constrainsLabel_annotateForQueue, if_neg (mt constrainsLabel_iff.mp hsilent),
    accepts_requireLabel_iff, hannotated, reading.meets_healthyNode]

end PodTemplate

/-! ## Groups and jobs -/

/-- What becomes of a group. Its template changes at most, and only if it asks for a slice. Its pods
then go to the healthy nodes that they could go to before, unless the template says something about
health itself. -/
structure ReplicaGroup.Gated (group result : ReplicaGroup) (reading : Interpretation) : Prop where
  unrelated : (∀ topology, ¬group.podTemplate.AsksFor topology) → result = group
  template : result = group.setPodTemplate result.podTemplate
  kept : group.podTemplate.Keeps result.podTemplate
  silent : ∀ topology, group.podTemplate.AsksFor topology →
    ¬group.podTemplate.Mentions Label.health → ∀ node,
      (result.podTemplate.Accepts reading node ↔
        group.podTemplate.Accepts reading node ∧ node.label? Label.health = some Label.healthy)
  outspoken : group.podTemplate.Mentions Label.health →
    result.podTemplate.spec = group.podTemplate.spec

theorem ReplicaGroup.gated_of_default {group result : ReplicaGroup}
    (hdefault : group.default = .ok result) (reading : Interpretation) :
    group.Gated result reading := by
  rcases default_eq_ok_iff.mp hdefault with
    ⟨hnone, rfl⟩ | ⟨topology, accelerator, podsPerCube, hslice, -, rfl⟩
  · refine ⟨fun _ ↦ rfl, rfl, PodTemplate.Keeps.refl _, ?_, fun _ ↦ rfl⟩
    intro topology hasks
    obtain ⟨accelerator, hslice⟩ := PodTemplate.asksFor_iff.mp hasks
    cases hnone.symm.trans hslice
  · have hasks : group.podTemplate.AsksFor topology :=
      PodTemplate.asksFor_iff.mpr ⟨accelerator, hslice⟩
    exact {
      unrelated := fun hnever ↦ absurd hasks (hnever topology)
      template := rfl
      kept := PodTemplate.keeps_defaulted group.podTemplate topology podsPerCube
      silent := fun _ _ hsilent _ ↦
        PodTemplate.accepts_defaulted_iff hsilent topology podsPerCube
      outspoken := fun hmentions ↦
        PodTemplate.spec_defaulted_of_mentions hmentions topology podsPerCube }

/-- Defaulting a queued job changes templates that ask for a slice, and nothing else. A template
that says nothing about health then accepts just the healthy nodes that it accepted before, whatever
its requirements mean; one that does say something about it accepts the same nodes as before. -/
theorem Job.default_gates {job defaulted : Job} (hqueued : job.isQueued = true)
    (hdefault : job.default = .ok defaulted) (reading : Interpretation) :
    { defaulted with spec.groups := job.spec.groups } = job ∧
      List.Forall₂ (fun group result ↦ group.Gated result reading)
        job.spec.groups defaulted.spec.groups := by
  obtain ⟨groups, hgroups, rfl⟩ := exists_groups_of_default hqueued hdefault
  refine ⟨rfl, ?_⟩
  apply (forall₂_of_mapM_eq_ok hgroups).imp
  intro group result hresult
  exact ReplicaGroup.gated_of_default hresult reading

namespace Sample

/-- A requirement names values of which the node has one. -/
def labelReading : Interpretation where
  meets requirement node := ∃ value ∈ requirement.values, node.label? requirement.key = some value
  admits _ _ _ := True
  meets_healthyNode node := by simp [PodTemplate.healthyNode]

def zoned (zone : String) : SelectorTerm := ⟨[⟨"zone", "In", [zone]⟩], .empty⟩

/-- Pods that may go to one of two zones. -/
def zonedGroup : ReplicaGroup :=
  { trainingGroup with
    template.spec.template.spec.affinity :=
      some ⟨some ⟨some ⟨[zoned "a", zoned "b"]⟩, .empty⟩, .empty⟩ }

def zonedNode (health : String) : Node :=
  ⟨"v1", "Node",
    { Metadata.named "n0" with
      labels := SortedMap.ofList
        [(Label.accelerator, "tpu-v7x"), (Label.health, health), ("zone", "b")] }⟩

def zonedJob : Job := { trainingJob with spec.groups := [zonedGroup] }

def gatedGroup : ReplicaGroup :=
  zonedGroup.setPodTemplate (zonedGroup.podTemplate.defaulted trainingShape 16)

theorem zonedJob_default :
    zonedJob.default = .ok { zonedJob with spec.groups := [gatedGroup] } := by
  rfl

theorem zonedGroup_accepts :
    zonedGroup.podTemplate.Accepts labelReading (zonedNode Label.healthy) where
  selected := by
    intro key value hvalue
    obtain ⟨rfl, rfl⟩ : Label.accelerator = key ∧ "tpu-v7x" = value := by
      simpa [zonedGroup, trainingGroup, ReplicaGroup.podTemplate] using hvalue
    decide +kernel
  required := by
    refine .inr ⟨zoned "b", by decide +kernel, ?_, fun _ _ _ ↦ trivial⟩
    intro requirement hmem
    rw [List.mem_singleton.mp hmem]
    exact ⟨"b", List.mem_cons_self, by decide +kernel⟩

end Sample

/-- The pods of the sample go to a healthy node of the second zone, but not to an unhealthy one. -/
theorem Job.default_gates_sample :
    Sample.gatedGroup.podTemplate.Accepts Sample.labelReading (Sample.zonedNode Label.healthy) ∧
      ¬Sample.gatedGroup.podTemplate.Accepts Sample.labelReading (Sample.zonedNode "degraded") := by
  obtain ⟨-, hgroups⟩ :=
    Job.default_gates (by decide) Sample.zonedJob_default Sample.labelReading
  have hasks : Sample.zonedGroup.podTemplate.AsksFor Sample.trainingShape :=
    PodTemplate.asksFor_iff.mpr ⟨.tpuV7x, by decide +kernel⟩
  have hsilent : ¬Sample.zonedGroup.podTemplate.Mentions Label.health :=
    mt PodTemplate.constrainsLabel_iff.mpr (by decide +kernel)
  have hgated := (List.forall₂_cons.mp hgroups).1.silent Sample.trainingShape hasks hsilent
  constructor
  · exact (hgated _).mpr ⟨Sample.zonedGroup_accepts, by decide +kernel⟩
  · intro haccepts
    exact absurd ((hgated _).mp haccepts).2 (by decide +kernel)

end SliceControl
