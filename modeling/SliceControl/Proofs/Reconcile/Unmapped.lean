import SliceControl.Proofs.Reconcile.Replicas
import SliceControl.Proofs.Reconcile.Verdict

/-!
# Pod sets that can no longer be mapped

The partitions of a replica are read off the labels of the nodes that its pods are placed on. Once
such a node is gone or has lost its label, no slice is wanted for the whole pod set, and what it has
is given up like any slice that nobody wants. A slice is spared only where another replica goes by
the same name and wants the same hardware.
-/

namespace SliceControl

/-! ## Replicas and their labels -/

theorem Topology.sliceLevelLabel_ne_block (topology : Topology) :
    topology.sliceLevelLabel ≠ Label.block := by
  have hsubBlock : Label.subBlock ≠ Label.block := by decide
  unfold sliceLevelLabel
  cases topology.sizeClass with
  | superslice => exact hsubBlock
  | subslice =>
    intro hsame
    have hletters := congrArg (fun label : String ↦ label.toList.take 20) hsame
    unfold Label.partition at hletters
    simp only [String.toList_append, List.append_assoc] at hletters
    rw [List.take_append_of_le_length (by decide +kernel)] at hletters
    exact absurd hletters (by decide +kernel)

namespace Workload

variable {workload : Workload} {nodes others : List Node} {podSet : PodSet} {topology : Topology}
  {accelerator : Accelerator} {mapped : List WantedSlice}

/-- Besides the blocks a selector lists the partitions, under the label of their level. -/
theorem get?_sliceSelector {fine label : String} {blocks partitions : List String}
    (hlabel : label ≠ Label.block) :
    (sliceSelector fine blocks partitions).get? label =
      if fine = label then some partitions else none := by
  have hcoarse : (if blocks.isEmpty then SortedMap.empty
      else SortedMap.empty.insert Label.block blocks).get? label = none := by
    split_ifs
    · rfl
    · rw [SortedMap.get?_insert, if_neg hlabel.symm]
      rfl
  rw [sliceSelector, SortedMap.get?_insert, hcoarse]

/-- A selector tells the level of its partitions. -/
theorem eq_of_sliceSelector_eq {fine other : String} {blocks partitions : List String}
    {otherBlocks otherPartitions : List String} (hfine : fine ≠ Label.block)
    (h : sliceSelector other otherBlocks otherPartitions =
      sliceSelector fine blocks partitions) : other = fine := by
  have hlisted := congrArg (·.get? fine) h
  simp only [get?_sliceSelector hfine, if_pos] at hlisted
  by_contra hne
  rw [if_neg hne] at hlisted
  cases hlisted

/-- Where a pod set can be mapped, the hosts of all its pods have a label. -/
theorem nodeLabel_ne_of_wantedSlices_eq_ok {placement : Placement}
    (hplacement : (workload.assignment? podSet.name).bind (·.placement) = some placement)
    (h : workload.wantedSlices podSet topology accelerator nodes = .ok mapped) {host : String}
    (hhost : host ∈ placement.podHosts) :
    Placement.nodeLabel nodes topology.sliceLevelLabel host ≠ "" := by
  obtain ⟨found, count, replicas, hfound, htotal, hreplicas⟩ :=
    exists_replicas_of_wantedSlices_eq_ok h
  cases hplacement.symm.trans hfound
  obtain ⟨index, hindex, hreplica⟩ := Placement.exists_mem_replicaHosts htotal hhost
  rw [hreplicas] at h
  obtain ⟨wanted, -, hwanted⟩ := exists_of_mapM_eq_ok h (List.mem_range.mpr hindex)
  unfold replica? at hwanted
  split_ifs at hwanted with hunlabelled
  exact fun hempty ↦ hunlabelled (List.mem_map.mpr ⟨host, hreplica, hempty⟩)

/-- A pod set that could once be mapped fails to be mapped only for the label of a host, and the
problem tells one of the replicas that it had. -/
theorem exists_unlabelled {placement : Placement}
    (hplacement : (workload.assignment? podSet.name).bind (·.placement) = some placement)
    (hmapped : workload.wantedSlices podSet topology accelerator nodes = .ok mapped)
    {problem : PodSetProblem}
    (h : workload.wantedSlices podSet topology accelerator others = .error problem) :
    (∃ wanted ∈ mapped, problem = .unlabelledNode wanted.key.index topology.sliceLevelLabel) ∧
      ∃ host ∈ placement.podHosts,
        Placement.nodeLabel others topology.sliceLevelLabel host = "" := by
  obtain ⟨found, count, replicas, hfound, -, hreplicas⟩ :=
    exists_replicas_of_wantedSlices_eq_ok hmapped
  cases hplacement.symm.trans hfound
  rw [hreplicas] at h hmapped
  obtain ⟨index, hindex, herror⟩ := exists_of_mapM_eq_error h
  obtain ⟨wanted, hwanted, hreplica⟩ := exists_of_mapM_eq_ok hmapped hindex
  unfold replica? at herror hreplica
  split_ifs at herror with hunlabelled
  split_ifs at hreplica
  cases herror
  cases hreplica
  obtain ⟨host, hhost, hempty⟩ := List.mem_map.mp hunlabelled
  exact ⟨⟨_, hwanted, rfl⟩, host, Placement.mem_podHosts_of_mem_replicaHosts hhost, hempty⟩

/-- Nobody wants the hardware of a replica that can no longer be mapped under the key of the
replica: it would take the labels that are missing. -/
theorem key_ne_of_unmapped
    (hmapped : workload.wantedSlices podSet topology accelerator nodes = .ok mapped)
    {problem : PodSetProblem}
    (hproblem : workload.wantedSlices podSet topology accelerator others = .error problem)
    {wanted other : WantedSlice} (hwanted : wanted ∈ mapped)
    (hother : other ∈ workload.wanted others) (hspec : other.spec = wanted.spec) :
    other.key ≠ wanted.key := by
  intro hkey
  obtain ⟨otherSet, -, hwants⟩ := mem_wanted_iff.mp hother
  obtain ⟨otherTopology, otherAccelerator, slices, -, hslices, hmem⟩ := mem_wantedBy_iff.mp hwants
  obtain ⟨entry, hentry⟩ := exists_of_mem_wantedSlices hmapped hwanted
  obtain ⟨otherEntry, hotherEntry⟩ := exists_of_mem_wantedSlices hslices hmem
  obtain ⟨hwantedKey, -, _, _, hselector⟩ := of_wantedSlice_eq_ok hentry
  obtain ⟨hotherKey, -, _, _, hotherSelector⟩ := of_wantedSlice_eq_ok hotherEntry
  have hname : otherSet.name = podSet.name :=
    congrArg SliceKey.group (hotherKey.symm.trans (hkey.trans hwantedKey))
  -- The same selector has the same label, and the same group has the same hosts.
  have hlabel : otherTopology.sliceLevelLabel = topology.sliceLevelLabel := by
    apply eq_of_sliceSelector_eq topology.sliceLevelLabel_ne_block
    rw [← hselector, ← hotherSelector, hspec]
  obtain ⟨placement, -, -, hplacement, -⟩ := exists_replicas_of_wantedSlices_eq_ok hmapped
  obtain ⟨-, host, hhost, hempty⟩ := exists_unlabelled hplacement hmapped hproblem
  have hlabelled := nodeLabel_ne_of_wantedSlices_eq_ok (hname ▸ hplacement) hslices hhost
  rw [hlabel] at hlabelled
  exact hlabelled hempty

end Workload

/-! ## Deletions -/

namespace WantedSlice

/-- There is a slice of the wanted name, and it has the wanted spec and is not being deleted. -/
structure IsHeld (wanted : WantedSlice) (slices : List Slice) : Prop where
  owned : ∃ slice ∈ slices, slice.name = wanted.name
  intact : ∀ slice ∈ slices, slice.name = wanted.name →
    slice.isDeleting = false ∧ slice.spec = wanted.spec

/-- The slice is wanted for other replicas, whose keys happen to have the same name. -/
structure IsShared (wanted : WantedSlice) (others : List WantedSlice) : Prop where
  named : ∃ other ∈ others, other.name = wanted.name
  agreed : ∀ other ∈ others, other.name = wanted.name →
    other.key ≠ wanted.key ∧ other.spec = wanted.spec

variable {wanted other : WantedSlice} {slices : List Slice}

theorem IsHeld.standing_eq_outdated_iff (h : wanted.IsHeld slices)
    (hname : other.name = wanted.name) :
    other.standing slices = .outdated ↔ other.spec ≠ wanted.spec := by
  obtain ⟨slice, hslice⟩ := exists_lastNamed? h.owned
  obtain ⟨hmem, hsliceName⟩ := mem_of_lastNamed?_eq_some hslice
  obtain ⟨hkept, hspec⟩ := h.intact slice hmem hsliceName
  rw [WantedSlice.standing_eq_outdated_iff, hname, hslice]
  simp only [Option.some.injEq, exists_eq_left', hkept, hspec, true_and]
  exact ne_comm

/-- A slice that is held is spared just if its name is wanted, and never with another spec. -/
theorem IsHeld.deleteSlice_not_mem_iff {progress : Progress} (h : wanted.IsHeld progress.slices) :
    .deleteSlice wanted.name ∉ progress.sliceWrites ↔
      (∃ other ∈ progress.wanted, other.name = wanted.name) ∧
        ∀ other ∈ progress.wanted, other.name = wanted.name → other.spec = wanted.spec := by
  rw [Progress.mem_sliceWrites_iff]
  constructor
  · intro hspared
    have hnamed : ∃ other ∈ progress.wanted, other.name = wanted.name := by
      by_contra hunnamed
      push Not at hunnamed
      obtain ⟨slice, hmem, hname⟩ := h.owned
      have hunwanted : slice ∈ progress.unwanted :=
        Progress.mem_unwanted_iff.mpr ⟨hmem, hname ▸ hunnamed, (h.intact slice hmem hname).1⟩
      exact hspared (.inr (.inr ⟨slice, hunwanted, by rw [hname]⟩))
    refine ⟨hnamed, fun other hother hname ↦ ?_⟩
    by_contra hspec
    have houtdated := (h.standing_eq_outdated_iff hname).mpr hspec
    exact hspared (.inr (.inl ⟨other, hother, houtdated, by rw [hname]⟩))
  · rintro ⟨⟨named, hnamed, hname⟩, hagreed⟩ hdeleted
    rcases hdeleted with ⟨_, _, _, hwrite⟩ | ⟨other, hother, hout, hwrite⟩ | ⟨slice, hmem, hwrite⟩
    · cases hwrite
    · have hsame : other.name = wanted.name := (Write.deleteSlice.inj hwrite).symm
      exact (h.standing_eq_outdated_iff hsame).mp hout (hagreed other hother hsame)
    · have hsame : wanted.name = slice.name := Write.deleteSlice.inj hwrite
      exact (Progress.mem_unwanted_iff.mp hmem).2.1 named hnamed (hname.trans hsame)

end WantedSlice

/-- A pod set could be mapped onto some nodes and has all the slices that it wanted there, but it
cannot be mapped onto the nodes that there are now. The problem is that a host of some replica has
no label, and the check is not ready. Nevertheless a slice of the pod set is spared only if it is
shared. -/
theorem spares_unmapped_iff {snapshot : Snapshot} {context : PassContext} {workload : Workload}
    {current : AdmissionCheck} (hworkload : snapshot.workload = some workload)
    (hopen : workload.IsOpen context.checkName current) {podSet : PodSet}
    (hpodSet : podSet ∈ workload.podSets) {topology : Topology} {accelerator : Accelerator}
    (hrequest : podSet.template.requestedSlice? = some (topology, accelerator))
    {nodes : List Node} {mapped : List WantedSlice}
    (hmapped : workload.wantedSlices podSet topology accelerator nodes = .ok mapped)
    (hheld : ∀ wanted ∈ mapped, wanted.IsHeld snapshot.slices) {problem : PodSetProblem}
    (hproblem :
      workload.wantedSlices podSet topology accelerator snapshot.nodes = .error problem) :
    let outcome := reconcile snapshot context
    (∃ wanted ∈ mapped, problem = .unlabelledNode wanted.key.index topology.sliceLevelLabel) ∧
      (∀ wanted ∈ mapped, .deleteSlice wanted.name ∉ outcome.writes ↔
        wanted.IsShared (workload.wanted snapshot.nodes)) ∧
      (outcome.checkAfter current).state ≠ .ready := by
  intro outcome
  have houtcome : outcome = (snapshot.progress workload context).outcome current :=
    reconcile_of_isOpen hworkload hopen
  refine ⟨?_, fun wanted hwanted ↦ ?_, fun hready ↦ ?_⟩
  · obtain ⟨placement, -, -, hplacement, -⟩ :=
      Workload.exists_replicas_of_wantedSlices_eq_ok hmapped
    exact (Workload.exists_unlabelled hplacement hmapped hproblem).1
  · have hwrites : .deleteSlice wanted.name ∈ outcome.writes ↔
        .deleteSlice wanted.name ∈ (snapshot.progress workload context).sliceWrites := by
      rw [houtcome, Progress.outcome, List.mem_append, or_iff_left]
      intro hcheck
      cases Progress.eq_of_mem_checkWrites hcheck
    rw [hwrites, (hheld wanted hwanted).deleteSlice_not_mem_iff]
    constructor
    · rintro ⟨hnamed, hagreed⟩
      refine ⟨hnamed, fun other hother hname ↦ ?_⟩
      have hspec := hagreed other hother hname
      exact ⟨Workload.key_ne_of_unmapped hmapped hproblem hwanted hother hspec, hspec⟩
    · intro hshared
      exact ⟨hshared.named, fun other hother hname ↦ (hshared.agreed other hother hname).2⟩
  · rw [houtcome, Progress.state_checkAfter, Progress.checkState_eq_ready_iff,
      Progress.allReady_iff] at hready
    have hplan : ⟨podSet.name, .error problem⟩ ∈ workload.plans snapshot.nodes :=
      List.mem_filterMap.mpr ⟨podSet, hpodSet, by rw [Workload.plan?, hrequest, ← hproblem]; rfl⟩
    cases hready.2.1 _ hplan

/-! ## A node without its label -/

namespace Sample

def workers : PodSet := ⟨"workers", 1, template⟩

/-- The shape that the pod set asks for. -/
def shape : Topology := ⟨⟨2, 2, 1⟩, .subslice⟩

def readyCheck : AdmissionCheck := ⟨"tpu-slice", .ready, "workers: 1/1 slices ready", none⟩

/-- The sample workload with its slice in use. -/
def running : Workload := { workload with status.checks := [readyCheck] }

/-- The slice is active on the given nodes. -/
def runningOn (nodes : List Node) : Snapshot := ⟨"team/job", some running, activeSlices, nodes⟩

/-- The node of the sample after it has lost its labels. -/
def bareNode : Node := { node with metadata.labels := .empty }

theorem requestedSlice?_workers : workers.template.requestedSlice? = some (shape, .tpuV7x) := by
  decide +kernel

theorem running_isOpen : running.IsOpen context.checkName readyCheck :=
  ⟨rfl, rfl, by decide, rfl, .inr rfl⟩

theorem wantedSlices_workers :
    running.wantedSlices workers shape .tpuV7x [node] = .ok (running.wanted [node]) := by
  rfl

theorem wantedSlices_workers_bareNode :
    running.wantedSlices workers shape .tpuV7x [bareNode] =
      .error (.unlabelledNode 0 (Label.partition "2x2x1")) := by
  rfl

theorem isHeld_activeSlices :
    ∀ wanted ∈ running.wanted [node], wanted.IsHeld activeSlices := by
  intro wanted hwanted
  constructor
  · revert wanted
    decide +kernel
  · revert wanted
    decide +kernel

end Sample

/-- Nothing is wanted on a node without labels, so that the slice of the sample is not shared. -/
theorem spares_unmapped_iff_sample :
    let mapped := Sample.running.wanted [Sample.node]
    let outcome := reconcile (Sample.runningOn [Sample.bareNode]) Sample.context
    mapped.length = 1 ∧ (∀ wanted ∈ mapped, .deleteSlice wanted.name ∈ outcome.writes) ∧
      (outcome.checkAfter Sample.readyCheck).state ≠ .ready := by
  intro mapped outcome
  obtain ⟨-, hspared, hstate⟩ := spares_unmapped_iff
    (show (Sample.runningOn [Sample.bareNode]).workload = some Sample.running from rfl)
    Sample.running_isOpen (List.mem_singleton.mpr rfl) Sample.requestedSlice?_workers
    Sample.wantedSlices_workers Sample.isHeld_activeSlices Sample.wantedSlices_workers_bareNode
  refine ⟨by decide +kernel, fun wanted hwanted ↦ ?_, hstate⟩
  by_contra hkept
  obtain ⟨other, hother, -⟩ := ((hspared wanted hwanted).mp hkept).named
  have hnone : Sample.running.wanted [Sample.bareNode] = [] := rfl
  exact absurd (hnone ▸ hother : other ∈ []) List.not_mem_nil

/-- A workload is running with nothing left to do. Once its node has lost the label, its slice is
deleted. -/
theorem tears_down_unlabelled :
    Sample.running.IsOpen Sample.context.checkName Sample.readyCheck ∧
      (reconcile (Sample.runningOn [Sample.node]) Sample.context).writes = [] ∧
      (∃ mapped, Sample.running.wantedSlices Sample.workers Sample.shape .tpuV7x [Sample.node] =
          .ok mapped ∧ mapped.map WantedSlice.name = ["team-job-workers-0"] ∧
        ∀ wanted ∈ mapped, wanted.IsHeld Sample.activeSlices) ∧
      Sample.running.wantedSlices Sample.workers Sample.shape .tpuV7x [Sample.bareNode] =
        .error (.unlabelledNode 0 (Label.partition "2x2x1")) ∧
      .deleteSlice "team-job-workers-0" ∈
        (reconcile (Sample.runningOn [Sample.bareNode]) Sample.context).writes := by
  refine ⟨Sample.running_isOpen, ?_, ⟨_, Sample.wantedSlices_workers, ?_, ?_⟩,
    Sample.wantedSlices_workers_bareNode, ?_⟩
  · decide +kernel
  · decide +kernel
  · exact Sample.isHeld_activeSlices
  · decide +kernel

end SliceControl
