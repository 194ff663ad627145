import SliceControl.Reconcile.Wanted
import SliceControl.Slice.State
import SliceControl.Proofs.Placement.Lookup
import SliceControl.Proofs.Store.Operations
import SliceControl.Proofs.Time.Instant

/-!
# Where wanted slices come from

Every wanted slice is a new slice whose annotations name its workload as the owner. Which slices a
workload wants depends on its pod sets and its admission, and on no other nodes than those that the
admission places pods on.
-/

namespace SliceControl

/-! ## Owner and age -/

namespace Workload

variable {workload : Workload} {nodes : List Node}

/-- The slices of a pod set come from the pieces of the placement that the admission gives it. How
the placement is cut does not depend on the nodes. -/
theorem exists_pieces_of_wantedSlices_eq_ok {podSet : PodSet} {topology : Topology}
    {accelerator : Accelerator} {slices : List WantedSlice}
    (h : workload.wantedSlices podSet topology accelerator nodes = .ok slices) :
    ∃ (placement : Placement) (perReplica : Nat) (pieces : List Placement),
      (workload.assignment? podSet.name).bind (·.placement) = some placement ∧
        placement.splitByReplica perReplica = .ok pieces ∧
        ∀ others, workload.wantedSlices podSet topology accelerator others =
          pieces.zipIdx.mapM (workload.wantedSlice podSet.name topology accelerator others) := by
  unfold wantedSlices at h ⊢
  cases hplacement : (workload.assignment? podSet.name).bind (·.placement) with
  | none => rw [hplacement] at h; cases h
  | some placement =>
    rw [hplacement] at h
    obtain ⟨perReplica, hcount, h⟩ := bind_eq_ok_iff.mp h
    obtain ⟨assigned, htotal, h⟩ := bind_eq_ok_iff.mp h
    dsimp only at h
    split_ifs at h with hmatch
    · cases h
    · obtain ⟨pieces, hcut, -⟩ := bind_eq_ok_iff.mp h
      refine ⟨placement, perReplica, pieces, rfl, mapError_eq_ok_iff.mp hcut, fun others ↦ ?_⟩
      dsimp only
      rw [hcount, htotal]
      show (if assigned ≠ podSet.count.toNat then _ else _ >>= _) = _
      rw [if_neg hmatch, hcut]
      rfl

/-- Every slice of a pod set is that of a replica. -/
theorem exists_of_mem_wantedSlices {podSet : PodSet} {topology : Topology}
    {accelerator : Accelerator} {slices : List WantedSlice}
    (h : workload.wantedSlices podSet topology accelerator nodes = .ok slices)
    {wanted : WantedSlice} (hmem : wanted ∈ slices) :
    ∃ entry, workload.wantedSlice podSet.name topology accelerator nodes entry = .ok wanted := by
  obtain ⟨-, -, pieces, -, -, hpieces⟩ := exists_pieces_of_wantedSlices_eq_ok h
  rw [hpieces] at h
  obtain ⟨entry, -, hentry⟩ := exists_of_mem_mapM h hmem
  exact ⟨entry, hentry⟩

/-- A wanted slice is new, with the metadata that its replica has in the workload and a selector for
the partitions at the level of its topology. -/
theorem of_wantedSlice_eq_ok {group : String} {topology : Topology} {accelerator : Accelerator}
    {entry : Placement × Nat} {wanted : WantedSlice}
    (h : workload.wantedSlice group topology accelerator nodes entry = .ok wanted) :
    wanted.key = ⟨workload.namespaceName, workload.jobName, group, entry.2⟩ ∧
      wanted.slice = Slice.new (workload.sliceMetadata wanted.key) wanted.spec ∧
      ∃ blocks partitions,
        wanted.spec.nodeSelector = sliceSelector topology.sliceLevelLabel blocks partitions := by
  unfold wantedSlice at h
  obtain ⟨partitions, -, h⟩ := bind_eq_ok_iff.mp h
  dsimp only at h
  split_ifs at h
  · cases h
  · obtain ⟨blocks, -, h⟩ := bind_eq_ok_iff.mp h
    cases h
    exact ⟨rfl, rfl, _, _, rfl⟩

theorem slice_of_mem_plan {plan : PodSetPlan} (hplan : plan ∈ workload.plans nodes)
    {wanted : WantedSlice} (h : wanted ∈ plan.wanted) :
    wanted.slice = Slice.new (workload.sliceMetadata wanted.key) wanted.spec := by
  simp only [plans, plan?, List.mem_filterMap, Option.map_eq_some_iff] at hplan
  obtain ⟨podSet, -, ⟨topology, accelerator⟩, -, rfl⟩ := hplan
  unfold PodSetPlan.wanted at h
  dsimp only at h
  cases hslices : workload.wantedSlices podSet topology accelerator nodes with
  | error problem => simp [hslices] at h
  | ok slices =>
    rw [hslices] at h
    obtain ⟨entry, hentry⟩ := exists_of_mem_wantedSlices hslices h
    exact (of_wantedSlice_eq_ok hentry).2.1

/-- The annotations of a new slice name the workload. -/
theorem ownerKey_new (workload : Workload) (key : SliceKey) (spec : SliceSpec) :
    (Slice.new (workload.sliceMetadata key) spec).ownerKey = some workload.key := by
  simp [Slice.ownerKey, Slice.new, sliceMetadata, SortedMap.ofList, Workload.key,
    Metadata.qualifiedName, namespaceName, Label.ownerWorkloadNamespace, Label.ownerWorkloadName,
    Label.ownerJobNamespace, Label.ownerJobName]

/-- A slice that has just been created waits for its first report. -/
theorem state_stamped_new (workload : Workload) (key : SliceKey) (spec : SliceSpec) (now : Instant)
    (timeout : Duration) :
    ((Slice.new (workload.sliceMetadata key) spec).stamped now).state now timeout = .created := by
  simp [Slice.state, Slice.new, Slice.stamped, Slice.isDeleting, Slice.hasFailed, Slice.ready?,
    Slice.isOverdue, Slice.waitingSince?, Slice.reportedState, sliceMetadata, Metadata.named,
    Metadata.stamped, Metadata.isDeleting, SliceStatus.empty, SliceStatus.condition?,
    Instant.elapsedBeyond]

end Workload

/-! ## The nodes of a placement -/

namespace Placement

/-- Cutting a list of domains makes no new places. -/
theorem values_of_mem_takePods {count : Nat} {domains : List Domain} {domain : Domain}
    (h : domain ∈ (takePods count domains).1 ∨ domain ∈ (takePods count domains).2) :
    ∃ original ∈ domains, original.values = domain.values := by
  induction domains generalizing count with
  | nil => simp [takePods] at h
  | cons head rest ih =>
    have hrest (h : domain ∈ (takePods (count - head.count.toNat) rest).1 ∨
        domain ∈ (takePods (count - head.count.toNat) rest).2) :
        ∃ original ∈ head :: rest, original.values = domain.values := by
      obtain ⟨original, hmem, hvalues⟩ := ih h
      exact ⟨original, List.mem_cons_of_mem _ hmem, hvalues⟩
    unfold takePods at h
    split_ifs at h with hcount hfits hnone
    · exact ⟨domain, by simpa using h, rfl⟩
    · exact hrest h
    · simp only [List.mem_cons, or_assoc] at h
      rcases h with rfl | h
      · exact ⟨domain, List.mem_cons_self, rfl⟩
      · exact hrest h
    · simp only [List.mem_cons, List.not_mem_nil, or_false] at h
      rcases h with rfl | rfl | h
      · exact ⟨head, List.mem_cons_self, rfl⟩
      · exact ⟨head, List.mem_cons_self, rfl⟩
      · exact ⟨domain, List.mem_cons_of_mem _ h, rfl⟩

theorem values_of_mem_pieces {count number : Nat} {domains piece : List Domain}
    (hpiece : piece ∈ pieces count number domains) {domain : Domain} (h : domain ∈ piece) :
    ∃ original ∈ domains, original.values = domain.values := by
  induction number generalizing domains with
  | zero => simp [pieces] at hpiece
  | succ number ih =>
    rcases List.mem_cons.mp hpiece with rfl | hrest
    · exact values_of_mem_takePods (.inl h)
    · obtain ⟨left, hleft, hvalues⟩ := ih hrest
      obtain ⟨original, horiginal, hsame⟩ := values_of_mem_takePods (.inr hleft)
      exact ⟨original, horiginal, hsame.trans hvalues⟩

/-- A piece of a placement uses nodes of the placement only. -/
theorem placesOn_of_mem_splitByReplica {placement piece : Placement} {podsPerReplica : Nat}
    {cut : List Placement} (hcut : placement.splitByReplica podsPerReplica = .ok cut)
    (hpiece : piece ∈ cut) {host : String} (h : piece.placesOn host = true) :
    placement.placesOn host = true := by
  obtain ⟨replicas, -, rfl⟩ := of_splitByReplica_eq_ok hcut
  have hlevel := levelIndex?_of_mem_cut hpiece Label.hostname
  unfold placesOn at h ⊢
  rw [hlevel] at h
  split at h
  · obtain ⟨domain, hdomain, hhost⟩ := List.any_eq_true.mp h
    obtain ⟨original, horiginal, hvalues⟩ :=
      values_of_mem_pieces (mem_cut_iff.mp hpiece).1 hdomain
    refine List.any_eq_true.mpr ⟨original, horiginal, ?_⟩
    rw [hvalues]
    exact hhost
  · cases h

end Placement

namespace Workload

variable {workload : Workload} {nodes others : List Node}

theorem wantedSlice_congr {group : String} {topology : Topology} {accelerator : Accelerator}
    {entry : Placement × Nat} (h : ∀ host, entry.1.placesOn host = true →
      nodes.find? (·.name = host) = others.find? (·.name = host)) :
    workload.wantedSlice group topology accelerator nodes entry =
      workload.wantedSlice group topology accelerator others entry := by
  unfold wantedSlice
  dsimp only
  rw [Placement.partitionIds_congr h, Placement.partitionIds_congr h]

theorem wantedSlices_congr {podSet : PodSet} {topology : Topology} {accelerator : Accelerator}
    (h : ∀ host, workload.usesHost host = true →
      nodes.find? (·.name = host) = others.find? (·.name = host)) :
    workload.wantedSlices podSet topology accelerator nodes =
      workload.wantedSlices podSet topology accelerator others := by
  unfold wantedSlices
  cases hassigned : (workload.assignment? podSet.name).bind (·.placement) with
  | none => rfl
  | some placement =>
    have huses : ∀ host, placement.placesOn host = true → workload.usesHost host = true := by
      intro host hhost
      obtain ⟨assignment, hassignment, hplacement⟩ := Option.bind_eq_some_iff.mp hassigned
      obtain ⟨admission, hadmission, hfound⟩ := Option.bind_eq_some_iff.mp hassignment
      unfold usesHost
      rw [hadmission, Option.any_some]
      refine List.any_eq_true.mpr ⟨assignment, List.mem_of_find?_eq_some hfound, ?_⟩
      rw [hplacement, Option.any_some]
      exact hhost
    refine bind_congr fun perReplica ↦ bind_congr fun assigned ↦ ?_
    dsimp only
    split_ifs
    · rfl
    cases hcut : placement.splitByReplica perReplica with
    | error error => rfl
    | ok cut =>
      refine mapM_congr_of_mem fun entry hentry ↦ wantedSlice_congr fun host hhost ↦ ?_
      have hpiece : entry.1 ∈ cut := by
        obtain ⟨piece, position⟩ := entry
        exact (List.mem_zipIdx' hentry).2 ▸ List.getElem_mem _
      exact h host (huses host (Placement.placesOn_of_mem_splitByReplica hcut hpiece hhost))

/-- What a workload wants depends on the nodes that it is admitted onto, and on no others. -/
theorem plans_congr (h : ∀ host, workload.usesHost host = true →
    nodes.find? (·.name = host) = others.find? (·.name = host)) :
    workload.plans nodes = workload.plans others := by
  unfold plans
  apply List.filterMap_congr
  intro podSet _
  unfold plan?
  simp only [wantedSlices_congr h]

end Workload

end SliceControl
