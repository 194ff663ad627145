import SliceControl.Proofs.Placement.Pods
import SliceControl.Proofs.Reconcile.Situation
import SliceControl.Proofs.Reconcile.Wanted

/-!
# The slices of the replicas

Where every host of a placement is listed with the label of its partition, a pod set gets one slice
for each of its replicas, made from the partitions and blocks of the hosts of this replica's pods. A
workload that has no slices yet has all of them created, and a label tells which pod set each of
them is for.
-/

namespace SliceControl

open Text

/-! ## Cutting a labelled placement -/

namespace Placement

variable {placement : Placement} {nodes : List Node} {label : String}

end Placement

/-! ## The slices of a workload -/

namespace Workload

variable {workload : Workload} {nodes : List Node} {group : String} {topology : Topology}
  {accelerator : Accelerator}

/-- The slice for a replica whose pods run on `hosts`: it is made from the partitions and the blocks
of these hosts. -/
def replica (workload : Workload) (group : String) (topology : Topology)
    (accelerator : Accelerator) (nodes : List Node) (hosts : List String) (index : Nat) :
    WantedSlice :=
  let values (label : String) := distinct (hosts.map (Placement.nodeLabel nodes label))
  let key : SliceKey := ⟨workload.namespaceName, workload.jobName, group, index⟩
  ⟨key, Slice.new (workload.sliceMetadata key)
    ⟨accelerator, topology.write,
      sliceSelector topology.sliceLevelLabel ((values Label.block).filter (· ≠ ""))
        (values topology.sliceLevelLabel)⟩⟩

/-- The slice for a replica, if all hosts of its pods have the label of their partition. -/
def replica? (workload : Workload) (group : String) (topology : Topology)
    (accelerator : Accelerator) (nodes : List Node) (hosts : List String) (index : Nat) :
    Except PodSetProblem WantedSlice :=
  if "" ∈ hosts.map (Placement.nodeLabel nodes topology.sliceLevelLabel) then
    .error (.unlabelledNode index topology.sliceLevelLabel)
  else .ok (workload.replica group topology accelerator nodes hosts index)

theorem wantedSlice_eq {piece : Placement} (hnames : piece.NamesHosts)
    (hcounts : ∀ domain ∈ piece.domains, domain.count.toNat ≠ 0) (index : Nat) :
    workload.wantedSlice group topology accelerator nodes (piece, index) =
      workload.replica? group topology accelerator nodes piece.podHosts index := by
  have hcontains : (distinct (piece.podHosts.map
      (Placement.nodeLabel nodes topology.sliceLevelLabel))).contains "" = true ↔
        "" ∈ piece.podHosts.map (Placement.nodeLabel nodes topology.sliceLevelLabel) := by
    rw [List.contains_iff_mem, mem_distinct_iff]
  unfold wantedSlice replica?
  dsimp only
  rw [hnames.partitionIds_eq_ok hcounts, hnames.partitionIds_eq_ok hcounts]
  show (if _ then _ else _) = _
  by_cases hunlabelled :
      "" ∈ piece.podHosts.map (Placement.nodeLabel nodes topology.sliceLevelLabel)
  · rw [if_pos (hcontains.mpr hunlabelled), if_pos hunlabelled]
    rfl
  · rw [if_neg (mt hcontains.mp hunlabelled), if_neg hunlabelled]
    rfl

theorem namesHosts_of_wantedSlice_eq_ok {entry : Placement × Nat} {wanted : WantedSlice}
    (h : workload.wantedSlice group topology accelerator nodes entry = .ok wanted) :
    entry.1.NamesHosts := by
  unfold wantedSlice at h
  obtain ⟨partitions, hpartitions, -⟩ := bind_eq_ok_iff.mp h
  have hfound := mapError_eq_ok_iff.mp hpartitions
  unfold Placement.partitionIds at hfound
  cases hhosts : entry.1.hosts with
  | error error => rw [hhosts] at hfound; cases hfound
  | ok hosts => exact Placement.namesHosts_of_hosts_eq_ok hhosts

/-- A pod set that could once be mapped has its replicas described one by one, and on every list of
nodes they have the same pods. -/
theorem exists_replicas_of_wantedSlices_eq_ok {podSet : PodSet} {slices : List WantedSlice}
    (h : workload.wantedSlices podSet topology accelerator nodes = .ok slices) :
    ∃ (placement : Placement) (count replicas : Nat),
      (workload.assignment? podSet.name).bind (·.placement) = some placement ∧
        Placement.podCount placement.domains = replicas * count ∧
        ∀ others, workload.wantedSlices podSet topology accelerator others =
          (List.range replicas).mapM fun index ↦
            workload.replica? podSet.name topology accelerator others
              (placement.replicaHosts count index) index := by
  obtain ⟨placement, count, pieces, hplacement, hcut, hpieces⟩ :=
    exists_pieces_of_wantedSlices_eq_ok h
  obtain ⟨replicas, htotal, rfl⟩ := Placement.of_splitByReplica_eq_ok hcut
  refine ⟨placement, count, replicas, hplacement, htotal, fun others ↦ ?_⟩
  have hreplica : ∀ entry ∈ (placement.cut count replicas).zipIdx,
      workload.wantedSlice podSet.name topology accelerator others entry =
        workload.replica? podSet.name topology accelerator others
          (placement.replicaHosts count entry.2) entry.2 := by
    rintro ⟨piece, index⟩ hentry
    have hget : (placement.cut count replicas)[index]? = some piece :=
      List.mem_zipIdx_iff_getElem?.mp hentry
    have hpiece : piece ∈ placement.cut count replicas := List.mem_of_getElem? hget
    obtain ⟨level, hlevel, hvalues⟩ : piece.NamesHosts := by
      rw [hpieces] at h
      obtain ⟨wanted, -, hwanted⟩ := exists_of_mapM_eq_ok h hentry
      exact namesHosts_of_wantedSlice_eq_ok hwanted
    have hpods : piece.podHosts = placement.replicaHosts count index :=
      Placement.podHosts_cut ((Placement.levelIndex?_of_mem_cut hpiece _).symm.trans hlevel) hget
    rw [← hpods]
    apply wantedSlice_eq ⟨level, hlevel, hvalues⟩
    intro domain
    exact Placement.count_ne_zero_of_mem_pieces (Placement.mem_cut_iff.mp hpiece).1
  rw [hpieces, mapM_congr_of_mem hreplica, ← placement.map_snd_zipIdx_cut count replicas,
    List.mapM_map]
  rfl

/-! ## The slices of one pod set -/

/-- What one pod set wants. -/
def wantedBy (workload : Workload) (nodes : List Node) (podSet : PodSet) : List WantedSlice :=
  (workload.plan? nodes podSet).elim [] PodSetPlan.wanted

theorem wanted_eq_flatMap (workload : Workload) (nodes : List Node) :
    workload.wanted nodes = workload.podSets.flatMap (workload.wantedBy nodes) := by
  unfold wanted plans wantedBy
  induction workload.podSets with
  | nil => rfl
  | cons podSet rest ih =>
    rw [List.flatMap_cons, ← ih]
    cases hplan : workload.plan? nodes podSet <;> simp [hplan]

theorem mem_wantedBy_iff {podSet : PodSet} {wanted : WantedSlice} :
    wanted ∈ workload.wantedBy nodes podSet ↔ ∃ topology accelerator slices,
      podSet.template.requestedSlice? = some (topology, accelerator) ∧
        workload.wantedSlices podSet topology accelerator nodes = .ok slices ∧
        wanted ∈ slices := by
  unfold wantedBy plan? PodSetPlan.wanted
  constructor
  · intro h
    cases hrequest : podSet.template.requestedSlice? with
    | none => simp [hrequest] at h
    | some request =>
      cases hslices : workload.wantedSlices podSet request.1 request.2 nodes with
      | error problem => simp [hrequest, hslices] at h
      | ok slices =>
        exact ⟨request.1, request.2, slices, rfl, hslices, by simpa [hrequest, hslices] using h⟩
  · rintro ⟨topology, accelerator, slices, hrequest, hslices, hmem⟩
    simpa [hrequest, hslices] using hmem

theorem mem_wanted_iff {wanted : WantedSlice} :
    wanted ∈ workload.wanted nodes ↔
      ∃ podSet ∈ workload.podSets, wanted ∈ workload.wantedBy nodes podSet := by
  rw [wanted_eq_flatMap, List.mem_flatMap]

end Workload

/-! ## Creations -/

end SliceControl
