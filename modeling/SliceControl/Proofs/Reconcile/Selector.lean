import SliceControl.Proofs.Reconcile.Unmapped

/-!
# Slices and the nodes of their pods

A slice is made for the share that one replica has in a placement, and its selector is put together
from the labels of the nodes in this share. Partitions have to be known for all of them. Blocks are
left out where they are not known, so that a selector which names the blocks of some nodes of a
share does not admit those nodes of it that have none.
-/

namespace SliceControl

open Text

/-! ## Shares -/

/-- The share of one replica in the placement of a pod set that asks for slices. -/
structure Share where
  workload : Workload
  podSet : PodSet
  topology : Topology
  accelerator : Accelerator
  placement : Placement
  /-- Pods in one replica. -/
  count : Nat
  index : Nat
  piece : Placement

namespace Share

/-- The share is one that the workload of a snapshot has. -/
structure IsIn (share : Share) (snapshot : Snapshot) : Prop where
  workload : snapshot.workload = some share.workload
  podSet : share.podSet ∈ share.workload.podSets
  request : share.podSet.template.requestedSlice? = some (share.topology, share.accelerator)
  placement : (share.workload.assignment? share.podSet.name).bind (·.placement) =
    some share.placement
  count : Workload.podsPerReplica share.podSet share.topology = .ok share.count
  piece : ∃ pieces, share.placement.splitByReplica share.count = .ok pieces ∧
    pieces[share.index]? = some share.piece

/-- The slice is the one that is made for the share on the nodes of the snapshot. -/
structure Makes (share : Share) (snapshot : Snapshot) (slice : Slice) : Prop where
  isIn : share.IsIn snapshot
  slice : ∃ wanted, share.workload.wantedSlice share.podSet.name share.topology share.accelerator
    snapshot.nodes (share.piece, share.index) = .ok wanted ∧ wanted.slice = slice

end Share

namespace Workload

variable {workload : Workload} {nodes : List Node} {podSet : PodSet} {topology : Topology}
  {accelerator : Accelerator}

/-- The slices of a pod set are made from the pieces of its placement. -/
theorem of_wantedSlices_eq_ok {slices : List WantedSlice}
    (h : workload.wantedSlices podSet topology accelerator nodes = .ok slices) :
    ∃ placement count pieces,
      (workload.assignment? podSet.name).bind (·.placement) = some placement ∧
        podsPerReplica podSet topology = .ok count ∧
        placement.splitByReplica count = .ok pieces ∧
        pieces.zipIdx.mapM (workload.wantedSlice podSet.name topology accelerator nodes) =
          .ok slices := by
  unfold wantedSlices at h
  cases hplacement : (workload.assignment? podSet.name).bind (·.placement) with
  | none => rw [hplacement] at h; cases h
  | some placement =>
    rw [hplacement] at h
    obtain ⟨count, hcount, h⟩ := bind_eq_ok_iff.mp h
    obtain ⟨assigned, -, h⟩ := bind_eq_ok_iff.mp h
    dsimp only at h
    split_ifs at h
    · cases h
    · obtain ⟨pieces, hcut, hslices⟩ := bind_eq_ok_iff.mp h
      exact ⟨placement, count, pieces, rfl, hcount, mapError_eq_ok_iff.mp hcut, hslices⟩

end Workload

/-- Nothing is created but what is wanted. -/
theorem exists_wanted_of_created {snapshot : Snapshot} {context : PassContext} {slice : Slice}
    (h : .createSlice slice ∈ (reconcile snapshot context).writes) :
    ∃ workload, snapshot.workload = some workload ∧
      ∃ wanted ∈ workload.wanted snapshot.nodes, wanted.slice = slice := by
  rcases snapshot.situation context.checkName with
    hreleasing | ⟨workload, hworkload, hidle | ⟨current, hopen⟩⟩
  · rw [reconcile_of_isReleasing hreleasing] at h
    obtain ⟨other, -, -, hwrite⟩ := mem_releaseAll_writes.mp h
    cases hwrite
  · rw [reconcile_of_isIdle hworkload hidle] at h
    cases h
  · rw [reconcile_of_isOpen hworkload hopen] at h
    rcases List.mem_append.mp h with hslices | hchecks
    · rcases Progress.mem_sliceWrites_iff.mp hslices with
        ⟨wanted, hmem, -, hwrite⟩ | ⟨wanted, -, -, hwrite⟩ | ⟨other, -, hwrite⟩
      · cases hwrite
        exact ⟨workload, hworkload, wanted, hmem, rfl⟩
      · cases hwrite
      · cases hwrite
    · cases Progress.eq_of_mem_checkWrites hchecks

/-- Every slice that is created is made for a share. -/
theorem Share.exists_makes_of_created {snapshot : Snapshot} {context : PassContext} {slice : Slice}
    (h : .createSlice slice ∈ (reconcile snapshot context).writes) :
    ∃ share : Share, share.Makes snapshot slice := by
  obtain ⟨workload, hworkload, wanted, hwanted, hslice⟩ := exists_wanted_of_created h
  obtain ⟨podSet, hpodSet, hwantedBy⟩ := Workload.mem_wanted_iff.mp hwanted
  obtain ⟨topology, accelerator, slices, hrequest, hslices, hmem⟩ :=
    Workload.mem_wantedBy_iff.mp hwantedBy
  obtain ⟨placement, count, pieces, hplacement, hcount, hcut, hpieces⟩ :=
    Workload.of_wantedSlices_eq_ok hslices
  obtain ⟨⟨piece, index⟩, hentry, hmade⟩ := exists_of_mem_mapM hpieces hmem
  have hget : pieces[index]? = some piece := List.mem_zipIdx_iff_getElem?.mp hentry
  exact ⟨⟨workload, podSet, topology, accelerator, placement, count, index, piece⟩,
    ⟨hworkload, hpodSet, hrequest, hplacement, hcount, pieces, hcut, hget⟩, wanted, hmade, hslice⟩

/-! ## Slices of shares -/

namespace Share

variable {share : Share} {snapshot : Snapshot} {slice : Slice}

theorem IsIn.count_ne_zero (h : share.IsIn snapshot) {domain : Domain}
    (hdomain : domain ∈ share.piece.domains) : domain.count.toNat ≠ 0 := by
  obtain ⟨pieces, hcut, hget⟩ := h.piece
  obtain ⟨replicas, -, rfl⟩ := Placement.of_splitByReplica_eq_ok hcut
  have hpiece := List.mem_of_getElem? hget
  exact Placement.count_ne_zero_of_mem_pieces (Placement.mem_cut_iff.mp hpiece).1 hdomain

/-- The slice of a share is that of a replica with the pods of the share, and all their hosts have
the label of a partition. -/
theorem Makes.eq_replica (h : share.Makes snapshot slice) :
    (share.workload.replica share.podSet.name share.topology share.accelerator snapshot.nodes
        share.piece.podHosts share.index).slice = slice ∧
      ∀ host ∈ share.piece.podHosts,
        Placement.nodeLabel snapshot.nodes share.topology.sliceLevelLabel host ≠ "" := by
  obtain ⟨wanted, hmade, rfl⟩ := h.slice
  have hnames : share.piece.NamesHosts := Workload.namesHosts_of_wantedSlice_eq_ok hmade
  rw [Workload.wantedSlice_eq hnames fun domain ↦ h.isIn.count_ne_zero] at hmade
  unfold Workload.replica? at hmade
  split_ifs at hmade with hunlabelled
  cases hmade
  exact ⟨rfl, fun host hhost hempty ↦ hunlabelled (List.mem_map.mpr ⟨host, hhost, hempty⟩)⟩

end Share

/-! ## Selectors -/

theorem SliceSpec.admits_iff {spec : SliceSpec} {labels : SortedMap String} :
    spec.admits labels = true ↔ ∀ label allowed, spec.nodeSelector.get? label = some allowed →
      ∃ value ∈ allowed, labels.get? label = some value := by
  unfold admits
  simp only [List.all_eq_true, SortedMap.mem_entries_iff, Prod.forall]
  refine forall₂_congr fun label allowed ↦ imp_congr_right fun _ ↦ ?_
  cases labels.get? label <;> simp

/-- A value of a label that is not empty is read off a node. -/
theorem Placement.exists_of_nodeLabel_ne {nodes : List Node} {label host : String}
    (h : nodeLabel nodes label host ≠ "") :
    ∃ node, nodes.find? (·.name = host) = some node ∧
      node.metadata.labels.get? label = some (nodeLabel nodes label host) := by
  unfold nodeLabel at h ⊢
  cases hnode : nodes.find? (·.name = host) with
  | none => simp [hnode] at h
  | some node =>
    cases hvalue : node.label? label with
    | none => simp [hnode, hvalue] at h
    | some value =>
      refine ⟨node, rfl, ?_⟩
      rw [Option.bind_some, hvalue]
      exact hvalue

theorem Placement.nodeLabel_eq_of_find? {nodes : List Node} {label host : String} {node : Node}
    (h : nodes.find? (·.name = host) = some node) :
    nodeLabel nodes label host = (node.metadata.labels.get? label).getD "" := by
  unfold nodeLabel
  rw [h, Option.bind_some]
  rfl

/-- The known values of a label are those of some host. -/
theorem Placement.mem_known_iff {nodes : List Node} {label value : String} {hosts : List String} :
    value ∈ (distinct (hosts.map (nodeLabel nodes label))).filter (· ≠ "") ↔
      (∃ host ∈ hosts, nodeLabel nodes label host = value) ∧ value ≠ "" := by
  rw [List.mem_filter, mem_distinct_iff, List.mem_map, decide_eq_true_iff]

namespace Workload

theorem get?_block_sliceSelector {fine : String} {blocks partitions : List String}
    (hfine : fine ≠ Label.block) :
    (sliceSelector fine blocks partitions).get? Label.block =
      if blocks = [] then none else some blocks := by
  unfold sliceSelector
  rw [SortedMap.get?_insert, if_neg hfine]
  cases blocks with
  | nil => rfl
  | cons => simp

/-- Which nodes a selector admits: those in one of its partitions that are also in one of its
blocks, if it lists any. -/
theorem admits_sliceSelector_iff {spec : SliceSpec} {fine : String}
    {blocks partitions : List String} (hfine : fine ≠ Label.block)
    (hspec : spec.nodeSelector = sliceSelector fine blocks partitions)
    {labels : SortedMap String} :
    spec.admits labels = true ↔ (∃ value ∈ partitions, labels.get? fine = some value) ∧
      (blocks ≠ [] → ∃ value ∈ blocks, labels.get? Label.block = some value) := by
  rw [SliceSpec.admits_iff, hspec]
  constructor
  · intro h
    refine ⟨h fine partitions ?_, fun hblocks ↦ h Label.block blocks ?_⟩
    · rw [get?_sliceSelector hfine, if_pos rfl]
    · rw [get?_block_sliceSelector hfine, if_neg hblocks]
  · rintro ⟨hpartition, hblock⟩ label allowed hallowed
    by_cases hlabel : label = Label.block
    · rw [hlabel, get?_block_sliceSelector hfine] at hallowed
      split_ifs at hallowed with hblocks
      cases hallowed
      rw [hlabel]
      exact hblock hblocks
    · rw [get?_sliceSelector hlabel] at hallowed
      split_ifs at hallowed with hsame
      cases hallowed
      rw [← hsame]
      exact hpartition

end Workload

/-- A node of a share is admitted by the slice of the share if its block is known, or if no block of
the share is. -/
theorem Share.Makes.admits_iff {share : Share} {snapshot : Snapshot} {slice : Slice}
    (h : share.Makes snapshot slice) {host : String} (hhost : host ∈ share.piece.podHosts) :
    ∃ node, snapshot.nodes.find? (·.name = host) = some node ∧
      (slice.spec.admits node.metadata.labels = true ↔
        Placement.nodeLabel snapshot.nodes Label.block host ≠ "" ∨
          ∀ other ∈ share.piece.podHosts,
            Placement.nodeLabel snapshot.nodes Label.block other = "") := by
  obtain ⟨hslice, hlabelled⟩ := h.eq_replica
  obtain ⟨node, hnode, hfine⟩ := Placement.exists_of_nodeLabel_ne (hlabelled host hhost)
  refine ⟨node, hnode, ?_⟩
  have hpartition : Placement.nodeLabel snapshot.nodes share.topology.sliceLevelLabel host ∈
      distinct (share.piece.podHosts.map
        (Placement.nodeLabel snapshot.nodes share.topology.sliceLevelLabel)) :=
    mem_distinct_iff.mpr (List.mem_map_of_mem hhost)
  rw [← hslice, Workload.admits_sliceSelector_iff share.topology.sliceLevelLabel_ne_block rfl,
    and_iff_right ⟨_, hpartition, hfine⟩]
  constructor
  · intro hblock
    by_cases hempty : Placement.nodeLabel snapshot.nodes Label.block host = ""
    · refine .inr fun other hother ↦ ?_
      by_contra hknown
      have hlisted := Placement.mem_known_iff.mpr ⟨⟨other, hother, rfl⟩, hknown⟩
      obtain ⟨value, hvalue, hlabel⟩ := hblock (List.ne_nil_of_mem hlisted)
      -- The node would carry a block that is not empty.
      rw [Placement.nodeLabel_eq_of_find? hnode, hlabel, Option.getD_some] at hempty
      exact (Placement.mem_known_iff.mp hvalue).2 hempty
    · exact .inl hempty
  · rintro (hknown | hunknown) hlisted
    · obtain ⟨found, hfound, hlabel⟩ := Placement.exists_of_nodeLabel_ne hknown
      cases hnode.symm.trans hfound
      exact ⟨_, Placement.mem_known_iff.mpr ⟨⟨host, hhost, rfl⟩, hknown⟩, hlabel⟩
    · obtain ⟨value, hvalue⟩ := List.exists_mem_of_ne_nil _ hlisted
      obtain ⟨⟨other, hother, rfl⟩, hknown⟩ := Placement.mem_known_iff.mp hvalue
      exact absurd (hunknown other hother) hknown

/-- Every slice that is created is made for the share of a replica. It admits a node of this share
just if the block of the node is known, or if no node of the share has a known block. -/
theorem created_admits_iff {snapshot : Snapshot} {context : PassContext} {slice : Slice}
    (h : .createSlice slice ∈ (reconcile snapshot context).writes) :
    (∃ share : Share, share.Makes snapshot slice) ∧
      ∀ share : Share, share.Makes snapshot slice → ∀ host ∈ share.piece.podHosts,
        ∃ node, snapshot.nodes.find? (·.name = host) = some node ∧
          (slice.spec.admits node.metadata.labels = true ↔
            Placement.nodeLabel snapshot.nodes Label.block host ≠ "" ∨
              ∀ other ∈ share.piece.podHosts,
                Placement.nodeLabel snapshot.nodes Label.block other = "") :=
  ⟨Share.exists_makes_of_created h, fun _ hmakes _ hhost ↦ hmakes.admits_iff hhost⟩

/-! ## A share with a known and an unknown block -/

namespace Sample

/-- Asks for slices of two pods each. -/
def pairTemplate : PodTemplate :=
  ⟨⟨.empty, SortedMap.ofList [(Label.topology, "2x2x2"), (Label.sliceSize, "2")], .empty⟩,
    ⟨SortedMap.ofList [(Label.accelerator, "tpu-v7x")], none, [], .empty⟩⟩

/-- A node that stands in the block `b0`. -/
def blockNode : Node :=
  nodeWith "n0" [(Label.partition "2x2x2", "p0"), (Label.block, "b0")]

/-- A node of the same partition whose block is not recorded. -/
def plainNode : Node := nodeWith "n1" [(Label.partition "2x2x2", "p0")]

def pairPlacement : Placement := ⟨[Label.hostname], [⟨["n0"], 1⟩, ⟨["n1"], 1⟩]⟩

def pairWorkload : Workload :=
  { workload with
    podSets := [⟨"workers", 2, pairTemplate⟩]
    status.admission := some ⟨"queue", [⟨"workers", 2, some pairPlacement⟩]⟩ }

def pairSnapshot : Snapshot := ⟨"team/job", some pairWorkload, [], [blockNode, plainNode]⟩

def pairShare : Share :=
  ⟨pairWorkload, ⟨"workers", 2, pairTemplate⟩, ⟨⟨2, 2, 2⟩, .subslice⟩, .tpuV7x, pairPlacement, 2, 0,
    pairPlacement⟩

def pairSlice : Slice :=
  Slice.new (pairWorkload.sliceMetadata ⟨"team", "job", "workers", 0⟩)
    ⟨.tpuV7x, "2x2x2",
      SortedMap.ofList [(Label.block, ["b0"]), (Label.partition "2x2x2", ["p0"])]⟩

theorem pairSlice_created :
    .createSlice pairSlice ∈ (reconcile pairSnapshot context).writes := by
  decide +kernel

theorem pairShare_makes : pairShare.Makes pairSnapshot pairSlice where
  isIn :=
    ⟨rfl, List.mem_cons_self, by decide +kernel, rfl, by decide +kernel, [pairPlacement],
      by decide +kernel, rfl⟩
  slice := ⟨⟨⟨"team", "job", "workers", 0⟩, pairSlice⟩, by decide +kernel, rfl⟩

end Sample

/-- The node with a block is admitted and the one without is not. -/
theorem created_admits_iff_sample :
    Sample.pairSlice.spec.admits Sample.blockNode.metadata.labels = true ∧
      ¬Sample.pairSlice.spec.admits Sample.plainNode.metadata.labels = true := by
  obtain ⟨-, hshare⟩ := created_admits_iff Sample.pairSlice_created
  constructor
  · obtain ⟨node, hnode, hadmits⟩ := hshare _ Sample.pairShare_makes "n0" (by decide +kernel)
    cases hnode.symm.trans (rfl : _ = some Sample.blockNode)
    exact hadmits.mpr (.inl (by decide +kernel))
  · obtain ⟨node, hnode, hadmits⟩ := hshare _ Sample.pairShare_makes "n1" (by decide +kernel)
    cases hnode.symm.trans (rfl : _ = some Sample.plainNode)
    exact mt hadmits.mp (by decide +kernel)

/-- A slice that is created does not have to admit all nodes that the pods of its replica are placed
on. -/
theorem created_excludes_own_node :
    ∃ (snapshot : Snapshot) (context : PassContext) (slice : Slice) (share : Share) (host : String)
      (node : Node),
      .createSlice slice ∈ (reconcile snapshot context).writes ∧ share.Makes snapshot slice ∧
        host ∈ share.piece.podHosts ∧ snapshot.nodes.find? (·.name = host) = some node ∧
        slice.spec.admits node.metadata.labels = false :=
  ⟨Sample.pairSnapshot, Sample.context, Sample.pairSlice, Sample.pairShare, "n1", Sample.plainNode,
    Sample.pairSlice_created, Sample.pairShare_makes, by decide +kernel, by decide +kernel,
    by decide +kernel⟩

end SliceControl
