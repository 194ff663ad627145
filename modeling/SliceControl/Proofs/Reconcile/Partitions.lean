import SliceControl.Proofs.Reconcile.Selector

/-!
# Partitions of different replicas

A placement is cut pod by pod, so that no pod belongs to two replicas. Partitions are not cut: which
partitions a replica uses is read off the nodes of its pods, and nothing compares them with those of
the other replicas. Two replicas claim the same partition just if both have pods in it.
-/

namespace SliceControl

open Text

namespace Placement

/-! ## Partitions of pieces -/

variable {placement : Placement} {nodes : List Node} {label : String} {count : Nat}

/-- A pod belongs to the replica that its position tells. -/
theorem mem_replicaHosts_iff (hpositive : 0 < count) {replica : Nat} {host : String} :
    host ∈ placement.replicaHosts count replica ↔
      ∃ position, position / count = replica ∧ placement.podHosts[position]? = some host := by
  unfold replicaHosts
  rw [List.mem_iff_getElem?]
  constructor
  · rintro ⟨offset, hoffset⟩
    have hlt : offset < count := by
      by_contra hge
      rw [List.getElem?_take_eq_none (Nat.le_of_not_lt hge)] at hoffset
      cases hoffset
    rw [List.getElem?_take_of_lt hlt, List.getElem?_drop] at hoffset
    refine ⟨replica * count + offset, ?_, hoffset⟩
    rw [Nat.mul_comm, Nat.mul_add_div hpositive, Nat.div_eq_of_lt hlt, Nat.add_zero]
  · rintro ⟨position, rfl, hhost⟩
    refine ⟨position % count, ?_⟩
    rw [List.getElem?_take_of_lt (Nat.mod_lt position hpositive), List.getElem?_drop,
      Nat.div_add_mod' position count, hhost]

/-- Two replicas of `count` pods each have pods on nodes with the same label. -/
def Overlap (placement : Placement) (nodes : List Node) (label : String)
    (count replica other : Nat) : Prop :=
  ∃ position neighbour host peer, position / count = replica ∧ neighbour / count = other ∧
    placement.podHosts[position]? = some host ∧ placement.podHosts[neighbour]? = some peer ∧
    nodeLabel nodes label host = nodeLabel nodes label peer

/-- The replicas of a placement that is cut have pods. -/
theorem count_pos_of_splitByReplica_eq_ok {pieces : List Placement}
    (h : placement.splitByReplica count = .ok pieces) : 0 < count :=
  (splitByReplica_eq_ok_iff.mp h).2.1

/-- The partitions of a piece are those of the pods at the positions of its replica. -/
theorem mem_partitionIds_iff {pieces : List Placement} {piece : Placement} {index : Nat}
    {ids : List String} (hcut : placement.splitByReplica count = .ok pieces)
    (hpiece : pieces[index]? = some piece) (hids : piece.partitionIds nodes label = .ok ids)
    {id : String} :
    id ∈ ids ↔ ∃ position host, position / count = index ∧
      placement.podHosts[position]? = some host ∧ nodeLabel nodes label host = id := by
  have hpositive := count_pos_of_splitByReplica_eq_ok hcut
  obtain ⟨replicas, -, rfl⟩ := of_splitByReplica_eq_ok hcut
  have hmem := List.mem_of_getElem? hpiece
  have hnames : piece.NamesHosts := by
    unfold partitionIds at hids
    obtain ⟨hosts, hhosts, -⟩ := map_eq_ok_iff.mp hids
    exact namesHosts_of_hosts_eq_ok hhosts
  rw [hnames.partitionIds_eq_ok fun domain ↦
    count_ne_zero_of_mem_pieces (mem_cut_iff.mp hmem).1] at hids
  cases hids
  obtain ⟨level, hlevel, -⟩ := hnames
  rw [levelIndex?_of_mem_cut hmem] at hlevel
  rw [podHosts_cut hlevel hpiece, mem_distinct_iff, List.mem_map]
  simp only [mem_replicaHosts_iff hpositive]
  constructor
  · rintro ⟨host, ⟨position, hposition, hhost⟩, hid⟩
    exact ⟨position, host, hposition, hhost, hid⟩
  · rintro ⟨position, host, hposition, hhost, hid⟩
    exact ⟨host, ⟨position, hposition, hhost⟩, hid⟩

/-- Two pieces of a placement use a common partition just if their replicas overlap. -/
theorem partitionIds_meet_iff {pieces : List Placement} {piece other : Placement}
    {index another : Nat} {ids others : List String}
    (hcut : placement.splitByReplica count = .ok pieces) (hpiece : pieces[index]? = some piece)
    (hother : pieces[another]? = some other) (hids : piece.partitionIds nodes label = .ok ids)
    (hothers : other.partitionIds nodes label = .ok others) :
    (∃ id ∈ ids, id ∈ others) ↔ placement.Overlap nodes label count index another := by
  simp only [mem_partitionIds_iff hcut hpiece hids, mem_partitionIds_iff hcut hother hothers]
  constructor
  · rintro ⟨id, ⟨position, host, hposition, hhost, hid⟩, neighbour, peer, hneighbour, hpeer, hsame⟩
    exact ⟨position, neighbour, host, peer, hposition, hneighbour, hhost, hpeer,
      hid.trans hsame.symm⟩
  · rintro ⟨position, neighbour, host, peer, hposition, hneighbour, hhost, hpeer, hsame⟩
    exact ⟨_, ⟨position, host, hposition, hhost, rfl⟩, neighbour, peer, hneighbour, hpeer,
      hsame.symm⟩

end Placement

/-! ## Partitions of slices -/

/-- The partitions that a slice claims at the level of a topology. -/
def Slice.partitions (slice : Slice) (topology : Topology) : List String :=
  (slice.spec.nodeSelector.get? topology.sliceLevelLabel).getD []

namespace Share

variable {share other : Share} {snapshot : Snapshot} {slice : Slice}

/-- Shares of one pod set are shares in one placement. -/
theorem IsIn.eq_of_podSet_eq (h : share.IsIn snapshot) (hother : other.IsIn snapshot)
    (hpodSet : share.podSet = other.podSet) :
    share.topology = other.topology ∧ share.placement = other.placement ∧
      share.count = other.count := by
  have hworkload : share.workload = other.workload :=
    Option.some.inj (h.workload.symm.trans hother.workload)
  have hrequest := h.request
  rw [hpodSet, hother.request] at hrequest
  have hplacement := h.placement
  rw [hpodSet, hworkload, hother.placement] at hplacement
  have htopology : share.topology = other.topology :=
    (Prod.mk.inj (Option.some.inj hrequest)).1.symm
  have hcount := h.count
  rw [hpodSet, htopology, hother.count] at hcount
  exact ⟨htopology, (Option.some.inj hplacement).symm, (Except.ok.inj hcount).symm⟩

/-- The slice of a share claims the partitions of the share. -/
theorem Makes.partitionIds_eq_ok (h : share.Makes snapshot slice) :
    share.piece.partitionIds snapshot.nodes share.topology.sliceLevelLabel =
      .ok (slice.partitions share.topology) := by
  obtain ⟨wanted, hmade, rfl⟩ := h.slice
  unfold Workload.wantedSlice at hmade
  obtain ⟨partitions, hpartitions, hmade⟩ := bind_eq_ok_iff.mp hmade
  dsimp only at hmade
  split_ifs at hmade
  · cases hmade
  · obtain ⟨blocks, -, hmade⟩ := bind_eq_ok_iff.mp hmade
    cases hmade
    rw [mapError_eq_ok_iff.mp hpartitions, Slice.partitions, Slice.new,
      Workload.get?_sliceSelector share.topology.sliceLevelLabel_ne_block, if_pos rfl]
    rfl

end Share

/-- Every slice that is created is made for the share of a replica. Two of them that are made for
replicas of one pod set claim a common partition just if both replicas have pods in one. -/
theorem created_partitions_meet_iff {snapshot : Snapshot} {context : PassContext}
    {slice other : Slice} (hslice : .createSlice slice ∈ (reconcile snapshot context).writes)
    (hother : .createSlice other ∈ (reconcile snapshot context).writes) :
    (∃ first second : Share, first.Makes snapshot slice ∧ second.Makes snapshot other) ∧
      ∀ first second : Share, first.Makes snapshot slice → second.Makes snapshot other →
        first.podSet = second.podSet →
        ((∃ id ∈ slice.partitions first.topology, id ∈ other.partitions first.topology) ↔
          first.placement.Overlap snapshot.nodes first.topology.sliceLevelLabel first.count
            first.index second.index) := by
  constructor
  · obtain ⟨first, hfirst⟩ := Share.exists_makes_of_created hslice
    obtain ⟨second, hsecond⟩ := Share.exists_makes_of_created hother
    exact ⟨first, second, hfirst, hsecond⟩
  · intro first second hfirst hsecond hpodSet
    obtain ⟨htopology, hplacement, hcount⟩ := hfirst.isIn.eq_of_podSet_eq hsecond.isIn hpodSet
    obtain ⟨pieces, hcut, hpiece⟩ := hfirst.isIn.piece
    obtain ⟨others, hothers, hanother⟩ := hsecond.isIn.piece
    rw [← hplacement, ← hcount, hcut] at hothers
    cases hothers
    have hids := hsecond.partitionIds_eq_ok
    rw [← htopology] at hids
    exact Placement.partitionIds_meet_iff hcut hpiece hanother hfirst.partitionIds_eq_ok hids

/-! ## Two replicas that take turns -/

namespace Sample

/-- The nodes of two partitions in turn, with a pod on each. -/
def turnsPlacement : Placement :=
  ⟨[Label.hostname], [⟨["n0"], 1⟩, ⟨["n1"], 1⟩, ⟨["n2"], 1⟩, ⟨["n3"], 1⟩]⟩

def turnsNodes : List Node :=
  [nodeWith "n0" [(Label.partition "2x2x2", "p0")],
    nodeWith "n1" [(Label.partition "2x2x2", "p1")],
    nodeWith "n2" [(Label.partition "2x2x2", "p0")],
    nodeWith "n3" [(Label.partition "2x2x2", "p1")]]

def turnsWorkload : Workload :=
  { workload with
    podSets := [⟨"workers", 4, pairTemplate⟩]
    status.admission := some ⟨"queue", [⟨"workers", 4, some turnsPlacement⟩]⟩ }

def turnsSnapshot : Snapshot := ⟨"team/job", some turnsWorkload, [], turnsNodes⟩

def turnsShare (index : Nat) (first second : String) : Share :=
  ⟨turnsWorkload, ⟨"workers", 4, pairTemplate⟩, ⟨⟨2, 2, 2⟩, .subslice⟩, .tpuV7x, turnsPlacement, 2,
    index, ⟨[Label.hostname], [⟨[first], 1⟩, ⟨[second], 1⟩]⟩⟩

def turnsSlice (index : Nat) : Slice :=
  Slice.new (turnsWorkload.sliceMetadata ⟨"team", "job", "workers", index⟩)
    ⟨.tpuV7x, "2x2x2", SortedMap.ofList [(Label.partition "2x2x2", ["p0", "p1"])]⟩

theorem turnsSlice_created :
    .createSlice (turnsSlice 0) ∈ (reconcile turnsSnapshot context).writes ∧
      .createSlice (turnsSlice 1) ∈ (reconcile turnsSnapshot context).writes := by
  decide +kernel

theorem turnsPlacement_split :
    turnsPlacement.splitByReplica 2 =
      .ok [(turnsShare 0 "n0" "n1").piece, (turnsShare 1 "n2" "n3").piece] := by
  decide +kernel

theorem turnsShare_makes :
    (turnsShare 0 "n0" "n1").Makes turnsSnapshot (turnsSlice 0) ∧
      (turnsShare 1 "n2" "n3").Makes turnsSnapshot (turnsSlice 1) :=
  ⟨⟨⟨rfl, List.mem_cons_self, by decide +kernel, rfl, by decide +kernel, _, turnsPlacement_split,
      rfl⟩, ⟨⟨"team", "job", "workers", 0⟩, turnsSlice 0⟩, by decide +kernel, rfl⟩,
    ⟨⟨rfl, List.mem_cons_self, by decide +kernel, rfl, by decide +kernel, _, turnsPlacement_split,
      rfl⟩, ⟨⟨"team", "job", "workers", 1⟩, turnsSlice 1⟩, by decide +kernel, rfl⟩⟩

end Sample

/-- The first pod of either replica is on a node of the partition `p0`. -/
theorem created_partitions_meet_iff_sample :
    ∃ id ∈ (Sample.turnsSlice 0).partitions ⟨⟨2, 2, 2⟩, .subslice⟩,
      id ∈ (Sample.turnsSlice 1).partitions ⟨⟨2, 2, 2⟩, .subslice⟩ := by
  obtain ⟨hfirst, hsecond⟩ := Sample.turnsSlice_created
  obtain ⟨hmakesFirst, hmakesSecond⟩ := Sample.turnsShare_makes
  obtain ⟨-, hmeet⟩ := created_partitions_meet_iff hfirst hsecond
  exact (hmeet _ _ hmakesFirst hmakesSecond rfl).mpr
    ⟨0, 2, "n0", "n2", rfl, rfl, by decide +kernel, by decide +kernel, by decide +kernel⟩

/-- One pass may create slices for two replicas of a pod set that claim a common partition. -/
theorem created_claim_common_partition :
    ∃ (snapshot : Snapshot) (context : PassContext) (slice other : Slice) (first second : Share),
      .createSlice slice ∈ (reconcile snapshot context).writes ∧
        .createSlice other ∈ (reconcile snapshot context).writes ∧
        first.Makes snapshot slice ∧ second.Makes snapshot other ∧
        first.podSet = second.podSet ∧ first.index ≠ second.index ∧
        ∃ id ∈ slice.partitions first.topology, id ∈ other.partitions first.topology :=
  ⟨Sample.turnsSnapshot, Sample.context, Sample.turnsSlice 0, Sample.turnsSlice 1,
    Sample.turnsShare 0 "n0" "n1", Sample.turnsShare 1 "n2" "n3", Sample.turnsSlice_created.1,
    Sample.turnsSlice_created.2, Sample.turnsShare_makes.1, Sample.turnsShare_makes.2, rfl,
    by decide, "p0", by decide +kernel, by decide +kernel⟩

end SliceControl
