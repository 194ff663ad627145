import SliceControl.Proofs.Pass.Writes
import SliceControl.Proofs.Reconcile.Replicas

/-!
# The writes of one pass

The pass over an open workload goes through the wanted slices and through the owned ones. Together
the two walks create every wanted slice whose name is free, and delete every owned slice that is not
wanted as it is, each of them once: the names that the writes are aimed at are distinct, so no slice
is created and deleted in the same pass.

What is wanted is put together from the pod sets, and each contributes what it would want if it were
the only one.
-/

namespace SliceControl

/-! ## Pod sets by themselves -/

namespace Workload

variable {workload : Workload} {nodes : List Node} {podSet : PodSet}

/-- The workload as if `podSet` were its only pod set. -/
def alone (workload : Workload) (podSet : PodSet) : Workload :=
  { workload with podSets := [podSet] }

/-- A pod set is mapped without regard to the other pod sets. -/
theorem wanted_alone : (workload.alone podSet).wanted nodes = workload.wantedBy nodes podSet := by
  rw [wanted_eq_flatMap]
  exact List.append_nil _

theorem wantedBy_of_requestedSlice?_eq_none (h : podSet.template.requestedSlice? = none) :
    workload.wantedBy nodes podSet = [] := by
  simp [wantedBy, plan?, h]

/-- A pod set that asks for slices wants those that its placement is mapped to, and none if it
cannot be mapped. -/
theorem wantedBy_of_requestedSlice?_eq_some {topology : Topology} {accelerator : Accelerator}
    (h : podSet.template.requestedSlice? = some (topology, accelerator)) :
    workload.wantedBy nodes podSet =
      (workload.wantedSlices podSet topology accelerator nodes).toOption.getD [] := by
  simp only [wantedBy, plan?, h, Option.map_some, Option.elim_some, PodSetPlan.wanted]
  cases workload.wantedSlices podSet topology accelerator nodes <;> rfl

/-- Pod sets that ask for no slices may be left out. -/
theorem wanted_eq_flatMap_alone : workload.wanted nodes =
    (workload.podSets.filter (·.template.requestedSlice?.isSome)).flatMap
      fun podSet ↦ (workload.alone podSet).wanted nodes := by
  simp only [wanted_eq_flatMap workload, wanted_alone]
  induction workload.podSets with
  | nil => rfl
  | cons podSet rest ih =>
    rw [List.flatMap_cons, List.filter_cons, ih]
    split_ifs with hrequest
    · rw [List.flatMap_cons]
    · rw [Bool.not_eq_true, Option.isSome_eq_false_iff, Option.isNone_iff_eq_none] at hrequest
      rw [wantedBy_of_requestedSlice?_eq_none hrequest, List.nil_append]

end Workload

/-! ## One write for each slice -/

theorem WantedSlice.target?_of_write? {wanted : WantedSlice} {slices : List Slice} {write : Write}
    (h : wanted.write? slices = some write) : write.target? = some wanted.name := by
  unfold write? at h
  split at h <;> cases h <;> rfl

namespace Progress

/-- The wanted slices under whose names nothing is owned. -/
def missing (progress : Progress) : List WantedSlice :=
  progress.wanted.filter fun wanted ↦ wanted.name ∉ progress.slices.map Slice.name

/-- The owned slices that are not being deleted and are not wanted, or not with their spec. -/
def surplus (progress : Progress) : List Slice :=
  progress.slices.filter fun slice ↦ !slice.isDeleting &&
    !progress.wanted.any fun wanted ↦ wanted.name = slice.name && wanted.spec = slice.spec

variable {progress : Progress}

theorem mem_missing_iff {wanted : WantedSlice} :
    wanted ∈ progress.missing ↔ wanted ∈ progress.wanted ∧
      ∀ slice ∈ progress.slices, slice.name ≠ wanted.name := by
  simp [missing]

theorem mem_surplus_iff {slice : Slice} :
    slice ∈ progress.surplus ↔ slice ∈ progress.slices ∧ slice.isDeleting = false ∧
      ∀ wanted ∈ progress.wanted, wanted.name = slice.name → wanted.spec ≠ slice.spec := by
  simp [surplus]

/-- No two writes of the walks over wanted and owned slices are aimed at the same slice. -/
theorem nodup_target?_sliceWrites (howned : (progress.slices.map Slice.name).Nodup)
    (hwanted : (progress.wanted.map WantedSlice.name).Nodup) :
    (progress.sliceWrites.map Write.target?).Nodup := by
  rw [sliceWrites, List.Nodup, List.pairwise_map, List.pairwise_append, List.pairwise_filterMap]
  refine ⟨?_, ?_, ?_⟩
  · refine (List.pairwise_map.mp hwanted).imp ?_
    intro first second hne write hwrite other hother htarget
    rw [WantedSlice.target?_of_write? hwrite, WantedSlice.target?_of_write? hother] at htarget
    exact hne (Option.some.inj htarget)
  · rw [List.pairwise_map]
    refine ((List.pairwise_map.mp howned).filter _).imp ?_
    intro first second hne htarget
    exact hne (Option.some.inj htarget)
  · intro write hwrite other hother htarget
    obtain ⟨wanted, hmem, hwrites⟩ := List.mem_filterMap.mp hwrite
    obtain ⟨slice, hslice, rfl⟩ := List.mem_map.mp hother
    rw [WantedSlice.target?_of_write? hwrites] at htarget
    exact (mem_unwanted_iff.mp hslice).2.1 wanted hmem (Option.some.inj htarget)

/-- No slice is created and deleted in the same pass. -/
theorem deleteSlice_not_mem_of_createSlice_mem (howned : (progress.slices.map Slice.name).Nodup)
    (hwanted : (progress.wanted.map WantedSlice.name).Nodup) {slice : Slice}
    (h : .createSlice slice ∈ progress.sliceWrites) :
    .deleteSlice slice.name ∉ progress.sliceWrites := by
  intro hdelete
  have hsame : Write.createSlice slice = .deleteSlice slice.name :=
    List.inj_on_of_nodup_map (nodup_target?_sliceWrites howned hwanted) h hdelete rfl
  cases hsame

/-- What the walk over the wanted slices deletes for its spec and the walk over the owned slices for
its name are the owned slices that are not wanted as they are. -/
theorem deleteSlice_iff (howned : (progress.slices.map Slice.name).Nodup)
    (hwanted : (progress.wanted.map WantedSlice.name).Nodup) {write : Write} :
    ((∃ wanted ∈ progress.wanted, wanted.standing progress.slices = .outdated ∧
        write = .deleteSlice wanted.name) ∨
      ∃ slice ∈ progress.unwanted, write = .deleteSlice slice.name) ↔
      ∃ slice ∈ progress.surplus, write = .deleteSlice slice.name := by
  simp only [WantedSlice.standing_eq_outdated_iff, lastNamed?_eq_some_iff howned, mem_unwanted_iff,
    mem_surplus_iff]
  constructor
  · rintro (⟨wanted, hmem, ⟨slice, ⟨hslice, hname⟩, hkept, hspec⟩, rfl⟩ |
      ⟨slice, ⟨hslice, hunwanted, hkept⟩, rfl⟩)
    · refine ⟨slice, ⟨hslice, hkept, ?_⟩, by rw [hname]⟩
      intro other hother hsame
      rw [List.inj_on_of_nodup_map hwanted hother hmem (hsame.trans hname)]
      exact hspec.symm
    · exact ⟨slice, ⟨hslice, hkept, fun wanted hmem hsame ↦ absurd hsame (hunwanted wanted hmem)⟩,
        rfl⟩
  · rintro ⟨slice, ⟨hslice, hkept, hdiffers⟩, rfl⟩
    by_cases hnamed : ∃ wanted ∈ progress.wanted, wanted.name = slice.name
    · obtain ⟨wanted, hmem, hname⟩ := hnamed
      exact .inl ⟨wanted, hmem, ⟨slice, ⟨hslice, hname.symm⟩, hkept,
        (hdiffers wanted hmem hname).symm⟩, by rw [hname]⟩
    · exact .inr ⟨slice, ⟨hslice, fun wanted hmem hname ↦ hnamed ⟨wanted, hmem, hname⟩, hkept⟩,
        rfl⟩

/-- Up to their order the writes to slices are one creation for each missing slice and one deletion
for each surplus one. -/
theorem perm_sliceWrites (howned : (progress.slices.map Slice.name).Nodup)
    (hwanted : (progress.wanted.map WantedSlice.name).Nodup) :
    progress.sliceWrites.Perm
      (progress.missing.map (fun wanted ↦ .createSlice wanted.slice) ++
        progress.surplus.map fun slice ↦ .deleteSlice slice.name) := by
  have hwrites : progress.sliceWrites.Nodup :=
    List.Nodup.of_map _ (nodup_target?_sliceWrites howned hwanted)
  have hmissing : (progress.missing.map WantedSlice.name).Nodup :=
    hwanted.sublist (List.filter_sublist.map _)
  have hsurplus : (progress.surplus.map Slice.name).Nodup :=
    howned.sublist (List.filter_sublist.map _)
  have hlisted :
      (progress.missing.map (fun wanted : WantedSlice ↦ Write.createSlice wanted.slice) ++
      progress.surplus.map fun slice : Slice ↦ Write.deleteSlice slice.name).Nodup := by
    refine List.Nodup.append ?_ ?_ ?_
    · refine List.pairwise_map.mpr ((List.pairwise_map.mp hmissing).imp ?_)
      intro first second hne hsame
      exact hne (congrArg Slice.name (Write.createSlice.inj hsame))
    · refine List.pairwise_map.mpr ((List.pairwise_map.mp hsurplus).imp ?_)
      intro first second hne hsame
      exact hne (Write.deleteSlice.inj hsame)
    · intro write hcreate hdelete
      obtain ⟨wanted, -, rfl⟩ := List.mem_map.mp hcreate
      obtain ⟨slice, -, hsame⟩ := List.mem_map.mp hdelete
      cases hsame
  have hstanding (wanted : WantedSlice) :
      wanted.standing progress.slices = .missing ↔
        ∀ slice ∈ progress.slices, slice.name ≠ wanted.name := by
    rw [WantedSlice.standing_eq_missing_iff]
    simp [lastNamed?]
  rw [List.perm_ext_iff_of_nodup hwrites hlisted]
  intro write
  rw [mem_sliceWrites_iff, deleteSlice_iff howned hwanted, List.mem_append, List.mem_map,
    List.mem_map]
  simp only [mem_missing_iff, hstanding, and_assoc, eq_comm]

/-- The check is written, and written last, exactly where its state or its message changes. -/
theorem checkWrites_eq {current : AdmissionCheck}
    (hname : current.name = progress.context.checkName) :
    progress.checkWrites current =
      if current.state = progress.checkState ∧ current.message = progress.message then []
      else [.setCheck progress.check] := by
  have hsame : current.sameAs progress.check = true ↔
      current.state = progress.checkState ∧ current.message = progress.message := by
    simp only [AdmissionCheck.sameAs, Bool.and_eq_true, decide_eq_true_eq, and_assoc]
    exact and_iff_right hname
  simp only [checkWrites, hsame]

end Progress

/-! ## The writes in each situation -/

theorem Workload.name_of_check?_eq_some {workload : Workload} {name : String}
    {current : AdmissionCheck} (h : workload.check? name = some current) : current.name = name := by
  simpa using List.find?_some h

/-- The writes of a pass. A workload that is gone, finished, being deleted, or not admitted although
it carries the check gives up every slice that is not being deleted yet. Where the check is absent
or decided against the admission, nothing happens. Otherwise the pod sets are mapped one by one,
missing slices are created and surplus ones deleted, and the check comes last, if it changes. -/
theorem reconcile_writes (snapshot : Snapshot) (context : PassContext) :
    (snapshot.IsReleasing context.checkName →
      (reconcile snapshot context).writes =
        (snapshot.slices.filter fun slice ↦ !slice.isDeleting).map
          fun slice ↦ .deleteSlice slice.name) ∧
    ∀ workload, snapshot.workload = some workload →
      (workload.IsIdle context.checkName →
        (reconcile snapshot context).writes = [] ∧
          (reconcile snapshot context).requeueAfter = none) ∧
      (¬snapshot.IsReleasing context.checkName → ¬workload.IsIdle context.checkName →
        let progress := snapshot.progress workload context
        (snapshot.slices.map Slice.name).Nodup → (progress.wanted.map WantedSlice.name).Nodup →
        progress.wanted =
            (workload.podSets.filter (·.template.requestedSlice?.isSome)).flatMap
              (fun podSet ↦ (workload.alone podSet).wanted snapshot.nodes) ∧
          (∀ podSet ∈ workload.podSets, ∀ topology accelerator,
            podSet.template.requestedSlice? = some (topology, accelerator) →
              (workload.alone podSet).wanted snapshot.nodes =
                (workload.wantedSlices podSet topology accelerator
                  snapshot.nodes).toOption.getD []) ∧
          ∃ sliceWrites checkWrites current,
            (reconcile snapshot context).writes = sliceWrites ++ checkWrites ∧
            sliceWrites.Perm
              (progress.missing.map (fun wanted ↦ .createSlice wanted.slice) ++
                progress.surplus.map fun slice ↦ .deleteSlice slice.name) ∧
            (∀ slice, .createSlice slice ∈ sliceWrites → .deleteSlice slice.name ∉ sliceWrites) ∧
            workload.check? context.checkName = some current ∧
            checkWrites =
              if current.state = progress.checkState ∧ current.message = progress.message then []
              else [.setCheck progress.check]) := by
  refine ⟨fun hreleasing ↦ ?_, fun workload hworkload ↦ ⟨fun hidle ↦ ?_, ?_⟩⟩
  · rw [reconcile_of_isReleasing hreleasing]
    rfl
  · rw [reconcile_of_isIdle hworkload hidle]
    exact ⟨rfl, rfl⟩
  · intro hreleasing hidle progress howned hwanted
    obtain ⟨current, hopen⟩ : ∃ current, workload.IsOpen context.checkName current := by
      rcases snapshot.situation context.checkName with h | ⟨other, hother, h⟩
      · exact absurd h hreleasing
      · cases hworkload.symm.trans hother
        exact h.resolve_left hidle
    have hmapped : ∀ podSet ∈ workload.podSets, ∀ topology accelerator,
        podSet.template.requestedSlice? = some (topology, accelerator) →
          (workload.alone podSet).wanted snapshot.nodes =
            (workload.wantedSlices podSet topology accelerator snapshot.nodes).toOption.getD [] :=
      fun podSet _ topology accelerator hrequest ↦
        Workload.wanted_alone.trans (Workload.wantedBy_of_requestedSlice?_eq_some hrequest)
    have hwrites : (reconcile snapshot context).writes =
        progress.sliceWrites ++ progress.checkWrites current := by
      rw [reconcile_of_isOpen hworkload hopen]
      rfl
    have hname : current.name = progress.context.checkName :=
      Workload.name_of_check?_eq_some hopen.carries
    exact ⟨Workload.wanted_eq_flatMap_alone, hmapped, _, _, current, hwrites,
      Progress.perm_sliceWrites howned hwanted,
      fun _ ↦ Progress.deleteSlice_not_mem_of_createSlice_mem howned hwanted, hopen.carries,
      Progress.checkWrites_eq hname⟩

namespace Sample

/-- Three pod sets, of which the last has not been placed. -/
def mixedWorkload : Workload :=
  { workload with
    podSets := [⟨"workers", 1, template⟩, ⟨"drivers", 1, template⟩, ⟨"spares", 1, template⟩]
    status.admission := some ⟨"queue",
      ["workers", "drivers"].map fun name ↦
        ⟨name, 1, some ⟨[Label.hostname], [⟨["n0"], 1⟩]⟩⟩⟩ }

/-- The slice of the drivers with another accelerator, one that nobody wants, and one that is being
deleted. -/
def mixedSlices : List Slice :=
  let spec : SliceSpec := ⟨.tpuV7x, "4x4x4", .empty⟩
  let leaving : Metadata := { Metadata.named "leaving" with deletionTimestamp := some (.ofNanos 0) }
  ((mixedWorkload.wanted [node]).filter (·.key.group = "drivers")).map
      (fun wanted ↦ .new (.named wanted.name) spec) ++
    [.new (.named "leftover") spec, .new leaving spec]

def mixedSnapshot : Snapshot := ⟨"team/job", some mixedWorkload, mixedSlices, [node]⟩

theorem mixedWorkload_isOpen : mixedWorkload.IsOpen context.checkName check :=
  ⟨rfl, rfl, by decide, rfl, .inl rfl⟩

end Sample

/-- The slice of the workers is created, the one of the drivers and the one that nobody wants are
deleted, and the pod set without a placement stands in the way of neither. -/
theorem reconcile_writes_sample :
    let progress := Sample.mixedSnapshot.progress Sample.mixedWorkload Sample.context
    progress.missing.length = 1 ∧ progress.surplus.length = 2 ∧
      ∃ sliceWrites checkWrites,
        (reconcile Sample.mixedSnapshot Sample.context).writes = sliceWrites ++ checkWrites ∧
        sliceWrites.Perm
          (progress.missing.map (fun wanted ↦ .createSlice wanted.slice) ++
            progress.surplus.map fun slice ↦ .deleteSlice slice.name) := by
  intro progress
  have howned : (Sample.mixedSnapshot.slices.map Slice.name).Nodup := by decide +kernel
  have hwanted : (progress.wanted.map WantedSlice.name).Nodup := by decide +kernel
  have hreleasing : ¬Sample.mixedSnapshot.IsReleasing Sample.context.checkName :=
    Sample.mixedWorkload_isOpen.not_isReleasing rfl
  have hidle : ¬Sample.mixedWorkload.IsIdle Sample.context.checkName :=
    Sample.mixedWorkload_isOpen.not_isIdle
  obtain ⟨-, -, sliceWrites, checkWrites, _, hwrites, hperm, -⟩ :=
    ((reconcile_writes Sample.mixedSnapshot Sample.context).2 _ rfl).2 hreleasing hidle
      howned hwanted
  exact ⟨by decide +kernel, by decide +kernel, sliceWrites, checkWrites, hwrites, hperm⟩

end SliceControl
