import SliceControl.Proofs.Pass.Writes
import SliceControl.Proofs.Reconcile.Situation
import SliceControl.Proofs.Reconcile.Wanted

/-!
# What a pass reads and writes

A pass reads one workload with its slices, and what it writes belongs to this workload. The steps
below are its writes, each with the moment at which it is carried out.
-/

namespace SliceControl

/-! ## A pass over a store -/

namespace Store

/-- What a pass reads about the workload `key`. -/
def snapshot (store : Store) (key : String) (nodes : List Node) : Snapshot :=
  ⟨key, store.workload? key, store.ownedSlices key, nodes⟩

variable {store : Store} {key : String} {nodes : List Node} {context : PassContext}

namespace Consistent

theorem lastNamed?_ownedSlices (h : store.Consistent) (name : String) :
    lastNamed? (store.ownedSlices key) name = store.ownedSlice? key name := by
  ext slice
  rw [lastNamed?_eq_some_iff (h.nodup_ownedSlices_names key), h.mem_ownedSlices_iff]
  constructor
  · rintro ⟨hslice, rfl⟩
    exact hslice
  · intro hslice
    have hname := h.slice_name name slice (ownedSlice?_eq_some_iff.mp hslice).1
    exact ⟨hname ▸ hslice, hname⟩

/-- A pass writes nothing that belongs to others. -/
theorem belongsTo_of_mem_writes (h : store.Consistent) {write : Write}
    (hwrite : write ∈ (reconcile (store.snapshot key nodes) context).writes) :
    write.BelongsTo key store := by
  have howned {slice : Slice} (hmem : slice ∈ store.ownedSlices key) :
      (Write.deleteSlice slice.name).BelongsTo key store := by
    intro found hfound
    obtain ⟨hslice, howner⟩ := ownedSlice?_eq_some_iff.mp (h.mem_ownedSlices_iff.mp hmem)
    cases hslice.symm.trans hfound
    exact howner
  rcases (store.snapshot key nodes).situation context.checkName with
    hreleasing | ⟨workload, hworkload, hidle | ⟨current, hopen⟩⟩
  · rw [reconcile_of_isReleasing hreleasing] at hwrite
    obtain ⟨slice, hmem, -, rfl⟩ := mem_releaseAll_writes.mp hwrite
    exact howned hmem
  · rw [reconcile_of_isIdle hworkload hidle] at hwrite
    exact absurd hwrite List.not_mem_nil
  · rw [reconcile_of_isOpen hworkload hopen] at hwrite
    rcases List.mem_append.mp hwrite with hwrite | hwrite
    · rcases Progress.mem_sliceWrites_iff.mp hwrite with
        ⟨wanted, hmem, -, rfl⟩ | ⟨wanted, hmem, houtdated, rfl⟩ | ⟨slice, hmem, rfl⟩
      · obtain ⟨plan, hplan, hwanted⟩ := List.mem_flatMap.mp hmem
        rw [Workload.slice_of_mem_plan hplan hwanted]
        rw [Write.BelongsTo, Workload.ownerKey_new, h.workload_key key workload hworkload]
      · obtain ⟨slice, hslice, -⟩ := WantedSlice.standing_eq_outdated_iff.mp houtdated
        obtain ⟨hslice, hname⟩ :=
          (lastNamed?_eq_some_iff (h.nodup_ownedSlices_names key)).mp hslice
        rw [← hname]
        exact howned hslice
      · exact howned (Progress.mem_unwanted_iff.mp hmem).1
    · rw [Progress.eq_of_mem_checkWrites hwrite]
      trivial

/-- A pass leaves everything that belongs to others as it is, wherever it is broken off. -/
theorem sameOutside_carryAll (h : store.Consistent) {steps : List (Write × Instant)}
    (hsteps : steps.map Prod.fst ⊆ (reconcile (store.snapshot key nodes) context).writes) :
    SameOutside key store (store.carryAll key steps) :=
  SameOutside.carryAll fun _ hstep ↦
    h.belongsTo_of_mem_writes (hsteps (List.mem_map_of_mem hstep))

end Consistent

/-! ## After slices are given back -/

section Releasing

variable {steps : List (Write × Instant)}

theorem eq_deleteSlice_of_isReleasing (h : (store.snapshot key nodes).IsReleasing context.checkName)
    (hsteps : steps.map Prod.fst = (reconcile (store.snapshot key nodes) context).writes)
    {step : Write × Instant} (hstep : step ∈ steps) : ∃ name, step.1 = .deleteSlice name := by
  have hwrite : step.1 ∈ (reconcile (store.snapshot key nodes) context).writes :=
    hsteps ▸ List.mem_map_of_mem hstep
  rw [reconcile_of_isReleasing h] at hwrite
  obtain ⟨slice, -, -, hdelete⟩ := mem_releaseAll_writes.mp hwrite
  exact ⟨slice.name, hdelete.symm⟩

theorem workload?_carryAll_of_isReleasing
    (h : (store.snapshot key nodes).IsReleasing context.checkName)
    (hsteps : steps.map Prod.fst = (reconcile (store.snapshot key nodes) context).writes) :
    (store.carryAll key steps).workload? key = store.workload? key := by
  refine workload?_carryAll_of_slices (fun step hstep check hcheck ↦ ?_) key
  obtain ⟨name, hdelete⟩ := eq_deleteSlice_of_isReleasing h hsteps hstep
  cases hcheck.symm.trans hdelete

theorem isDeleting_carryAll_of_isReleasing (hstore : store.Consistent)
    (h : (store.snapshot key nodes).IsReleasing context.checkName)
    (hsteps : steps.map Prod.fst = (reconcile (store.snapshot key nodes) context).writes)
    {slice : Slice} (hslice : slice ∈ (store.carryAll key steps).ownedSlices key) :
    slice.isDeleting = true := by
  rw [(hstore.carryAll steps).mem_ownedSlices_iff, ownedSlice?_eq_some_iff] at hslice
  obtain ⟨hslice, howner⟩ := hslice
  by_contra hkept
  by_cases hdeleted : ∃ step ∈ steps, step.1 = .deleteSlice slice.name
  · rw [slice?_carryAll_of_deleted hdeleted] at hslice
    · cases hslice
    · intro step hstep created hcreate
      obtain ⟨name, hdelete⟩ := eq_deleteSlice_of_isReleasing h hsteps hstep
      cases hcreate.symm.trans hdelete
  -- The slice has been there before, and then it has been deleted.
  · have hbefore : store.slice? slice.name = some slice := by
      rw [← hslice]
      symm
      apply slice?_carryAll_of_untargeted
      refine fun step hstep htarget ↦ hdeleted ⟨step, hstep, ?_⟩
      obtain ⟨name, hdelete⟩ := eq_deleteSlice_of_isReleasing h hsteps hstep
      rw [hdelete] at htarget ⊢
      rw [Option.some.inj htarget]
    have howned : slice ∈ store.ownedSlices key :=
      hstore.mem_ownedSlices_iff.mpr (ownedSlice?_eq_some_iff.mpr ⟨hbefore, howner⟩)
    have hwrite : Write.deleteSlice slice.name ∈ steps.map Prod.fst := by
      rw [hsteps, reconcile_of_isReleasing h]
      exact mem_releaseAll_writes.mpr ⟨slice, howned, by simpa using hkept, rfl⟩
    obtain ⟨step, hstep, hdelete⟩ := List.mem_map.mp hwrite
    exact hdeleted ⟨step, hstep, hdelete⟩

end Releasing

/-! ## The workload after a pass -/

/-- The writes for an open workload leave it as it is, with a check that says what it should. -/
theorem workload?_carryAll_of_isOpen {workload : Workload} {current : AdmissionCheck}
    (progress : Progress) {steps : List (Write × Instant)}
    (hworkload : store.workload? key = some workload)
    (hcurrent : workload.check? progress.context.checkName = some current)
    (hsteps : steps.map Prod.fst = (progress.outcome current).writes) :
    ∃ checks updated,
      (store.carryAll key steps).workload? key = some { workload with status.checks := checks } ∧
      { workload with status.checks := checks }.check? progress.context.checkName =
        some updated ∧
      updated.sameAs progress.check = true := by
  obtain ⟨sliceSteps, checkSteps, rfl, hslices, hchecks⟩ := List.map_eq_append_iff.mp hsteps
  have hkept : (store.carryAll key sliceSteps).workload? key = some workload := by
    rw [← hworkload]
    refine workload?_carryAll_of_slices (fun step hstep check hcheck ↦ ?_) key
    have hmem : step.1 ∈ progress.sliceWrites := hslices ▸ List.mem_map_of_mem hstep
    rw [hcheck] at hmem
    rcases Progress.mem_sliceWrites_iff.mp hmem with ⟨_, _, _, h⟩ | ⟨_, _, _, h⟩ | ⟨_, _, h⟩ <;>
      cases h
  rw [carryAll_append]
  unfold Progress.checkWrites at hchecks
  split_ifs at hchecks with hsame
  · rw [List.map_eq_nil_iff.mp hchecks]
    exact ⟨workload.status.checks, current, hkept, hcurrent, hsame⟩
  · obtain ⟨step, rest, rfl, hstep, hrest⟩ := List.map_eq_cons_iff.mp hchecks
    rw [List.map_eq_nil_iff.mp hrest]
    obtain ⟨checks, hupdated, hfound⟩ := workload?_updateCheck progress.check hkept hcurrent
    have hname : current.name = progress.context.checkName := by
      simpa using List.find?_some hcurrent
    refine ⟨checks, _, ?_, hfound, AdmissionCheck.sameAs_update hname⟩
    rw [carryAll_cons, carryAll_nil, carryOut, hstep]
    exact hupdated

end Store

end SliceControl
