import SliceControl.Proofs.Pass.Snapshot
import SliceControl.Proofs.Store.Mutation

/-!
# When a pass settles a workload

A pass that succeeds and asks for no further pass leaves nothing to write, now or later: the slices
have been given back, or the check asks for another try, or everything that is wanted is ready. A
ready slice stays ready as time passes, so only changes from outside can give such a workload new
writes.
-/

namespace SliceControl

namespace Store

/-- Nothing is to be written for a workload, however much time passes. -/
def Settled (settings : PassSettings) (store : Store) (key : String) : Prop :=
  ∀ now, (reconcile (store.reading key) (settings.contextAt now)).writes = []

variable {settings : PassSettings} {store : Store} {key : String} {now : Instant}
  {steps : List (Write × Instant)}

/-- A pass over one workload changes nothing of what passes over the others read. -/
theorem SameOutside.reading {other : Store} {rest : String} (h : SameOutside key store other)
    (hstore : store.Consistent) (hother : other.Consistent) (hrest : rest ≠ key) :
    other.reading rest = store.reading rest := by
  refine reading_congr (h.workloads rest hrest) ?_ h.nodes
  refine hother.ownedSlices_congr hstore fun name ↦ Option.ext fun slice ↦ ?_
  rw [ownedSlice?_eq_some_iff, ownedSlice?_eq_some_iff]
  refine and_congr_left fun howner ↦ h.slices name slice ?_
  rw [howner]
  exact fun hsame ↦ hrest (Option.some.inj hsame)

theorem settled_of_isIdle {workload : Workload} (hworkload : store.workload? key = some workload)
    (hidle : workload.IsIdle settings.checkName) : store.Settled settings key := by
  intro later
  have houtcome : reconcile (store.reading key) (settings.contextAt later) = .idle :=
    reconcile_of_isIdle hworkload hidle
  rw [houtcome]
  rfl

theorem settled_of_isReleasing (hstore : store.Consistent)
    (hreleasing : (store.reading key).IsReleasing settings.checkName)
    (hsteps : steps.map Prod.fst =
      (reconcile (store.reading key) (settings.contextAt now)).writes) :
    (store.carryAll key steps).Settled settings key := by
  intro later
  have hreleasing : (store.reading key).IsReleasing (settings.contextAt now).checkName := hreleasing
  have hworkload := workload?_carryAll_of_isReleasing hreleasing hsteps
  have hstill : ((store.carryAll key steps).reading key).IsReleasing
      (settings.contextAt later).checkName := by
    unfold Snapshot.IsReleasing reading snapshot at hreleasing ⊢
    rw [hworkload]
    exact hreleasing
  apply (writes_eq_nil_iff_of_isReleasing hstill).mpr
  intro slice hslice
  exact isDeleting_carryAll_of_isReleasing hstore hreleasing hsteps hslice

/-- A workload whose slices are all ready has nothing to write at any later time. -/
theorem settled_of_allReady {workload : Workload} {current : AdmissionCheck}
    (hworkload : store.workload? key = some workload)
    (hopen : workload.IsOpen settings.checkName current)
    (hready : ((store.reading key).progress workload (settings.contextAt now)).allReady = true)
    (hsame : current.sameAs
      ((store.reading key).progress workload (settings.contextAt now)).check = true) :
    store.Settled settings key := by
  intro later
  have hopen : workload.IsOpen (settings.contextAt later).checkName current := hopen
  have htimeout : (settings.contextAt later).stalenessTimeout =
      (settings.contextAt now).stalenessTimeout := rfl
  obtain ⟨hmapped, hwanted, hunwanted⟩ := Progress.allReady_iff.mp hready
  have hstillWanted : ∀ wanted ∈ ((store.reading key).progress workload
      (settings.contextAt now)).wanted,
        wanted.isReady (store.reading key).slices (settings.contextAt later) = true :=
    fun wanted hmem ↦ WantedSlice.isReady_of_isReady htimeout (hwanted wanted hmem)
  have hstill : ((store.reading key).progress workload
      (settings.contextAt later)).allReady = true :=
    Progress.allReady_iff.mpr ⟨hmapped, hstillWanted, hunwanted⟩
  have hplans : ((store.reading key).progress workload (settings.contextAt later)).plans =
      ((store.reading key).progress workload (settings.contextAt now)).plans := rfl
  have hcheck := Progress.sameAs_check_congr hplans rfl (Progress.failures_of_allReady hready)
    (Progress.failures_of_allReady hstill) hunwanted hunwanted
    (fun wanted hmem ↦ (hstillWanted wanted hmem).trans (hwanted wanted hmem).symm) current
  have houtcome : reconcile (store.reading key) (settings.contextAt later) =
      ((store.reading key).progress workload (settings.contextAt later)).outcome current :=
    reconcile_of_isOpen hworkload hopen
  rw [houtcome, Progress.outcome_writes_eq_nil_iff, Progress.sliceWrites_eq_nil_iff]
  refine ⟨⟨fun wanted hmem ↦ ?_, hunwanted⟩, hcheck.trans hsame⟩
  obtain ⟨slice, hpresent, -⟩ := WantedSlice.isReady_iff.mp (hstillWanted wanted hmem)
  exact ⟨slice, hpresent⟩

/-- Updating the check leaves everything else about a workload as it is. -/
theorem ownedSlices_carryAll_of_checks (hstore : store.Consistent)
    (hsteps : ∀ step ∈ steps, step.1.target? = none) :
    (store.carryAll key steps).ownedSlices key = store.ownedSlices key := by
  apply (hstore.carryAll steps).ownedSlices_congr hstore
  intro name
  have hslice : (store.carryAll key steps).slice? name = store.slice? name :=
    slice?_carryAll_of_untargeted fun step hstep htarget ↦ by
      rw [hsteps step hstep] at htarget
      cases htarget
  rw [ownedSlice?, hslice, ← ownedSlice?]

/-- Where all is ready, nothing but the check is written. -/
theorem target?_of_allReady {progress : Progress} {current : AdmissionCheck} {write : Write}
    (hready : progress.allReady = true) (hwrite : write ∈ (progress.outcome current).writes) :
    write.target? = none := by
  have hcheck : write ∈ progress.checkWrites current := by
    simpa [Progress.outcome, Progress.sliceWrites_of_allReady hready] using hwrite
  rw [Progress.eq_of_mem_checkWrites hcheck]
  rfl

/-- A pass that carries out all its writes and asks for no further pass settles its workload. -/
theorem settled_of_requeueAfter_eq_none (hstore : store.Consistent)
    (hsteps : steps.map Prod.fst = (reconcile (store.reading key) (settings.contextAt now)).writes)
    (hdone : (reconcile (store.reading key) (settings.contextAt now)).requeueAfter = none) :
    (store.carryAll key steps).Settled settings key := by
  have hnodes : (store.carryAll key steps).nodes = store.nodes :=
    (hstore.sameOutside_carryAll fun _ hwrite ↦ hsteps ▸ hwrite).nodes
  rcases (store.reading key).situation (settings.contextAt now).checkName with
    hreleasing | ⟨workload, hworkload, hidle | ⟨current, hopen⟩⟩
  · exact settled_of_isReleasing hstore hreleasing hsteps
  · have houtcome : reconcile (store.reading key) (settings.contextAt now) = .idle :=
      reconcile_of_isIdle hworkload hidle
    rw [houtcome] at hsteps
    rw [List.map_eq_nil_iff.mp hsteps]
    exact settled_of_isIdle hworkload hidle
  · have houtcome : reconcile (store.reading key) (settings.contextAt now) =
        ((store.reading key).progress workload (settings.contextAt now)).outcome current :=
      reconcile_of_isOpen hworkload hopen
    rw [houtcome] at hsteps hdone
    obtain ⟨checks, updated, hafter, hfound, hsame⟩ :=
      workload?_carryAll_of_isOpen _ hworkload hopen.carries hsteps
    have hstate := Progress.state_of_sameAs hsame
    cases hverdict :
      ((store.reading key).progress workload (settings.contextAt now)).checkState with
    | retry =>
      exact settled_of_isIdle hafter (hopen.isIdle_of_retry hfound (hstate.trans hverdict))
    | rejected => exact absurd hverdict Progress.checkState_ne_rejected
    | pending => simp [Progress.outcome, hverdict] at hdone
    | ready =>
      obtain ⟨-, hready⟩ := Progress.checkState_eq_ready_iff.mp hverdict
      have hopenAfter := hopen.isOpen_of_undecided hfound (.inr (hstate.trans hverdict))
      have howned : (store.carryAll key steps).ownedSlices key = store.ownedSlices key := by
        apply ownedSlices_carryAll_of_checks hstore
        intro step hstep
        have hwrite : step.1 ∈ steps.map Prod.fst := List.mem_map_of_mem hstep
        rw [hsteps] at hwrite
        exact target?_of_allReady hready hwrite
      have hprogress : ((store.carryAll key steps).reading key).progress
            { workload with status.checks := checks } (settings.contextAt now) =
          (store.reading key).progress workload (settings.contextAt now) := by
        simp only [Snapshot.progress, reading, snapshot, listNodes, howned, hnodes]
        rfl
      rw [← hprogress] at hready hsame
      exact settled_of_allReady hafter hopenAfter hready hsame

end Store

end SliceControl
