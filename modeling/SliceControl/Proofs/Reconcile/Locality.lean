import SliceControl.Proofs.Reconcile.Wanted
import SliceControl.Reconcile

/-!
# What reconciling does not look at

Reconciling does not look at the place where the hardware of a slice stands, nor at the nodes that
the workload is not admitted onto.
-/

namespace SliceControl

/-! ## Nodes -/

/-- Reconciling looks up the nodes that the workload is admitted onto, and no others. -/
theorem reconcile_congr_nodes {key : String} {found : Option Workload} {slices : List Slice}
    {nodes others : List Node} (h : ∀ workload, found = some workload → ∀ host,
      workload.usesHost host = true → nodes.find? (·.name = host) = others.find? (·.name = host))
    (context : PassContext) :
    reconcile ⟨key, found, slices, nodes⟩ context =
      reconcile ⟨key, found, slices, others⟩ context := by
  cases found with
  | none => rfl
  | some workload =>
    unfold reconcile
    simp only [Workload.plans_congr (h workload rfl)]

/-! ## Places -/

/-- The slice without the place of its hardware. -/
def Slice.unplaced (slice : Slice) : Slice :=
  { slice with status := { slice.status with blockId := none, subBlockIds := [] } }

/-- The standing of a slice without its place. -/
def Standing.unplaced : Standing → Standing
  | missing => missing
  | outdated => outdated
  | present slice => present slice.unplaced

theorem lastNamed?_unplaced (slices : List Slice) (name : String) :
    lastNamed? (slices.map Slice.unplaced) name = (lastNamed? slices name).map Slice.unplaced := by
  unfold lastNamed?
  rw [← List.map_reverse, List.find?_map]
  rfl

namespace WantedSlice

variable (wanted : WantedSlice) (slices : List Slice) (context : PassContext)

theorem standing_unplaced :
    wanted.standing (slices.map Slice.unplaced) = (wanted.standing slices).unplaced := by
  unfold standing
  rw [lastNamed?_unplaced]
  cases lastNamed? slices wanted.name with
  | none => rfl
  | some slice =>
    dsimp only
    rw [apply_ite Standing.unplaced]
    rfl

theorem write?_unplaced : wanted.write? (slices.map Slice.unplaced) = wanted.write? slices := by
  unfold write?
  rw [standing_unplaced]
  cases wanted.standing slices <;> rfl

theorem state?_unplaced :
    wanted.state? (slices.map Slice.unplaced) context = wanted.state? slices context := by
  unfold state?
  rw [standing_unplaced]
  cases wanted.standing slices <;> rfl

theorem isReady_unplaced :
    wanted.isReady (slices.map Slice.unplaced) context = wanted.isReady slices context := by
  unfold isReady
  rw [state?_unplaced]

theorem failure?_unplaced :
    wanted.failure? (slices.map Slice.unplaced) context = wanted.failure? slices context := by
  unfold failure?
  rw [state?_unplaced]

theorem patience?_unplaced :
    wanted.patience? (slices.map Slice.unplaced) context = wanted.patience? slices context := by
  unfold patience?
  rw [standing_unplaced]
  cases wanted.standing slices <;> rfl

end WantedSlice

/-- The progress with slices that have no place. -/
def Progress.unplaced (progress : Progress) : Progress :=
  { progress with slices := progress.slices.map Slice.unplaced }

namespace Progress

variable (progress : Progress)

theorem sliceWrites_unplaced : progress.unplaced.sliceWrites = progress.sliceWrites := by
  have hunwanted : (progress.unplaced.unwanted.map fun slice ↦ Write.deleteSlice slice.name) =
      progress.unwanted.map fun slice ↦ .deleteSlice slice.name := by
    unfold unwanted unplaced
    rw [List.filter_map, List.map_map]
    rfl
  unfold sliceWrites
  rw [hunwanted]
  simp only [unplaced, WantedSlice.write?_unplaced]
  rfl

theorem failures_unplaced : progress.unplaced.failures = progress.failures := by
  unfold failures
  simp only [unplaced, WantedSlice.failure?_unplaced]
  rfl

theorem checkState_unplaced : progress.unplaced.checkState = progress.checkState := by
  have hready : progress.unplaced.allReady = progress.allReady := by
    unfold allReady
    rw [sliceWrites_unplaced]
    simp only [unplaced, WantedSlice.isReady_unplaced]
    rfl
  unfold checkState
  rw [failures_unplaced, hready]

theorem message_unplaced : progress.unplaced.message = progress.message := by
  have hsummary : progress.unplaced.summary = progress.summary := by
    have hpart (name : String) : progress.unplaced.summaryOf name = progress.summaryOf name := by
      unfold summaryOf
      simp only [unplaced, WantedSlice.isReady_unplaced]
      rfl
    unfold summary
    simp only [hpart]
    rfl
  unfold message
  rw [failures_unplaced, hsummary]

theorem outcome_unplaced (current : AdmissionCheck) :
    progress.unplaced.outcome current = progress.outcome current := by
  have hcheck : progress.unplaced.check = progress.check := by
    unfold check
    rw [checkState_unplaced, message_unplaced]
    rfl
  have hdelay : progress.unplaced.delay = progress.delay := by
    unfold delay
    simp only [unplaced, WantedSlice.patience?_unplaced]
    rfl
  unfold outcome checkWrites
  rw [sliceWrites_unplaced, checkState_unplaced, hcheck, hdelay]

end Progress

theorem releaseAll_unplaced (slices : List Slice) :
    releaseAll (slices.map Slice.unplaced) = releaseAll slices := by
  unfold releaseAll
  rw [List.filter_map, List.map_map]
  rfl

/-- Reconciling does not look at the places of slices. -/
theorem reconcile_unplaced (key : String) (found : Option Workload) (slices : List Slice)
    (nodes : List Node) (context : PassContext) :
    reconcile ⟨key, found, slices.map Slice.unplaced, nodes⟩ context =
      reconcile ⟨key, found, slices, nodes⟩ context := by
  have houtcome (workload : Workload) (current : AdmissionCheck) :
      (Progress.mk (workload.plans nodes) (slices.map Slice.unplaced) context).outcome current =
        (Progress.mk (workload.plans nodes) slices context).outcome current :=
    Progress.outcome_unplaced ⟨workload.plans nodes, slices, context⟩ current
  unfold reconcile
  simp only [releaseAll_unplaced, houtcome]

end SliceControl
