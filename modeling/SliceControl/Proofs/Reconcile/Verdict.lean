import SliceControl.Proofs.Reconcile.Situation

/-!
# The verdict on an admitted workload

After a pass over an admitted workload its check is in the state that the pass writes, or in the
stored state if the pass writes none. Which state that is can be said without the counting and
collecting of the pass: it depends only on whether some wanted slice is broken, and on whether the
workload has exactly the slices that it wants, all of them ready.
-/

namespace SliceControl

/-! ## The check after a pass -/

/-- The check that a write sets. -/
def Write.check? : Write → Option AdmissionCheck
  | .setCheck check => some check
  | .createSlice _ => none
  | .deleteSlice _ => none

/-- The check in effect after the writes of an outcome, where `stored` was in effect before. -/
def Outcome.checkAfter (outcome : Outcome) (stored : AdmissionCheck) : AdmissionCheck :=
  (outcome.writes.findSome? Write.check?).getD stored

namespace Progress

variable {progress : Progress}

theorem check?_of_mem_sliceWrites {write : Write} (h : write ∈ progress.sliceWrites) :
    write.check? = none := by
  rcases mem_sliceWrites_iff.mp h with ⟨_, _, _, rfl⟩ | ⟨_, _, _, rfl⟩ | ⟨_, _, rfl⟩ <;> rfl

/-- A check that is not written is in the computed state already. -/
theorem state_checkAfter (progress : Progress) (current : AdmissionCheck) :
    ((progress.outcome current).checkAfter current).state = progress.checkState := by
  have hslices : progress.sliceWrites.findSome? Write.check? = none :=
    List.findSome?_eq_none_iff.mpr fun write hwrite ↦ check?_of_mem_sliceWrites hwrite
  unfold Outcome.checkAfter outcome
  rw [List.findSome?_append, hslices, Option.none_or]
  unfold checkWrites
  split_ifs with hsame
  · simp only [AdmissionCheck.sameAs, Bool.and_eq_true, decide_eq_true_eq] at hsame
    exact hsame.1.2
  · rfl

end Progress

/-! ## Broken and backed slices -/

namespace WantedSlice

/-- A slice of the wanted name and spec that is not being deleted has failed or become stale. -/
def IsBroken (wanted : WantedSlice) (slices : List Slice) (context : PassContext) : Prop :=
  ∃ slice ∈ slices, slice.name = wanted.name ∧ slice.isDeleting = false ∧
    slice.spec = wanted.spec ∧
    (slice.state context.now context.stalenessTimeout = .failed ∨
      slice.state context.now context.stalenessTimeout = .stale)

/-- A slice of the wanted name and spec is active, with full or with reduced health. -/
def IsBacked (wanted : WantedSlice) (slices : List Slice) (context : PassContext) : Prop :=
  ∃ slice ∈ slices, slice.name = wanted.name ∧ slice.spec = wanted.spec ∧
    (slice.state context.now context.stalenessTimeout = .active ∨
      slice.state context.now context.stalenessTimeout = .activeDegraded)

variable {wanted : WantedSlice} {slices : List Slice} {context : PassContext}

theorem failure?_isSome_iff_isBroken (hdistinct : (slices.map Slice.name).Nodup) :
    (wanted.failure? slices context).isSome = true ↔ wanted.IsBroken slices context := by
  rw [failure?_isSome_iff]
  simp only [standing_eq_present_iff, lastNamed?_eq_some_iff hdistinct, SliceState.isError_iff]
  constructor
  · rintro ⟨slice, ⟨⟨hmem, hname⟩, hpresent⟩, hstate⟩
    have hkept : slice.isDeleting = false := by
      rw [← Bool.not_eq_true]
      intro hdeleting
      simp [Slice.state_of_isDeleting hdeleting] at hstate
    have hspec : slice.spec = wanted.spec := hpresent.resolve_left (by simp [hkept])
    exact ⟨slice, hmem, hname, hkept, hspec, hstate⟩
  · rintro ⟨slice, hmem, hname, -, hspec, hstate⟩
    exact ⟨slice, ⟨⟨hmem, hname⟩, .inr hspec⟩, hstate⟩

theorem isReady_iff_isBacked (hdistinct : (slices.map Slice.name).Nodup) :
    wanted.isReady slices context = true ↔ wanted.IsBacked slices context := by
  rw [isReady_iff]
  simp only [standing_eq_present_iff, lastNamed?_eq_some_iff hdistinct, SliceState.isReady_iff]
  constructor
  · rintro ⟨slice, ⟨⟨hmem, hname⟩, hpresent⟩, hstate⟩
    have hspec : slice.spec = wanted.spec := by
      apply hpresent.resolve_left
      intro hdeleting
      simp [Slice.state_of_isDeleting hdeleting] at hstate
    exact ⟨slice, hmem, hname, hspec, hstate⟩
  · rintro ⟨slice, hmem, hname, hspec, hstate⟩
    exact ⟨slice, ⟨⟨hmem, hname⟩, .inr hspec⟩, hstate⟩

end WantedSlice

/-! ## Broken and complete progress -/

namespace Progress

/-- Some wanted slice is broken. -/
def IsBroken (progress : Progress) : Prop :=
  ∃ wanted ∈ progress.wanted, wanted.IsBroken progress.slices progress.context

/-- The slices of the workload are those that it wants, and all of them are active. -/
structure IsComplete (progress : Progress) : Prop where
  /-- Every placement could be mapped. -/
  mapped : ∀ plan ∈ progress.plans, plan.problem? = none
  backed : ∀ wanted ∈ progress.wanted, wanted.IsBacked progress.slices progress.context
  /-- Every other slice is being deleted. -/
  cleared : ∀ slice ∈ progress.slices,
    (∀ wanted ∈ progress.wanted, wanted.name ≠ slice.name) → slice.isDeleting = true

variable {progress : Progress}

theorem failures_ne_nil_iff_isBroken (hdistinct : (progress.slices.map Slice.name).Nodup) :
    progress.failures ≠ [] ↔ progress.IsBroken := by
  rw [Ne, failures_eq_nil_iff]
  unfold IsBroken
  simp only [← WantedSlice.failure?_isSome_iff_isBroken hdistinct, Option.isSome_iff_ne_none]
  push Not
  rfl

theorem allReady_iff_isComplete (hdistinct : (progress.slices.map Slice.name).Nodup) :
    progress.allReady = true ↔ progress.IsComplete := by
  simp only [allReady_iff, unwanted_eq_nil_iff, WantedSlice.isReady_iff_isBacked hdistinct]
  exact ⟨fun ⟨hmapped, hbacked, hcleared⟩ ↦ ⟨hmapped, hbacked, hcleared⟩,
    fun h ↦ ⟨h.mapped, h.backed, h.cleared⟩⟩

end Progress

/-! ## The verdict -/

/-- The check of an admitted workload asks for another try exactly when some wanted slice is broken.
Otherwise it is ready exactly when the workload has the slices that it wants, and pending in all
remaining cases. -/
theorem reconcile_verdict {snapshot : Snapshot} {context : PassContext} {workload : Workload}
    {current : AdmissionCheck} (hworkload : snapshot.workload = some workload)
    (hopen : workload.IsOpen context.checkName current)
    (hdistinct : (snapshot.slices.map Slice.name).Nodup) :
    let progress := snapshot.progress workload context
    let verdict := ((reconcile snapshot context).checkAfter current).state
    (verdict = .retry ↔ progress.IsBroken) ∧
      (verdict = .ready ↔ ¬progress.IsBroken ∧ progress.IsComplete) ∧
      (verdict = .pending ↔ ¬progress.IsBroken ∧ ¬progress.IsComplete) := by
  intro progress verdict
  have hverdict : verdict = progress.checkState := by
    show ((reconcile snapshot context).checkAfter current).state = _
    rw [reconcile_of_isOpen hworkload hopen]
    exact Progress.state_checkAfter progress current
  have hbroken : progress.failures ≠ [] ↔ progress.IsBroken :=
    Progress.failures_ne_nil_iff_isBroken hdistinct
  have hcomplete : progress.allReady = true ↔ progress.IsComplete :=
    Progress.allReady_iff_isComplete hdistinct
  have hretry : verdict = .retry ↔ progress.IsBroken := by
    rw [hverdict, Progress.checkState_eq_retry_iff, hbroken]
  have hready : verdict = .ready ↔ ¬progress.IsBroken ∧ progress.IsComplete := by
    rw [hverdict, Progress.checkState_eq_ready_iff, ← hbroken, ← hcomplete, not_not]
  refine ⟨hretry, hready, ?_⟩
  constructor
  · intro hpending
    have hunbroken : ¬progress.IsBroken := by
      rw [← hretry, hpending]
      decide
    refine ⟨hunbroken, fun hcompleted ↦ ?_⟩
    have hcontra := hready.mpr ⟨hunbroken, hcompleted⟩
    rw [hpending] at hcontra
    exact absurd hcontra (by decide)
  · rintro ⟨hunbroken, hincomplete⟩
    cases hstate : verdict with
    | pending => rfl
    | ready => exact absurd (hready.mp hstate).2 hincomplete
    | retry => exact absurd (hretry.mp hstate) hunbroken
    | rejected => exact absurd (hverdict.symm.trans hstate) Progress.checkState_ne_rejected

/-- The slice of the sample workload, with a report that it is active. -/
def Sample.activeSlices : List Slice :=
  (workload.wanted [node]).map fun wanted ↦
    { wanted.slice with
      status.conditions := [⟨Condition.ready, .true, Condition.reasonActive, "", .ofNanos 0⟩] }

/-- With its slice active the sample workload is ready, so its slices are complete. -/
theorem reconcile_verdict_sample :
    let snapshot : Snapshot :=
      ⟨"team/job", some Sample.workload, Sample.activeSlices, [Sample.node]⟩
    snapshot.slices.length = 1 ∧
      ((reconcile snapshot Sample.context).checkAfter Sample.check).state = .ready ∧
      (snapshot.progress Sample.workload Sample.context).IsComplete := by
  intro snapshot
  have hready : ((reconcile snapshot Sample.context).checkAfter Sample.check).state = .ready := by
    decide +kernel
  have hdistinct : (snapshot.slices.map Slice.name).Nodup := by decide +kernel
  have hverdict := reconcile_verdict rfl Sample.workload_isOpen hdistinct
  exact ⟨by decide +kernel, hready, (hverdict.2.1.mp hready).2⟩

end SliceControl
