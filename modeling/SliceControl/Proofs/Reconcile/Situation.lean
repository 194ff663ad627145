import SliceControl.Proofs.Reconcile.Standing

/-!
# What reconciling does in each situation

A snapshot is in one of three situations. Either the slices are to be given back, or there is
nothing to decide, or the check of an admitted workload is open. Each situation has one equation for
the outcome, and all of them are read off the workload alone, so that neither time nor slices change
the situation.
-/

namespace SliceControl

/-! ## Situations -/

/-- The slices are to be given back: the workload is gone, finished or being deleted, or it carries
the check without being admitted. -/
def Snapshot.IsReleasing (snapshot : Snapshot) (checkName : String) : Prop :=
  snapshot.workload = none ∨ ∃ workload, snapshot.workload = some workload ∧
    (workload.status.finished = true ∨ workload.metadata.isDeleting = true ∨
      ((workload.check? checkName).isSome = true ∧ workload.isAdmitted = false))

namespace Workload

/-- Nothing is to be decided: the workload does not carry the check, or the check has been decided
against the admission. -/
structure IsIdle (workload : Workload) (checkName : String) : Prop where
  unfinished : workload.status.finished = false
  kept : workload.metadata.isDeleting = false
  settled : ∀ current, workload.check? checkName = some current →
    workload.isAdmitted = true ∧ (current.state = .retry ∨ current.state = .rejected)

/-- An admitted workload that carries the check `current`, which is pending or ready. -/
structure IsOpen (workload : Workload) (checkName : String) (current : AdmissionCheck) : Prop where
  unfinished : workload.status.finished = false
  kept : workload.metadata.isDeleting = false
  carries : workload.check? checkName = some current
  admitted : workload.isAdmitted = true
  undecided : current.state = .pending ∨ current.state = .ready

/-- The slices that the pod sets of a workload ask for: one for each replica of every pod set that
asks for slices and whose placement can be mapped. -/
def wanted (workload : Workload) (nodes : List Node) : List WantedSlice :=
  (workload.plans nodes).flatMap PodSetPlan.wanted

end Workload

namespace Snapshot

/-- The slices of a workload beside those that it wants, as a pass over the snapshot sees them. -/
def progress (snapshot : Snapshot) (workload : Workload) (context : PassContext) : Progress :=
  ⟨workload.plans snapshot.nodes, snapshot.slices, context⟩

end Snapshot

/-- Every snapshot is in one of the three situations. -/
theorem Snapshot.situation (snapshot : Snapshot) (checkName : String) :
    snapshot.IsReleasing checkName ∨
      ∃ workload, snapshot.workload = some workload ∧
        (workload.IsIdle checkName ∨ ∃ current, workload.IsOpen checkName current) := by
  cases hworkload : snapshot.workload with
  | none => exact .inl (.inl hworkload)
  | some workload =>
    by_cases hfinished : workload.status.finished = true
    · exact .inl (.inr ⟨workload, hworkload, .inl hfinished⟩)
    by_cases hdeleting : workload.metadata.isDeleting = true
    · exact .inl (.inr ⟨workload, hworkload, .inr (.inl hdeleting)⟩)
    rw [Bool.not_eq_true] at hfinished hdeleting
    cases hcheck : workload.check? checkName with
    | none =>
      refine .inr ⟨workload, rfl, .inl ⟨hfinished, hdeleting, ?_⟩⟩
      intro current hcurrent
      rw [hcheck] at hcurrent
      exact absurd hcurrent (by simp)
    | some current =>
      cases hadmitted : workload.isAdmitted with
      | false =>
        refine .inl (.inr ⟨workload, hworkload, .inr (.inr ⟨?_, hadmitted⟩)⟩)
        rw [hcheck]
        rfl
      | true =>
        refine .inr ⟨workload, rfl, ?_⟩
        have hdecided (h : current.state = .retry ∨ current.state = .rejected) :
            workload.IsIdle checkName := by
          refine ⟨hfinished, hdeleting, ?_⟩
          intro other hother
          cases hcheck.symm.trans hother
          exact ⟨hadmitted, h⟩
        cases hstate : current.state with
        | pending => exact .inr ⟨current, hfinished, hdeleting, hcheck, hadmitted, .inl hstate⟩
        | ready => exact .inr ⟨current, hfinished, hdeleting, hcheck, hadmitted, .inr hstate⟩
        | retry => exact .inl (hdecided (.inl hstate))
        | rejected => exact .inl (hdecided (.inr hstate))

namespace Workload.IsOpen

variable {workload : Workload} {checkName : String} {current : AdmissionCheck}

/-- The slices of an open workload are not given back. -/
theorem not_isReleasing (h : workload.IsOpen checkName current) {snapshot : Snapshot}
    (hworkload : snapshot.workload = some workload) : ¬snapshot.IsReleasing checkName := by
  rintro (hnone | ⟨other, hother, hrelease⟩)
  · cases hworkload.symm.trans hnone
  · cases hworkload.symm.trans hother
    rcases hrelease with hfinished | hdeleting | ⟨-, hadmitted⟩
    · exact absurd hfinished (by simp [h.unfinished])
    · exact absurd hdeleting (by simp [h.kept])
    · exact absurd hadmitted (by simp [h.admitted])

/-- There is something to decide about an open workload. -/
theorem not_isIdle (h : workload.IsOpen checkName current) : ¬workload.IsIdle checkName := by
  intro hidle
  have hdecided := (hidle.settled current h.carries).2
  rcases h.undecided with hstate | hstate <;> simp [hstate] at hdecided

end Workload.IsOpen

/-! ## Outcomes -/

theorem reconcile_of_isReleasing {snapshot : Snapshot} {context : PassContext}
    (h : snapshot.IsReleasing context.checkName) :
    reconcile snapshot context = releaseAll snapshot.slices := by
  rcases h with hnone | ⟨workload, hworkload, hrelease⟩
  · simp [reconcile, hnone]
  · simp only [reconcile, hworkload]
    by_cases hgone : (workload.status.finished || workload.metadata.isDeleting) = true
    · rw [if_pos hgone]
    · rw [if_neg hgone]
      simp only [Bool.or_eq_true, not_or, Bool.not_eq_true] at hgone
      rcases hrelease with hfinished | hdeleting | ⟨hcheck, hadmitted⟩
      · exact absurd hfinished (by simp [hgone.1])
      · exact absurd hdeleting (by simp [hgone.2])
      · obtain ⟨current, hcurrent⟩ := Option.isSome_iff_exists.mp hcheck
        simp [hcurrent, hadmitted]

theorem reconcile_of_isIdle {snapshot : Snapshot} {context : PassContext} {workload : Workload}
    (hworkload : snapshot.workload = some workload) (h : workload.IsIdle context.checkName) :
    reconcile snapshot context = .idle := by
  simp only [reconcile, hworkload, h.unfinished, h.kept, Bool.or_self, Bool.false_eq_true,
    if_false]
  cases hcheck : workload.check? context.checkName with
  | none => rfl
  | some current =>
    obtain ⟨hadmitted, hdecided⟩ := h.settled current hcheck
    simp [hadmitted, hdecided]

theorem reconcile_of_isOpen {snapshot : Snapshot} {context : PassContext} {workload : Workload}
    {current : AdmissionCheck} (hworkload : snapshot.workload = some workload)
    (h : workload.IsOpen context.checkName current) :
    reconcile snapshot context = (snapshot.progress workload context).outcome current := by
  have hundecided : ¬(current.state = .retry ∨ current.state = .rejected) := by
    rcases h.undecided with hstate | hstate <;> simp [hstate]
  simp [reconcile, hworkload, h.unfinished, h.kept, h.carries, h.admitted, hundecided,
    Snapshot.progress]

theorem mem_releaseAll_writes {slices : List Slice} {write : Write} :
    write ∈ (releaseAll slices).writes ↔
      ∃ slice ∈ slices, slice.isDeleting = false ∧ .deleteSlice slice.name = write := by
  simp [releaseAll, and_assoc]

theorem writes_eq_nil_iff_of_isReleasing {snapshot : Snapshot} {context : PassContext}
    (h : snapshot.IsReleasing context.checkName) :
    (reconcile snapshot context).writes = [] ↔
      ∀ slice ∈ snapshot.slices, slice.isDeleting = true := by
  rw [reconcile_of_isReleasing h]
  simp [releaseAll]

/-! ## The writes for an open workload -/

namespace Progress

variable {progress : Progress}

theorem mem_unwanted_iff {slice : Slice} :
    slice ∈ progress.unwanted ↔ slice ∈ progress.slices ∧
      (∀ wanted ∈ progress.wanted, wanted.name ≠ slice.name) ∧ slice.isDeleting = false := by
  simp [unwanted]

theorem unwanted_eq_nil_iff :
    progress.unwanted = [] ↔ ∀ slice ∈ progress.slices,
      (∀ wanted ∈ progress.wanted, wanted.name ≠ slice.name) → slice.isDeleting = true := by
  simp only [unwanted, List.filter_eq_nil_iff, Bool.and_eq_true, Bool.not_eq_true', not_and,
    List.contains_eq_mem, decide_eq_false_iff_not, List.mem_map, not_exists, Bool.not_eq_false]

/-- A missing slice is created, an outdated or unwanted one is deleted, and nothing else is done to
slices. -/
theorem mem_sliceWrites_iff {write : Write} :
    write ∈ progress.sliceWrites ↔
      (∃ wanted ∈ progress.wanted, wanted.standing progress.slices = .missing ∧
        write = .createSlice wanted.slice) ∨
      (∃ wanted ∈ progress.wanted, wanted.standing progress.slices = .outdated ∧
        write = .deleteSlice wanted.name) ∨
      ∃ slice ∈ progress.unwanted, write = .deleteSlice slice.name := by
  have hwanted (wanted : WantedSlice) : wanted.write? progress.slices = some write ↔
      (wanted.standing progress.slices = .missing ∧ write = .createSlice wanted.slice) ∨
        (wanted.standing progress.slices = .outdated ∧ write = .deleteSlice wanted.name) := by
    unfold WantedSlice.write?
    cases wanted.standing progress.slices <;> simp [eq_comm]
  simp only [sliceWrites, List.mem_append, List.mem_filterMap, List.mem_map, hwanted, and_or_left,
    exists_or, or_assoc, eq_comm]

theorem sliceWrites_eq_nil_iff :
    progress.sliceWrites = [] ↔
      (∀ wanted ∈ progress.wanted, ∃ slice, wanted.standing progress.slices = .present slice) ∧
        progress.unwanted = [] := by
  simp [sliceWrites, WantedSlice.write?_eq_none_iff]

/-- Besides slices nothing is written but the check. -/
theorem eq_of_mem_checkWrites {current : AdmissionCheck} {write : Write}
    (h : write ∈ progress.checkWrites current) : write = .setCheck progress.check := by
  unfold checkWrites at h
  split_ifs at h
  · exact absurd h List.not_mem_nil
  · exact List.mem_singleton.mp h

/-! ## The check of an open workload -/

theorem failures_eq_nil_iff :
    progress.failures = [] ↔
      ∀ wanted ∈ progress.wanted, wanted.failure? progress.slices progress.context = none := by
  simp [failures]

/-- Deletions and creations are all there is to do besides readiness: where every wanted slice is
ready, only unwanted slices can be left to delete. -/
theorem allReady_iff :
    progress.allReady = true ↔ (∀ plan ∈ progress.plans, plan.problem? = none) ∧
      (∀ wanted ∈ progress.wanted, wanted.isReady progress.slices progress.context = true) ∧
        progress.unwanted = [] := by
  simp only [allReady, Bool.and_eq_true, List.all_eq_true, Option.isNone_iff_eq_none,
    List.isEmpty_iff, sliceWrites_eq_nil_iff, and_assoc]
  refine and_congr_right fun _ ↦ and_congr_right fun hready ↦ and_iff_right ?_
  intro wanted hmem
  obtain ⟨slice, hpresent, -⟩ := WantedSlice.isReady_iff.mp (hready wanted hmem)
  exact ⟨slice, hpresent⟩

theorem checkState_eq_retry_iff : progress.checkState = .retry ↔ progress.failures ≠ [] := by
  unfold checkState
  split_ifs <;> simp_all

theorem checkState_eq_ready_iff :
    progress.checkState = .ready ↔ progress.failures = [] ∧ progress.allReady = true := by
  unfold checkState
  split_ifs <;> simp_all

theorem checkState_ne_rejected : progress.checkState ≠ .rejected := by
  unfold checkState
  split_ifs <;> simp

theorem sliceWrites_of_allReady (h : progress.allReady = true) : progress.sliceWrites = [] := by
  unfold allReady at h
  exact List.isEmpty_iff.mp (Bool.and_eq_true_iff.mp h).2

/-- Where all slices are ready, none has failed. -/
theorem failures_of_allReady (h : progress.allReady = true) : progress.failures = [] :=
  failures_eq_nil_iff.mpr fun wanted hmem ↦
    WantedSlice.failure?_of_isReady ((allReady_iff.mp h).2.1 wanted hmem)

theorem state_of_sameAs {updated : AdmissionCheck} (h : updated.sameAs progress.check = true) :
    updated.state = progress.checkState := by
  simp only [AdmissionCheck.sameAs, Bool.and_eq_true, decide_eq_true_eq] at h
  exact h.1.2

theorem outcome_writes_eq_nil_iff {current : AdmissionCheck} :
    (progress.outcome current).writes = [] ↔
      progress.sliceWrites = [] ∧ current.sameAs progress.check = true := by
  simp [outcome, checkWrites]

/-- The summary counts the ready slices. -/
theorem summary_congr {later : Progress} (hplans : later.plans = progress.plans)
    (hready : ∀ wanted ∈ progress.wanted, wanted.isReady later.slices later.context =
      wanted.isReady progress.slices progress.context) : later.summary = progress.summary := by
  have hwanted : later.wanted = progress.wanted := by unfold wanted; rw [hplans]
  have hpart (name : String) : later.summaryOf name = progress.summaryOf name := by
    have hcount : (progress.wanted.filter (·.key.group = name)).countP
          (·.isReady later.slices later.context) =
        (progress.wanted.filter (·.key.group = name)).countP
          (·.isReady progress.slices progress.context) := by
      apply List.countP_congr
      intro wanted hmem
      rw [hready wanted (List.mem_of_mem_filter hmem)]
    unfold summaryOf
    dsimp only
    rw [hplans, hwanted, hcount]
  unfold summary
  simp only [hplans, hpart]

/-- The check depends on the slices and on the time only through readiness, as long as no slice has
failed and none is unwanted. -/
theorem sameAs_check_congr {later : Progress} (hplans : later.plans = progress.plans)
    (hname : later.context.checkName = progress.context.checkName)
    (hfailures : progress.failures = []) (hlater : later.failures = [])
    (hunwanted : progress.unwanted = []) (hleft : later.unwanted = [])
    (hready : ∀ wanted ∈ progress.wanted, wanted.isReady later.slices later.context =
      wanted.isReady progress.slices progress.context) (check : AdmissionCheck) :
    check.sameAs later.check = check.sameAs progress.check := by
  have hwanted : later.wanted = progress.wanted := by unfold wanted; rw [hplans]
  have hall : later.allReady = progress.allReady := by
    rw [Bool.eq_iff_iff, allReady_iff, allReady_iff, hplans, hwanted, hunwanted, hleft]
    refine and_congr_right fun _ ↦ and_congr_left fun _ ↦ ?_
    exact forall₂_congr fun wanted hmem ↦ by rw [hready wanted hmem]
  have hstate : later.checkState = progress.checkState := by
    unfold checkState
    rw [hfailures, hlater, hall]
  have hmessage : later.message = progress.message := by
    unfold message
    rw [hfailures, hlater, summary_congr hplans hready]
  unfold AdmissionCheck.sameAs Progress.check
  dsimp only
  rw [hname, hstate, hmessage]

end Progress

/-! ## The situation after a pass -/

namespace Workload

variable {workload : Workload} {checkName : String} {current updated : AdmissionCheck}
  {checks : List AdmissionCheck}

/-- A check that asks for another try ends the work on the slices. -/
theorem IsOpen.isIdle_of_retry (h : workload.IsOpen checkName current)
    (hupdated : { workload with status.checks := checks }.check? checkName = some updated)
    (hretry : updated.state = .retry) :
    { workload with status.checks := checks }.IsIdle checkName := by
  refine ⟨h.unfinished, h.kept, fun found hfound ↦ ⟨h.admitted, .inl ?_⟩⟩
  cases hupdated.symm.trans hfound
  exact hretry

theorem IsOpen.isOpen_of_undecided (h : workload.IsOpen checkName current)
    (hupdated : { workload with status.checks := checks }.check? checkName = some updated)
    (hundecided : updated.state = .pending ∨ updated.state = .ready) :
    { workload with status.checks := checks }.IsOpen checkName updated :=
  ⟨h.unfinished, h.kept, hupdated, h.admitted, hundecided⟩

end Workload

/-! ## A workload that wants one slice -/

namespace Sample

/-- Asks for slices of one cube, each with one pod. -/
def template : PodTemplate :=
  ⟨⟨.empty, SortedMap.ofList [(Label.topology, "2x2x1"), (Label.sliceSize, "1")], .empty⟩,
    ⟨SortedMap.ofList [(Label.accelerator, "tpu-v7x")], none, [], .empty⟩⟩

/-- A node that stands in the partition `p0`. -/
def node : Node :=
  ⟨"v1", "Node",
    { Metadata.named "n0" with labels := SortedMap.ofList [(Label.partition "2x2x1", "p0")] }⟩

def check : AdmissionCheck := ⟨"tpu-slice", .pending, "", none⟩

/-- One pod, placed on the node. -/
def admission : Admission := ⟨"queue", [⟨"workers", 1, some ⟨[Label.hostname], [⟨["n0"], 1⟩]⟩⟩]⟩

def workload : Workload :=
  ⟨"kueue.x-k8s.io/v1beta1", "Workload",
    { Metadata.named "job" with namespaceName := some "team" },
    [⟨"workers", 1, template⟩], ⟨some admission, [check], false⟩⟩

def context : PassContext := ⟨"tpu-slice", .ofSeconds 600, .ofSeconds 300, .ofNanos 0⟩

theorem workload_isOpen : workload.IsOpen context.checkName check :=
  ⟨rfl, rfl, by decide, rfl, .inl rfl⟩

end Sample

end SliceControl
