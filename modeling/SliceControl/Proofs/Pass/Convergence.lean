import Mathlib.Data.List.Perm.Basic
import SliceControl.Proofs.Pass.Snapshot

/-!
# Passes converge

The first pass frees the names of outdated slices, the second one creates the last missing slices,
and then nothing is left to write. The store may be any consistent one, so it does not matter where
an earlier pass was broken off.
-/

namespace SliceControl

/-! ## A pass over a store -/

/-- What the workload of a snapshot wants; nothing if there is no workload. -/
def Snapshot.wanted (snapshot : Snapshot) : List WantedSlice :=
  snapshot.workload.elim [] fun workload ↦ workload.wanted snapshot.nodes

namespace Store

/-- The store after a pass whose writes are all carried out at its own moment. -/
def afterPass (store : Store) (key : String) (nodes : List Node) (context : PassContext) : Store :=
  store.carryAll key
    ((reconcile (store.snapshot key nodes) context).writes.map fun write ↦ (write, context.now))

variable {store : Store} {key : String} {nodes : List Node} {context : PassContext}

theorem map_fst_timed (writes : List Write) (now : Instant) :
    (writes.map fun write ↦ (write, now)).map Prod.fst = writes := by
  rw [List.map_map]
  exact List.map_id writes

theorem afterPass_of_writes_eq_nil
    (h : (reconcile (store.snapshot key nodes) context).writes = []) :
    store.afterPass key nodes context = store := by
  simp [afterPass, h]

theorem Consistent.afterPass (h : store.Consistent) (key : String) (nodes : List Node)
    (context : PassContext) : (store.afterPass key nodes context).Consistent :=
  h.carryAll _

theorem workload?_afterPass_of_isOpen {workload : Workload} {current : AdmissionCheck}
    (nodes : List Node) (hworkload : store.workload? key = some workload)
    (hopen : workload.IsOpen context.checkName current) :
    ∃ checks updated,
      (store.afterPass key nodes context).workload? key =
        some { workload with status.checks := checks } ∧
      { workload with status.checks := checks }.check? context.checkName = some updated ∧
      updated.sameAs ((store.snapshot key nodes).progress workload context).check = true := by
  refine workload?_carryAll_of_isOpen ((store.snapshot key nodes).progress workload context)
    hworkload hopen.carries ?_
  rw [map_fst_timed, reconcile_of_isOpen hworkload hopen]

end Store

/-! ## The slices after a pass -/

/-- What is aimed at the name of a wanted slice, where the wanted names are distinct. -/
theorem Progress.standing_of_mem_writes {progress : Progress} {current : AdmissionCheck}
    (hdistinct : (progress.wanted.map WantedSlice.name).Nodup) {wanted : WantedSlice}
    (hwanted : wanted ∈ progress.wanted) {write : Write}
    (hwrite : write ∈ (progress.outcome current).writes)
    (htarget : write.target? = some wanted.name) :
    (wanted.standing progress.slices = .missing ∧ write = .createSlice wanted.slice) ∨
      (wanted.standing progress.slices = .outdated ∧ write = .deleteSlice wanted.name) := by
  have hslices : write ∈ progress.sliceWrites := by
    apply (List.mem_append.mp hwrite).resolve_right
    intro hcheck
    rw [eq_of_mem_checkWrites hcheck] at htarget
    exact absurd htarget (by simp [Write.target?])
  have hunique (other : WantedSlice) (hother : other ∈ progress.wanted)
      (hname : other.name = wanted.name) : other = wanted :=
    List.inj_on_of_nodup_map hdistinct hother hwanted hname
  rcases mem_sliceWrites_iff.mp hslices with
    ⟨other, hother, hstanding, rfl⟩ | ⟨other, hother, hstanding, rfl⟩ | ⟨slice, hslice, rfl⟩
  · obtain rfl := hunique other hother (Option.some.inj htarget)
    exact .inl ⟨hstanding, rfl⟩
  · obtain rfl := hunique other hother (Option.some.inj htarget)
    exact .inr ⟨hstanding, rfl⟩
  · exact absurd (Option.some.inj htarget).symm ((mem_unwanted_iff.mp hslice).2.1 wanted hwanted)

/-- Only wanted slices are created. -/
theorem Progress.exists_of_createSlice_mem_writes {progress : Progress} {current : AdmissionCheck}
    {slice : Slice} (h : .createSlice slice ∈ (progress.outcome current).writes) :
    ∃ wanted ∈ progress.wanted, wanted.slice = slice := by
  rcases List.mem_append.mp h with hslices | hcheck
  · rcases mem_sliceWrites_iff.mp hslices with
      ⟨wanted, hwanted, -, hwrite⟩ | ⟨_, _, _, hwrite⟩ | ⟨_, _, hwrite⟩
    · exact ⟨wanted, hwanted, (Write.createSlice.inj hwrite).symm⟩
    · cases hwrite
    · cases hwrite
  · cases eq_of_mem_checkWrites hcheck

namespace Store

variable {store : Store} {key : String} {nodes : List Node} {context : PassContext}

/-- What has to be known about a store for passes over a workload to converge: the slices that it
wants have distinct names, and no other workload holds a slice of such a name. -/
structure Unobstructed (store : Store) (key : String) (nodes : List Node) : Prop where
  consistent : store.Consistent
  distinct : ((store.snapshot key nodes).wanted.map WantedSlice.name).Nodup
  unheld : ∀ wanted ∈ (store.snapshot key nodes).wanted, ∀ slice,
    store.slice? wanted.name = some slice → slice.ownerKey = some key

namespace Unobstructed

/-- In an unobstructed store the slice of a wanted name is the workload's own. -/
theorem lastNamed?_eq (h : store.Unobstructed key nodes) {wanted : WantedSlice}
    (hwanted : wanted ∈ (store.snapshot key nodes).wanted) :
    lastNamed? (store.ownedSlices key) wanted.name = store.slice? wanted.name := by
  rw [h.consistent.lastNamed?_ownedSlices, ownedSlice?]
  cases hslice : store.slice? wanted.name with
  | none => rfl
  | some slice => simp [h.unheld wanted hwanted slice hslice]

variable {workload : Workload} {current : AdmissionCheck}

theorem wanted_snapshot (context : PassContext) (hworkload : store.workload? key = some workload) :
    (store.snapshot key nodes).wanted =
      ((store.snapshot key nodes).progress workload context).wanted := by
  simp [Snapshot.wanted, snapshot, hworkload, Workload.wanted, Progress.wanted, Snapshot.progress]

theorem mem_steps_iff (nodes : List Node) (hworkload : store.workload? key = some workload)
    (hopen : workload.IsOpen context.checkName current) (step : Write × Instant) :
    step ∈ (reconcile (store.snapshot key nodes) context).writes.map
        (fun write ↦ (write, context.now)) ↔
      step.1 ∈ (((store.snapshot key nodes).progress workload context).outcome current).writes ∧
        step.2 = context.now := by
  rw [reconcile_of_isOpen hworkload hopen, List.mem_map]
  constructor
  · rintro ⟨write, hwrite, rfl⟩
    exact ⟨hwrite, rfl⟩
  · rintro ⟨hwrite, hnow⟩
    exact ⟨step.1, hwrite, by rw [← hnow]⟩

/-- A pass creates missing slices, frees the names of outdated ones, and keeps the others. -/
theorem slice?_afterPass (h : store.Unobstructed key nodes)
    (hworkload : store.workload? key = some workload)
    (hopen : workload.IsOpen context.checkName current) {wanted : WantedSlice}
    (hwanted : wanted ∈ (store.snapshot key nodes).wanted) :
    (store.afterPass key nodes context).slice? wanted.name =
      match wanted.standing (store.ownedSlices key) with
      | .missing => some (wanted.slice.stamped context.now)
      | .outdated => none
      | .present slice => some slice := by
  have hdistinct := h.distinct
  have hlast := h.lastNamed?_eq hwanted
  rw [wanted_snapshot context hworkload] at hwanted hdistinct
  have hsteps := mem_steps_iff nodes hworkload hopen
  have htargeted {step : Write × Instant} (hstep : step ∈ _)
      (htarget : step.1.target? = some wanted.name) :=
    Progress.standing_of_mem_writes hdistinct hwanted ((hsteps _).mp hstep).1 htarget
  cases hstanding : wanted.standing (store.ownedSlices key) with
  | missing =>
    have hnone : store.slice? wanted.name = none := by
      rw [← hlast]
      exact WantedSlice.standing_eq_missing_iff.mp hstanding
    have hcreated : Write.createSlice wanted.slice ∈
        (((store.snapshot key nodes).progress workload context).outcome current).writes :=
      List.mem_append_left _
        (Progress.mem_sliceWrites_iff.mpr (.inl ⟨wanted, hwanted, hstanding, rfl⟩))
    obtain ⟨step, hstep, slice, hcreate, hname, hresult⟩ :=
      slice?_carryAll_of_created key hnone
        ⟨(_, context.now), (hsteps _).mpr ⟨hcreated, rfl⟩, wanted.slice, rfl, rfl⟩
        (by
          intro step hstep hdelete
          rcases htargeted hstep (by rw [hdelete]; rfl) with ⟨-, hcreate⟩ | ⟨houtdated, -⟩
          · cases hdelete.symm.trans hcreate
          · cases hstanding.symm.trans houtdated)
    rcases htargeted hstep (by rw [hcreate, ← hname]; rfl) with ⟨-, hwrite⟩ | ⟨houtdated, -⟩
    · cases hcreate.symm.trans hwrite
      rw [← ((hsteps _).mp hstep).2]
      exact hresult
    · cases hstanding.symm.trans houtdated
  | outdated =>
    have hdeleted : Write.deleteSlice wanted.name ∈
        (((store.snapshot key nodes).progress workload context).outcome current).writes :=
      List.mem_append_left _
        (Progress.mem_sliceWrites_iff.mpr (.inr (.inl ⟨wanted, hwanted, hstanding, rfl⟩)))
    refine slice?_carryAll_of_deleted ⟨(_, context.now), (hsteps _).mpr ⟨hdeleted, rfl⟩, rfl⟩ ?_
    intro step hstep slice hcreate hname
    rcases htargeted hstep (by rw [hcreate, ← hname]; rfl) with ⟨hmissing, -⟩ | ⟨-, hdelete⟩
    · cases hstanding.symm.trans hmissing
    · cases hcreate.symm.trans hdelete
  | present slice =>
    have hslice : store.slice? wanted.name = some slice := by
      rw [← hlast]
      exact (WantedSlice.standing_eq_present_iff.mp hstanding).1
    refine (slice?_carryAll_of_untargeted fun step hstep htarget ↦ ?_).trans hslice
    rcases htargeted hstep htarget with ⟨hmissing, -⟩ | ⟨houtdated, -⟩
    · cases hstanding.symm.trans hmissing
    · cases hstanding.symm.trans houtdated

/-- After a pass every slice that is not wanted is being deleted. -/
theorem isDeleting_afterPass (h : store.Unobstructed key nodes)
    (hworkload : store.workload? key = some workload)
    (hopen : workload.IsOpen context.checkName current) {slice : Slice}
    (hslice : slice ∈ (store.afterPass key nodes context).ownedSlices key)
    (hunwanted : ∀ wanted ∈ (store.snapshot key nodes).wanted, wanted.name ≠ slice.name) :
    slice.isDeleting = true := by
  rw [(h.consistent.afterPass key nodes context).mem_ownedSlices_iff,
    ownedSlice?_eq_some_iff] at hslice
  obtain ⟨hslice, howner⟩ := hslice
  rw [wanted_snapshot context hworkload] at hunwanted
  have hsteps := mem_steps_iff nodes hworkload hopen
  have huncreated : ∀ step ∈ (reconcile (store.snapshot key nodes) context).writes.map
      (fun write ↦ (write, context.now)), ∀ created, step.1 = .createSlice created →
        created.name ≠ slice.name := by
    intro step hstep created hcreate
    obtain ⟨wanted, hwanted, rfl⟩ :=
      Progress.exists_of_createSlice_mem_writes (hcreate ▸ ((hsteps step).mp hstep).1)
    exact hunwanted wanted hwanted
  by_contra hkept
  -- The slice is not wanted, so it has not been created, and had it been there it would be gone.
  have hdeleted : ∃ step ∈ (reconcile (store.snapshot key nodes) context).writes.map
      (fun write ↦ (write, context.now)), step.1 = .deleteSlice slice.name := by
    by_contra hundeleted
    push Not at hundeleted
    have hbefore : store.slice? slice.name = some slice := by
      rw [← hslice]
      refine (slice?_carryAll_of_untargeted fun step hstep htarget ↦ ?_).symm
      cases hwrite : step.1 with
      | createSlice created =>
        rw [hwrite] at htarget
        exact huncreated step hstep created hwrite (Option.some.inj htarget)
      | deleteSlice name =>
        rw [hwrite] at htarget
        exact hundeleted step hstep (by rw [hwrite, Option.some.inj htarget])
      | setCheck check =>
        rw [hwrite] at htarget
        exact absurd htarget (by simp [Write.target?])
    have howned : slice ∈ store.ownedSlices key :=
      h.consistent.mem_ownedSlices_iff.mpr (ownedSlice?_eq_some_iff.mpr ⟨hbefore, howner⟩)
    have hwrite : Write.deleteSlice slice.name ∈
        (((store.snapshot key nodes).progress workload context).outcome current).writes := by
      have hmem : slice ∈ ((store.snapshot key nodes).progress workload context).unwanted :=
        Progress.mem_unwanted_iff.mpr ⟨howned, hunwanted, by simpa using hkept⟩
      apply List.mem_append_left
      exact Progress.mem_sliceWrites_iff.mpr (.inr (.inr ⟨slice, hmem, rfl⟩))
    exact hundeleted (_, context.now) ((hsteps _).mpr ⟨hwrite, rfl⟩) rfl
  have hgone : (store.afterPass key nodes context).slice? slice.name = none :=
    slice?_carryAll_of_deleted hdeleted huncreated
  exact absurd (hslice.symm.trans hgone) (by simp)

theorem wanted_carryAll (steps : List (Write × Instant)) :
    ((store.carryAll key steps).snapshot key nodes).wanted = (store.snapshot key nodes).wanted := by
  have helim (found : Option Workload) :
      found.elim [] (fun workload ↦ workload.wanted nodes) =
        (found.map Workload.unchecked).elim [] fun workload ↦ workload.wanted nodes := by
    cases found <;> rfl
  simp only [Snapshot.wanted, snapshot]
  rw [helim, helim (store.workload? key), unchecked_carryAll]

/-- Wherever a pass is broken off, the store stays unobstructed. -/
theorem carryAll (h : store.Unobstructed key nodes) (context : PassContext)
    {steps : List (Write × Instant)}
    (hsteps : steps.map Prod.fst ⊆ (reconcile (store.snapshot key nodes) context).writes) :
    (store.carryAll key steps).Unobstructed key nodes where
  consistent := h.consistent.carryAll steps
  distinct := by
    rw [wanted_carryAll]
    exact h.distinct
  unheld := by
    intro wanted hwanted slice hslice
    rw [wanted_carryAll] at hwanted
    by_contra howner
    have hsame := h.consistent.sameOutside_carryAll hsteps
    exact howner (h.unheld wanted hwanted slice ((hsame.slices _ slice howner).mp hslice))

theorem wanted_afterPass :
    ((store.afterPass key nodes context).snapshot key nodes).wanted =
      (store.snapshot key nodes).wanted :=
  wanted_carryAll _

theorem afterPass (h : store.Unobstructed key nodes) (context : PassContext) :
    (store.afterPass key nodes context).Unobstructed key nodes := by
  apply h.carryAll context
  rw [map_fst_timed]
  exact List.Subset.refl _

/-- Missing slices are there after a pass, and outdated ones are missing. -/
theorem standing_afterPass (h : store.Unobstructed key nodes)
    (hworkload : store.workload? key = some workload)
    (hopen : workload.IsOpen context.checkName current) {wanted : WantedSlice}
    (hwanted : wanted ∈ (store.snapshot key nodes).wanted) :
    wanted.standing ((store.afterPass key nodes context).ownedSlices key) =
      match wanted.standing (store.ownedSlices key) with
      | .missing => .present (wanted.slice.stamped context.now)
      | .outdated => .missing
      | .present slice => .present slice := by
  have hslice := h.slice?_afterPass hworkload hopen hwanted
  have hspec : (wanted.slice.stamped context.now).spec = wanted.spec := rfl
  have hafter : wanted ∈ ((store.afterPass key nodes context).snapshot key nodes).wanted := by
    rw [wanted_afterPass]
    exact hwanted
  rw [← (h.afterPass context).lastNamed?_eq hafter] at hslice
  cases hstanding : wanted.standing (store.ownedSlices key) with
  | missing =>
    simp only [hstanding] at hslice ⊢
    exact WantedSlice.standing_eq_present_iff.mpr ⟨hslice, .inr hspec⟩
  | outdated =>
    simp only [hstanding] at hslice ⊢
    exact WantedSlice.standing_eq_missing_iff.mpr hslice
  | present slice =>
    simp only [hstanding] at hslice ⊢
    exact WantedSlice.standing_eq_present_iff.mpr
      ⟨hslice, (WantedSlice.standing_eq_present_iff.mp hstanding).2⟩

/-- Where no wanted slice is outdated, a pass leaves their states as they are, and slices that were
missing wait for their first report. -/
theorem state?_afterPass (h : store.Unobstructed key nodes)
    (hworkload : store.workload? key = some workload)
    (hopen : workload.IsOpen context.checkName current) {wanted : WantedSlice}
    (hwanted : wanted ∈ (store.snapshot key nodes).wanted)
    (huptodate : wanted.standing (store.ownedSlices key) ≠ .outdated) :
    wanted.state? ((store.afterPass key nodes context).ownedSlices key) context =
      some ((wanted.state? (store.ownedSlices key) context).getD .created) := by
  have hafter := h.standing_afterPass hworkload hopen hwanted
  unfold WantedSlice.state?
  cases hstanding : wanted.standing (store.ownedSlices key) with
  | missing =>
    simp only [hstanding] at hafter
    rw [wanted_snapshot context hworkload] at hwanted
    obtain ⟨plan, hplan, hslice⟩ := List.mem_flatMap.mp hwanted
    rw [hafter, Workload.slice_of_mem_plan hplan hslice]
    exact congrArg some (Workload.state_stamped_new _ _ _ _ _)
  | outdated => exact absurd hstanding huptodate
  | present slice =>
    simp only [hstanding] at hafter
    rw [hafter]
    rfl

/-- Where no slice is outdated, unwanted or broken, a pass sets the check to what the next pass
would set it to. -/
theorem sameAs_check_afterPass (h : store.Unobstructed key nodes)
    (hworkload : store.workload? key = some workload)
    (hopen : workload.IsOpen context.checkName current)
    (huptodate : ∀ wanted ∈ (store.snapshot key nodes).wanted,
      wanted.standing (store.ownedSlices key) ≠ .outdated)
    (hunwanted : ((store.snapshot key nodes).progress workload context).unwanted = [])
    (hfailures : ((store.snapshot key nodes).progress workload context).failures = [])
    (check : AdmissionCheck) :
    check.sameAs
        (((store.afterPass key nodes context).snapshot key nodes).progress workload context).check =
      check.sameAs ((store.snapshot key nodes).progress workload context).check := by
  have hwanted : (store.snapshot key nodes).wanted =
      ((store.snapshot key nodes).progress workload context).wanted :=
    wanted_snapshot context hworkload
  have hstate (wanted : WantedSlice)
      (hmem : wanted ∈ ((store.snapshot key nodes).progress workload context).wanted) :=
    h.state?_afterPass hworkload hopen (hwanted ▸ hmem) (huptodate wanted (hwanted ▸ hmem))
  have hplans : (((store.afterPass key nodes context).snapshot key nodes).progress workload
      context).plans = ((store.snapshot key nodes).progress workload context).plans := rfl
  refine Progress.sameAs_check_congr hplans rfl hfailures ?_ hunwanted ?_ ?_ check
  · rw [Progress.failures_eq_nil_iff]
    intro wanted hmem
    exact (WantedSlice.failure?_of_state?_eq (hstate wanted hmem)).trans
      (Progress.failures_eq_nil_iff.mp hfailures wanted hmem)
  · rw [Progress.unwanted_eq_nil_iff]
    intro slice hslice hnames
    exact h.isDeleting_afterPass hworkload hopen hslice (hwanted ▸ hnames)
  · exact fun wanted hmem ↦ WantedSlice.isReady_of_state?_eq (hstate wanted hmem)

/-- Where no slice is outdated or unwanted, nothing is left to write after one pass. -/
theorem writes_afterPass_of_isOpen (h : store.Unobstructed key nodes)
    (hworkload : store.workload? key = some workload)
    (hopen : workload.IsOpen context.checkName current)
    (huptodate : ∀ wanted ∈ (store.snapshot key nodes).wanted,
      wanted.standing (store.ownedSlices key) ≠ .outdated)
    (hunwanted : ((store.snapshot key nodes).progress workload context).unwanted = []) :
    (reconcile ((store.afterPass key nodes context).snapshot key nodes) context).writes = [] := by
  have hwanted : (store.snapshot key nodes).wanted =
      ((store.snapshot key nodes).progress workload context).wanted :=
    wanted_snapshot context hworkload
  obtain ⟨checks, updated, hafter, hfound, hsame⟩ :=
    workload?_afterPass_of_isOpen nodes hworkload hopen
  have hstate := Progress.state_of_sameAs hsame
  cases hverdict : ((store.snapshot key nodes).progress workload context).checkState with
  | retry =>
    rw [reconcile_of_isIdle hafter (hopen.isIdle_of_retry hfound (hstate.trans hverdict))]
    rfl
  | rejected => exact absurd hverdict Progress.checkState_ne_rejected
  | pending | ready =>
    have hundecided : updated.state = .pending ∨ updated.state = .ready := by
      simp [hstate, hverdict]
    have hfailures : ((store.snapshot key nodes).progress workload context).failures = [] := by
      by_contra hfailed
      rw [← Ne, ← Progress.checkState_eq_retry_iff, hverdict] at hfailed
      cases hfailed
    have hcheck := h.sameAs_check_afterPass hworkload hopen huptodate hunwanted hfailures updated
    rw [reconcile_of_isOpen hafter (hopen.isOpen_of_undecided hfound hundecided),
      Progress.outcome_writes_eq_nil_iff, Progress.sliceWrites_eq_nil_iff]
    refine ⟨⟨fun wanted hmem ↦ ?_, ?_⟩, ?_⟩
    · have hmem : wanted ∈ (store.snapshot key nodes).wanted := hwanted ▸ hmem
      have hstanding := h.standing_afterPass hworkload hopen hmem
      cases hbefore : wanted.standing (store.ownedSlices key) with
      | missing =>
        simp only [hbefore] at hstanding
        exact ⟨_, hstanding⟩
      | outdated => exact absurd hbefore (huptodate wanted hmem)
      | present slice =>
        simp only [hbefore] at hstanding
        exact ⟨slice, hstanding⟩
    · rw [Progress.unwanted_eq_nil_iff]
      intro slice hslice hnames
      exact h.isDeleting_afterPass hworkload hopen hslice (hwanted ▸ hnames)
    · exact hcheck.trans hsame

/-- After one pass no wanted slice is outdated. -/
theorem standing_afterPass_ne_outdated (h : store.Unobstructed key nodes)
    (hworkload : store.workload? key = some workload)
    (hopen : workload.IsOpen context.checkName current) {wanted : WantedSlice}
    (hwanted : wanted ∈ (store.snapshot key nodes).wanted) :
    wanted.standing ((store.afterPass key nodes context).ownedSlices key) ≠ .outdated := by
  rw [h.standing_afterPass hworkload hopen hwanted]
  cases wanted.standing (store.ownedSlices key) <;> simp

/-- After two passes nothing is left to write. -/
theorem writes_afterPass_afterPass (h : store.Unobstructed key nodes) (context : PassContext) :
    (reconcile
      (((store.afterPass key nodes context).afterPass key nodes context).snapshot key nodes)
      context).writes = [] := by
  have hfirst := h.afterPass context
  -- A store without writes is left as it is, so one pass is enough where the first one settles.
  have hsettled (hwrites : (reconcile ((store.afterPass key nodes context).snapshot key nodes)
      context).writes = []) : (reconcile (((store.afterPass key nodes context).afterPass key nodes
        context).snapshot key nodes) context).writes = [] := by
    rw [afterPass_of_writes_eq_nil hwrites]
    exact hwrites
  rcases (store.snapshot key nodes).situation context.checkName with
    hreleasing | ⟨workload, hworkload, hidle | ⟨current, hopen⟩⟩
  · have hsteps := map_fst_timed (reconcile (store.snapshot key nodes) context).writes context.now
    have hstill : ((store.afterPass key nodes context).snapshot key nodes).IsReleasing
        context.checkName := by
      have hworkload : (store.afterPass key nodes context).workload? key = store.workload? key :=
        workload?_carryAll_of_isReleasing hreleasing hsteps
      unfold Snapshot.IsReleasing snapshot at hreleasing ⊢
      rw [hworkload]
      exact hreleasing
    refine hsettled ((writes_eq_nil_iff_of_isReleasing hstill).mpr fun slice hslice ↦ ?_)
    exact isDeleting_carryAll_of_isReleasing h.consistent hreleasing hsteps hslice
  · have hwrites : (reconcile (store.snapshot key nodes) context).writes = [] := by
      rw [reconcile_of_isIdle hworkload hidle]
      rfl
    apply hsettled
    rw [afterPass_of_writes_eq_nil hwrites]
    exact hwrites
  · obtain ⟨checks, updated, hafter, hfound, hsame⟩ :=
      workload?_afterPass_of_isOpen nodes hworkload hopen
    cases hstate : updated.state with
    | retry =>
      apply hsettled
      rw [reconcile_of_isIdle hafter (hopen.isIdle_of_retry hfound hstate)]
      rfl
    | rejected =>
      have hrejected := calc ((store.snapshot key nodes).progress workload context).checkState
          = updated.state := (Progress.state_of_sameAs hsame).symm
        _ = .rejected := hstate
      exact absurd hrejected Progress.checkState_ne_rejected
    | pending | ready =>
      have hundecided : updated.state = .pending ∨ updated.state = .ready := by simp [hstate]
      refine hfirst.writes_afterPass_of_isOpen hafter (hopen.isOpen_of_undecided hfound hundecided)
        ?_ ?_
      · intro wanted hwanted
        rw [wanted_afterPass] at hwanted
        exact h.standing_afterPass_ne_outdated hworkload hopen hwanted
      · rw [Progress.unwanted_eq_nil_iff]
        intro slice hslice hnames
        rw [← wanted_snapshot context hafter, wanted_afterPass] at hnames
        exact h.isDeleting_afterPass hworkload hopen hslice hnames

end Unobstructed

end Store

/-! ## The fixed point -/

theorem filter_name_eq_singleton {slices : List Slice} (hdistinct : (slices.map Slice.name).Nodup)
    {slice : Slice} (h : slice ∈ slices) : slices.filter (·.name = slice.name) = [slice] := by
  have hnodup : slices.Nodup := List.Nodup.of_map _ hdistinct
  refine List.perm_singleton.mp ((List.perm_ext_iff_of_nodup (hnodup.filter _)
    (List.nodup_singleton slice)).mpr fun other ↦ ?_)
  simp only [List.mem_filter, decide_eq_true_eq, List.mem_singleton]
  constructor
  · rintro ⟨hother, hname⟩
    exact List.inj_on_of_nodup_map hdistinct hother h hname
  · rintro rfl
    exact ⟨h, rfl⟩

/-- The third pass in a row writes nothing. By then a workload that gives its slices back has none
left that is not being deleted, and an open one has exactly one slice of every name that it wants,
with the wanted spec unless it is being deleted, and no other slice that is not being deleted. -/
theorem passes_converge {store : Store} {key : String} {nodes : List Node}
    (h : store.Unobstructed key nodes) (context : PassContext) :
    let settled := (store.afterPass key nodes context).afterPass key nodes context
    (reconcile (settled.snapshot key nodes) context).writes = [] ∧
      ((settled.snapshot key nodes).IsReleasing context.checkName →
        ∀ slice ∈ settled.ownedSlices key, slice.isDeleting = true) ∧
      ∀ workload current, settled.workload? key = some workload →
        workload.IsOpen context.checkName current →
        (∀ wanted ∈ workload.wanted nodes, ∃ slice,
          (settled.ownedSlices key).filter (·.name = wanted.name) = [slice] ∧
            (slice.spec = wanted.spec ∨ slice.isDeleting = true)) ∧
        ∀ slice ∈ settled.ownedSlices key,
          (∀ wanted ∈ workload.wanted nodes, wanted.name ≠ slice.name) →
            slice.isDeleting = true := by
  intro settled
  have hwrites : (reconcile (settled.snapshot key nodes) context).writes = [] :=
    h.writes_afterPass_afterPass context
  have hdistinct : ((settled.ownedSlices key).map Slice.name).Nodup :=
    ((h.afterPass context).afterPass context).consistent.nodup_ownedSlices_names key
  refine ⟨hwrites, fun hreleasing ↦ ?_, fun workload current hworkload hopen ↦ ?_⟩
  · exact (writes_eq_nil_iff_of_isReleasing hreleasing).mp hwrites
  · rw [reconcile_of_isOpen hworkload hopen, Progress.outcome_writes_eq_nil_iff,
      Progress.sliceWrites_eq_nil_iff] at hwrites
    obtain ⟨⟨hpresent, hunwanted⟩, -⟩ := hwrites
    refine ⟨fun wanted hwanted ↦ ?_, Progress.unwanted_eq_nil_iff.mp hunwanted⟩
    obtain ⟨slice, hslice⟩ := hpresent wanted hwanted
    obtain ⟨hfound, hspec⟩ := WantedSlice.standing_eq_present_iff.mp hslice
    obtain ⟨hmem, hname⟩ := (lastNamed?_eq_some_iff hdistinct).mp hfound
    exact ⟨slice, hname ▸ filter_name_eq_singleton hdistinct hmem, hspec.symm⟩

/-- The node and the workload of the sample, and no slices yet. -/
def Sample.store : Store :=
  ((Store.empty.upsertNode node).store.upsertWorkload workload context.now).store

/-- The sample workload ends up with one slice. -/
theorem passes_converge_sample :
    let settled := (Sample.store.afterPass "team/job" [Sample.node] Sample.context).afterPass
      "team/job" [Sample.node] Sample.context
    (settled.ownedSlices "team/job").length = 1 ∧
      (reconcile (settled.snapshot "team/job" [Sample.node]) Sample.context).writes = [] := by
  have hstore : Sample.store.Unobstructed "team/job" [Sample.node] :=
    ⟨(Store.consistent_empty.upsertNode _).upsertWorkload _ _, by decide +kernel,
      fun _ _ slice hslice ↦ absurd hslice (by simp [Sample.store, Store.slice?,
        Store.upsertWorkload, Store.upsertNode, Store.empty])⟩
  exact ⟨by decide +kernel, (passes_converge hstore Sample.context).1⟩

end SliceControl
