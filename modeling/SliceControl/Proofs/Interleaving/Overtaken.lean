import SliceControl.Proofs.Interleaving.Resync
import SliceControl.Proofs.Reconcile.Verdict
import SliceControl.Proofs.Store.Reachable

/-!
# Passes that are overtaken

Between the reads of a pass and its writes other clients may change the store, so that its writes
are carried out in another store than the one that they were computed for. The check is written by
its name only: a pass that has found all slices ready makes the check ready whatever the workload
has been admitted onto in the meantime.
-/

namespace SliceControl

/-! ## The check after writes -/

namespace Store

/-- The check of a name that the workload `key` carries. -/
def check? (store : Store) (key name : String) : Option AdmissionCheck :=
  (store.workload? key).bind (·.check? name)

variable {store : Store} {key name : String}

theorem check?_eq_some_iff {check : AdmissionCheck} : store.check? key name = some check ↔
    ∃ workload, store.workload? key = some workload ∧ workload.check? name = some check :=
  Option.bind_eq_some_iff

theorem check?_carryAll_of_slices {steps : List (Write × Instant)}
    (h : ∀ write ∈ steps.map Prod.fst, write.check? = none) :
    (store.carryAll key steps).check? key name = store.check? key name := by
  have hslices : ∀ step ∈ steps, ∀ check, step.1 ≠ .setCheck check := by
    intro step hstep check hwrite
    have hnone := h step.1 (List.mem_map_of_mem hstep)
    rw [hwrite] at hnone
    cases hnone
  unfold check?
  rw [workload?_carryAll_of_slices hslices]

theorem check?_updateCheck {check before : AdmissionCheck}
    (hbefore : store.check? key check.name = some before) :
    (store.updateCheck key check).store.check? key check.name = some (before.update check) := by
  obtain ⟨workload, hworkload, hcurrent⟩ := check?_eq_some_iff.mp hbefore
  obtain ⟨checks, hupdated, hfound⟩ := workload?_updateCheck check hworkload hcurrent
  exact check?_eq_some_iff.mpr ⟨_, hupdated, hfound⟩

/-- A check that is written last is found updated. -/
theorem check?_carryAll_of_setCheck {steps : List (Write × Instant)} {slices : List Write}
    {check before : AdmissionCheck} (hsteps : steps.map Prod.fst = slices ++ [.setCheck check])
    (hslices : ∀ write ∈ slices, write.check? = none)
    (hbefore : store.check? key check.name = some before) :
    (store.carryAll key steps).check? key check.name = some (before.update check) := by
  obtain ⟨first, last, rfl, hfirst, hlast⟩ := List.map_eq_append_iff.mp hsteps
  obtain ⟨⟨write, now⟩, rest, rfl, hwrite, hrest⟩ := List.map_eq_cons_iff.mp hlast
  cases List.map_eq_nil_iff.mp hrest
  have hbetween : (store.carryAll key first).check? key check.name = some before := by
    rw [check?_carryAll_of_slices (hfirst ▸ hslices)]
    exact hbefore
  rw [carryAll_append]
  rw [show write = .setCheck check from hwrite]
  exact check?_updateCheck hbetween

end Store

theorem AdmissionCheck.state_update (check next : AdmissionCheck) :
    (check.update next).state = next.state := by
  unfold update
  split_ifs with hstate
  · exact hstate
  · rfl

/-! ## Announcing readiness -/

/-- The workload is open and has all its slices, and its check does not say so yet. -/
def Snapshot.AnnouncesReady (snapshot : Snapshot) (context : PassContext) : Prop :=
  ∃ workload current, snapshot.workload = some workload ∧
    workload.IsOpen context.checkName current ∧ (snapshot.progress workload context).IsComplete ∧
      current.sameAs (snapshot.progress workload context).check = false

section Announcing

variable {snapshot : Snapshot} {context : PassContext}

theorem checkState_eq_ready_iff_isComplete (hdistinct : (snapshot.slices.map Slice.name).Nodup)
    (workload : Workload) : (snapshot.progress workload context).checkState = .ready ↔
      (snapshot.progress workload context).IsComplete := by
  rw [Progress.checkState_eq_ready_iff, ← Progress.allReady_iff_isComplete hdistinct]
  exact ⟨And.right, fun hready ↦ ⟨Progress.failures_of_allReady hready, hready⟩⟩

/-- A pass that writes the check writes it last, and makes it ready just if it announces readiness;
any other pass announces nothing. -/
theorem writes_shape (context : PassContext) (hdistinct : (snapshot.slices.map Slice.name).Nodup) :
    ((∀ write ∈ (reconcile snapshot context).writes, write.check? = none) ∧
        ¬snapshot.AnnouncesReady context) ∨
      ∃ slices check, (reconcile snapshot context).writes = slices ++ [.setCheck check] ∧
        (∀ write ∈ slices, write.check? = none) ∧ check.name = context.checkName ∧
          (check.state = .ready ↔ snapshot.AnnouncesReady context) := by
  by_cases hannounces : snapshot.AnnouncesReady context
  · right
    obtain ⟨workload, current, hworkload, hopen, hcomplete, hnews⟩ := hannounces
    refine ⟨(snapshot.progress workload context).sliceWrites,
      (snapshot.progress workload context).check, ?_,
      fun write ↦ Progress.check?_of_mem_sliceWrites, rfl, ?_⟩
    · rw [reconcile_of_isOpen hworkload hopen]
      simp [Progress.outcome, Progress.checkWrites, hnews]
    · have hready := (checkState_eq_ready_iff_isComplete hdistinct workload).mpr hcomplete
      exact iff_of_true hready ⟨workload, current, hworkload, hopen, hcomplete, hnews⟩
  · rcases snapshot.situation context.checkName with
      hreleasing | ⟨workload, hworkload, hidle | ⟨current, hopen⟩⟩
    · refine .inl ⟨fun write hwrite ↦ ?_, hannounces⟩
      rw [reconcile_of_isReleasing hreleasing] at hwrite
      obtain ⟨slice, -, -, rfl⟩ := mem_releaseAll_writes.mp hwrite
      rfl
    · refine .inl ⟨fun write hwrite ↦ ?_, hannounces⟩
      rw [reconcile_of_isIdle hworkload hidle] at hwrite
      exact absurd hwrite List.not_mem_nil
    · rw [reconcile_of_isOpen hworkload hopen]
      show (∀ write ∈ _ ++ Progress.checkWrites _ current, _) ∧ _ ∨
        ∃ _ _, _ ++ Progress.checkWrites _ current = _ ∧ _
      unfold Progress.checkWrites
      split_ifs with hsame
      · refine .inl ⟨fun write hwrite ↦ ?_, hannounces⟩
        exact Progress.check?_of_mem_sliceWrites (by simpa using hwrite)
      · refine .inr ⟨_, _, rfl, fun write ↦ Progress.check?_of_mem_sliceWrites, rfl, ?_⟩
        refine iff_of_false (fun hready ↦ hannounces ?_) hannounces
        have hcomplete := (checkState_eq_ready_iff_isComplete hdistinct workload).mp hready
        exact ⟨workload, current, hworkload, hopen, hcomplete, Bool.eq_false_iff.mpr hsame⟩

/-- A pass over a workload whose check is not ready leads to a ready check just if it announces
readiness. -/
theorem state_checkAfter_eq_ready_iff (hdistinct : (snapshot.slices.map Slice.name).Nodup)
    {before : AdmissionCheck} (hunready : before.state ≠ .ready) :
    ((reconcile snapshot context).checkAfter before).state = .ready ↔
      snapshot.AnnouncesReady context := by
  unfold Outcome.checkAfter
  rcases writes_shape context hdistinct with
    ⟨hslices, hsilent⟩ | ⟨slices, check, hwrites, hslices, -, hready⟩
  · rw [List.findSome?_eq_none_iff.mpr hslices]
    exact iff_of_false hunready hsilent
  · rw [hwrites, List.findSome?_append, List.findSome?_eq_none_iff.mpr hslices]
    exact hready

namespace Store

variable {store : Store} {key : String} {steps : List (Write × Instant)}

/-- In whatever store the writes of a pass are carried out, they make a check ready that was not
just if the pass announces readiness. -/
theorem becomes_ready_iff (hdistinct : (snapshot.slices.map Slice.name).Nodup)
    (hsteps : steps.map Prod.fst = (reconcile snapshot context).writes)
    {before : AdmissionCheck} (hbefore : store.check? key context.checkName = some before)
    (hunready : before.state ≠ .ready) :
    (∃ after, (store.carryAll key steps).check? key context.checkName = some after ∧
      after.state = .ready) ↔ snapshot.AnnouncesReady context := by
  rcases writes_shape context hdistinct with
    ⟨hslices, hsilent⟩ | ⟨slices, check, hwrites, hslices, hname, hready⟩
  · rw [check?_carryAll_of_slices (hsteps ▸ hslices), hbefore]
    refine iff_of_false ?_ hsilent
    rintro ⟨after, hafter, hstate⟩
    cases hafter
    exact hunready hstate
  · rw [← hname] at hbefore ⊢
    rw [check?_carryAll_of_setCheck (hsteps.trans hwrites) hslices hbefore, ← hready]
    simp [AdmissionCheck.state_update]

/-- Whatever happens between the reads and the writes of a pass, the pass makes a check ready only
if one that reads the changed store would, just if it announces readiness only where such a pass
announces it too. -/
theorem overtaken_iff (settings : PassSettings) (hreachable : store.Reachable) (key : String)
    (changes : List (Mutation × Instant)) (read later : Instant)
    (hsteps : steps.map Prod.fst =
      (reconcile (store.reading key) (settings.contextAt read)).writes) :
    let changed := store.mutateAll changes
    (∀ before after, changed.check? key settings.checkName = some before →
      before.state ≠ .ready →
      (changed.carryAll key steps).check? key settings.checkName = some after →
      after.state = .ready →
        ((reconcile (changed.reading key) (settings.contextAt later)).checkAfter before).state =
          .ready) ↔
      ((store.reading key).AnnouncesReady (settings.contextAt read) →
        ∀ before, changed.check? key settings.checkName = some before → before.state ≠ .ready →
          (changed.reading key).AnnouncesReady (settings.contextAt later)) := by
  intro changed
  have hread : ((store.reading key).slices.map Slice.name).Nodup :=
    hreachable.consistent.nodup_ownedSlices_names key
  have hchanged : ((changed.reading key).slices.map Slice.name).Nodup :=
    (hreachable.mutateAll changes).consistent.nodup_ownedSlices_names key
  constructor
  · intro hsafe hannounces before hbefore hunready
    obtain ⟨after, hafter, hready⟩ :=
      (becomes_ready_iff hread hsteps hbefore hunready).mpr hannounces
    have hfresh := hsafe before after hbefore hunready hafter hready
    exact (state_checkAfter_eq_ready_iff hchanged hunready).mp hfresh
  · intro hagree before after hbefore hunready hafter hready
    have hannounces :=
      (becomes_ready_iff hread hsteps hbefore hunready).mp ⟨after, hafter, hready⟩
    apply (state_checkAfter_eq_ready_iff hchanged hunready).mpr
    exact hagree hannounces before hbefore hunready

end Store

end Announcing

/-! ## A workload that moves -/

namespace Sample

/-- A node that stands in the partition `p1`. -/
def otherNode : Node :=
  ⟨"v1", "Node",
    { Metadata.named "n1" with labels := SortedMap.ofList [(Label.partition "2x2x1", "p1")] }⟩

/-- The sample workload, admitted anew. -/
def readmitted (queue host : String) : Workload :=
  let placement : Placement := ⟨[Label.hostname], [⟨[host], 1⟩]⟩
  { workload with status.admission := some ⟨queue, [⟨"workers", 1, some placement⟩]⟩ }

/-- A first pass over the sample workload has created its slice. -/
def created : Store :=
  let registered := Store.empty.mutateAll [(.upsertNode node, .ofNanos 0),
    (.upsertNode otherNode, .ofNanos 0), (.upsertWorkload workload, .ofNanos 0)]
  registered.carryAll "team/job"
    ((reconcile (registered.reading "team/job") context).writes.map (·, .ofNanos 0))

/-- The slice of the sample workload is active, which its check does not say yet. -/
def backed : Store := created.mutateAll [(.setCondition "team-job-workers-0" active, .ofNanos 0)]

/-- The writes of a pass over the workload with its active slice. -/
def announcement : List (Write × Instant) :=
  (reconcile (backed.reading "team/job") context).writes.map (·, .ofNanos 0)

theorem reachable_backed : backed.Reachable :=
  ((Store.Reachable.empty.mutateAll _).carryAll _).mutateAll _

end Sample

namespace Store

/-- A pass is overtaken by an admission from another queue onto the same node, which is harmless:
the slice that it has found active is still the wanted one. -/
theorem overtaken_iff_sample :
    let changed := Sample.backed.mutateAll
      [(.upsertWorkload (Sample.readmitted "other" "n0"), .ofNanos 0)]
    ∀ before after, changed.check? "team/job" Sample.settings.checkName = some before →
      before.state ≠ .ready →
      (changed.carryAll "team/job" Sample.announcement).check? "team/job"
        Sample.settings.checkName = some after → after.state = .ready →
        ((reconcile (changed.reading "team/job")
          (Sample.settings.contextAt (.ofNanos 0))).checkAfter before).state = .ready := by
  intro changed
  have hsteps : Sample.announcement.map Prod.fst =
      (reconcile (Sample.backed.reading "team/job")
        (Sample.settings.contextAt (.ofNanos 0))).writes := by
    decide +kernel
  apply (overtaken_iff Sample.settings Sample.reachable_backed "team/job" _ (.ofNanos 0)
    (.ofNanos 0) hsteps).mpr
  intro _ before hbefore hunready
  have hdistinct : ((changed.reading "team/job").slices.map Slice.name).Nodup := by
    decide +kernel
  have hcheck : changed.check? "team/job" Sample.settings.checkName = some Sample.check := by
    decide +kernel
  cases hcheck.symm.trans hbefore
  apply (state_checkAfter_eq_ready_iff hdistinct hunready).mp
  decide +kernel

/-- A pass is overtaken by an admission onto another node. It makes the check ready, although the
workload has no slice there, and a pass that read the changed store would leave the check
pending. -/
theorem overtaken_announcement :
    let changed := Sample.backed.mutateAll
      [(.upsertWorkload (Sample.readmitted "queue" "n1"), .ofNanos 0)]
    Sample.backed.Reachable ∧
      Sample.announcement.map Prod.fst =
        (reconcile (Sample.backed.reading "team/job") Sample.context).writes ∧
      (changed.workload? "team/job").map (·.status.admission) ≠
        (Sample.backed.workload? "team/job").map (·.status.admission) ∧
      (changed.check? "team/job" "tpu-slice").map AdmissionCheck.state = some .pending ∧
      ((changed.carryAll "team/job" Sample.announcement).check? "team/job" "tpu-slice").map
        AdmissionCheck.state = some .ready ∧
      ((reconcile (changed.reading "team/job") Sample.context).checkAfter Sample.check).state =
        .pending := by
  intro changed
  refine ⟨Sample.reachable_backed, ?_⟩
  decide +kernel

end Store

end SliceControl
