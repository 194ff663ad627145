import SliceControl.Config
import SliceControl.Proofs.Reconcile.Verdict
import SliceControl.Proofs.Time.Instant

/-!
# The time to the next pass

A pass asks for another pass exactly where it leaves the check pending. The delay is the shortest of
the resync interval and of the times that the wanted slices may still wait, and none of these times
is shorter than a second. So the next pass comes no later than the moment at which a waiting slice
is due, or a second from now where that moment is past already.

A slice that waits since a leap second is an exception. As long as the clock shows the second before
it, no time has passed, and the delay is counted from the clock.
-/

namespace SliceControl

/-! ## The shortest of several durations -/

namespace Duration

theorem foldl_least_le (durations : List Duration) (initial : Duration) :
    (durations.foldl least initial).nanos ≤ initial.nanos := by
  induction durations generalizing initial with
  | nil => exact Nat.le_refl _
  | cons duration rest ih =>
    exact Nat.le_trans (ih (initial.least duration)) (Nat.min_le_left _ _)

theorem foldl_least_le_of_mem {durations : List Duration} {duration : Duration}
    (h : duration ∈ durations) (initial : Duration) :
    (durations.foldl least initial).nanos ≤ duration.nanos := by
  induction durations generalizing initial with
  | nil => exact absurd h List.not_mem_nil
  | cons first rest ih =>
    rcases List.mem_cons.mp h with rfl | hrest
    · exact Nat.le_trans (foldl_least_le rest _) (Nat.min_le_right _ _)
    · exact ih hrest _

/-- What bounds all durations from below bounds the shortest of them. -/
theorem le_foldl_least {bound : Nat} {durations : List Duration} {initial : Duration}
    (hinitial : bound ≤ initial.nanos) (h : ∀ duration ∈ durations, bound ≤ duration.nanos) :
    bound ≤ (durations.foldl least initial).nanos := by
  induction durations generalizing initial with
  | nil => exact hinitial
  | cons first rest ih =>
    have hfirst : bound ≤ (initial.least first).nanos :=
      Nat.le_min.mpr ⟨hinitial, h first List.mem_cons_self⟩
    exact ih hfirst fun duration hmem ↦ h duration (List.mem_cons_of_mem _ hmem)

end Duration

/-! ## How long a slice may go on waiting -/

namespace Slice

variable {slice : Slice} {since now : Instant} {timeout delay : Duration}

theorem second_le_timeToStale? (h : slice.timeToStale? now timeout = some delay) :
    (Duration.ofSeconds 1).nanos ≤ delay.nanos := by
  obtain ⟨since, -, rfl⟩ := Option.map_eq_some_iff.mp h
  exact Nat.le_max_right _ _

end Slice

/-! ## The delay of a pass -/

namespace WantedSlice

variable {wanted : WantedSlice} {slices : List Slice} {context : PassContext} {slice : Slice}
  {since : Instant}

/-- The slice of a wanted name has the wanted spec and is on its way: it is not being deleted, and
neither active nor broken. Its waiting time started at `since`. -/
structure IsAwaited (wanted : WantedSlice) (slices : List Slice) (context : PassContext)
    (slice : Slice) (since : Instant) : Prop where
  found : lastNamed? slices wanted.name = some slice
  kept : slice.isDeleting = false
  spec : slice.spec = wanted.spec
  /-- It is neither ready nor failed nor stale. -/
  underway : slice.state context.now context.stalenessTimeout ∉
    [SliceState.active, .activeDegraded, .failed, .stale]
  /-- It has been waiting since the report that it is not ready, or without any report since its
  creation. -/
  waiting : (∃ condition, slice.ready? = some condition ∧ condition.status = .false ∧
      condition.lastTransitionTime = since) ∨
    (slice.ready? = none ∧ slice.metadata.creationTimestamp = some since)

theorem IsAwaited.patience?_eq (h : wanted.IsAwaited slices context slice since) :
    wanted.patience? slices context =
      slice.timeToStale? context.now context.stalenessTimeout := by
  have hpresent : wanted.standing slices = .present slice :=
    standing_eq_present_iff.mpr ⟨h.found, .inr h.spec⟩
  have hunready : (slice.state context.now context.stalenessTimeout).isReady = false := by
    rw [← Bool.not_eq_true, SliceState.isReady_iff]
    rintro (hstate | hstate) <;> exact h.underway (by simp [hstate])
  have hunbroken : (slice.state context.now context.stalenessTimeout).isError = false := by
    rw [← Bool.not_eq_true, SliceState.isError_iff]
    rintro (hstate | hstate) <;> exact h.underway (by simp [hstate])
  simp [patience?, hpresent, hunready, hunbroken]

theorem second_le_patience? {delay : Duration} (h : wanted.patience? slices context = some delay) :
    (Duration.ofSeconds 1).nanos ≤ delay.nanos := by
  unfold patience? at h
  split at h
  · dsimp only at h
    split_ifs at h
    exact Slice.second_le_timeToStale? h
  · cases h

end WantedSlice

namespace Progress

variable {progress : Progress}

theorem delay_le_resyncInterval (progress : Progress) :
    progress.delay.nanos ≤ progress.context.resyncInterval.nanos :=
  Duration.foldl_least_le _ _

/-- No pass follows another within the same second. -/
theorem second_le_delay (progress : Progress)
    (hresync : (Duration.ofSeconds 1).nanos ≤ progress.context.resyncInterval.nanos) :
    (Duration.ofSeconds 1).nanos ≤ progress.delay.nanos := by
  apply Duration.le_foldl_least hresync
  intro duration hmem
  obtain ⟨wanted, -, hpatience⟩ := List.mem_filterMap.mp hmem
  exact WantedSlice.second_le_patience? hpatience

/-- The next pass comes before a slice on its way is overdue, or within a second. A slice that
starts to wait only later has its whole timeout left. -/
theorem after_delay_le (progress : Progress)
    (hresync : (Duration.ofSeconds 1).nanos ≤ progress.context.resyncInterval.nanos)
    {wanted : WantedSlice} {slice : Slice} {since : Instant} (hwanted : wanted ∈ progress.wanted)
    (h : wanted.IsAwaited progress.slices progress.context slice since)
    (hordinary : since.isLeap = false) :
    progress.context.now.after progress.delay ≤ since.after progress.context.stalenessTimeout ∨
      progress.context.now.after progress.delay ≤ progress.context.now.after (.ofSeconds 1) := by
  have hsince : slice.waitingSince? = some since := Slice.waitingSince?_eq_some_iff.mpr h.waiting
  have hpatience : wanted.patience? progress.slices progress.context =
      some ((progress.context.stalenessTimeout.remaining
        (since.elapsed progress.context.now)).greatest (.ofSeconds 1)) :=
    h.patience?_eq.trans (Option.map_eq_some_iff.mpr ⟨since, hsince, rfl⟩)
  have hmem := List.mem_filterMap (f := (·.patience? progress.slices progress.context)).mpr
    ⟨wanted, hwanted, hpatience⟩
  have hshorter := Duration.foldl_least_le_of_mem hmem progress.context.resyncInterval
  exact Instant.after_remaining_le hordinary _ (progress.second_le_delay hresync) hshorter

end Progress

/-! ## When a pass asks for another one -/

/-- A delay is given by a pass that gets to work on an open workload and finds it pending. -/
theorem requeueAfter_eq_some_iff {snapshot : Snapshot} {context : PassContext} {delay : Duration} :
    (reconcile snapshot context).requeueAfter = some delay ↔
      ∃ workload current, snapshot.workload = some workload ∧
        workload.IsOpen context.checkName current ∧
        (snapshot.progress workload context).checkState = .pending ∧
        (snapshot.progress workload context).delay = delay := by
  rcases snapshot.situation context.checkName with
    hreleasing | ⟨workload, hworkload, hidle | ⟨current, hopen⟩⟩
  · rw [reconcile_of_isReleasing hreleasing]
    refine iff_of_false (by simp [releaseAll]) ?_
    rintro ⟨workload, current, hworkload, hopen, -, -⟩
    exact hopen.not_isReleasing hworkload hreleasing
  · rw [reconcile_of_isIdle hworkload hidle]
    refine iff_of_false (by simp [Outcome.idle]) ?_
    rintro ⟨other, current, hother, hopen, -, -⟩
    cases hworkload.symm.trans hother
    exact hopen.not_isIdle hidle
  · rw [reconcile_of_isOpen hworkload hopen]
    simp only [Progress.outcome]
    constructor
    · intro h
      split_ifs at h with hpending
      exact ⟨workload, current, hworkload, hopen, hpending, Option.some.inj h⟩
    · rintro ⟨other, -, hother, -, hpending, rfl⟩
      cases hworkload.symm.trans hother
      rw [if_pos hpending]

/-- The settings of a valid configuration let at least a second pass between two resyncs. -/
theorem Config.second_le_resyncInterval {config valid : Config}
    (h : config.validate = .ok valid) :
    (Duration.ofSeconds 1).nanos ≤ valid.passSettings.resyncInterval.nanos := by
  unfold validate at h
  split at h
  · cases h
  · rename_i hrules
    cases h
    have hkept : ¬(config.resyncIntervalSecs == 0) = true := by
      intro hzero
      exact List.find?_eq_none.mp hrules (config.resyncIntervalSecs == 0, .noResyncInterval)
        (by simp [rules]) hzero
    have hpositive : 0 < config.resyncIntervalSecs.toNat := by
      rw [Nat.pos_iff_ne_zero]
      intro hzero
      exact hkept (by simpa using UInt64.toNat_inj.mp hzero)
    simp only [passSettings, resyncInterval, Duration.ofSeconds]
    omega

/-- A pass is followed by another one exactly where it leaves the check of an open workload pending.
The delay is positive and no longer than the resync interval. It ends no later than the moment at
which the time of a slice on its way is up, or a second from now where that comes later, unless the
slice has been waiting since a leap second. -/
theorem reconcile_requeues (snapshot : Snapshot) (context : PassContext)
    (hresync : (Duration.ofSeconds 1).nanos ≤ context.resyncInterval.nanos) :
    ((reconcile snapshot context).requeueAfter.isSome = true ↔
      ∃ workload current, snapshot.workload = some workload ∧
        workload.IsOpen context.checkName current ∧
        (snapshot.progress workload context).checkState = .pending) ∧
    ∀ delay, (reconcile snapshot context).requeueAfter = some delay →
      0 < delay.nanos ∧ delay.nanos ≤ context.resyncInterval.nanos ∧
      ∀ workload, snapshot.workload = some workload →
        ∀ wanted ∈ workload.wanted snapshot.nodes, ∀ slice since,
          wanted.IsAwaited snapshot.slices context slice since → since.isLeap = false →
            context.now.after delay ≤ since.after context.stalenessTimeout ∨
              context.now.after delay ≤ context.now.after (.ofSeconds 1) := by
  constructor
  · rw [Option.isSome_iff_exists]
    simp only [requeueAfter_eq_some_iff]
    constructor
    · rintro ⟨delay, workload, current, hworkload, hopen, hpending, -⟩
      exact ⟨workload, current, hworkload, hopen, hpending⟩
    · rintro ⟨workload, current, hworkload, hopen, hpending⟩
      exact ⟨_, workload, current, hworkload, hopen, hpending, rfl⟩
  · intro delay hdelay
    obtain ⟨workload, current, hworkload, -, -, rfl⟩ := requeueAfter_eq_some_iff.mp hdelay
    have hsecond :
        (Duration.ofSeconds 1).nanos ≤ (snapshot.progress workload context).delay.nanos :=
      Progress.second_le_delay _ hresync
    refine ⟨Nat.lt_of_lt_of_le (by decide) hsecond, Progress.delay_le_resyncInterval _, ?_⟩
    intro other hother wanted hwanted slice since hawaited hordinary
    cases hworkload.symm.trans hother
    exact (snapshot.progress workload context).after_delay_le hresync hwanted hawaited hordinary

namespace Sample

/-- The slice of the sample workload, created four hundred seconds ago and not reported about. -/
def freshSlices : List Slice :=
  (workload.wanted [node]).map fun wanted ↦
    { wanted.slice with metadata.creationTimestamp := some (.ofNanos (-400000000000)) }

def freshSnapshot : Snapshot := ⟨"team/job", some workload, freshSlices, [node]⟩

end Sample

/-- Four hundred of six hundred seconds are over, so the next pass comes in two hundred seconds and
not only after the resync interval of three hundred. -/
theorem reconcile_requeues_sample :
    (reconcile Sample.freshSnapshot Sample.context).requeueAfter = some (.ofSeconds 200) ∧
      ∃ wanted ∈ Sample.workload.wanted [Sample.node], ∃ slice,
        wanted.IsAwaited Sample.freshSlices Sample.context slice (.ofNanos (-400000000000)) ∧
        (Sample.context.now.after (.ofSeconds 200) ≤
            (Instant.ofNanos (-400000000000)).after Sample.context.stalenessTimeout ∨
          Sample.context.now.after (.ofSeconds 200) ≤
            Sample.context.now.after (.ofSeconds 1)) := by
  have hdelay : (reconcile Sample.freshSnapshot Sample.context).requeueAfter =
      some (.ofSeconds 200) := by decide +kernel
  have hwaiting : ∃ wanted ∈ Sample.workload.wanted [Sample.node], ∃ slice ∈ Sample.freshSlices,
      lastNamed? Sample.freshSlices wanted.name = some slice ∧ slice.isDeleting = false ∧
        slice.spec = wanted.spec ∧
        slice.state Sample.context.now Sample.context.stalenessTimeout = .created ∧
        slice.ready? = none ∧
          slice.metadata.creationTimestamp = some (.ofNanos (-400000000000)) := by
    decide +kernel
  obtain ⟨wanted, hwanted, slice, -, hfound, hkept, hspec, hstate, hready, hcreated⟩ := hwaiting
  have hawaited :
      wanted.IsAwaited Sample.freshSlices Sample.context slice (.ofNanos (-400000000000)) :=
    ⟨hfound, hkept, hspec, by simp [hstate], .inr ⟨hready, hcreated⟩⟩
  obtain ⟨-, -, hdue⟩ :=
    (reconcile_requeues Sample.freshSnapshot Sample.context (by decide)).2 _ hdelay
  exact ⟨hdelay, wanted, hwanted, slice, hawaited,
    hdue _ rfl wanted hwanted slice _ hawaited (Instant.isLeap_ofNanos _)⟩

namespace Sample

/-- The slice of the sample workload, not ready since a moment. -/
def unreadySlices (since : Instant) : List Slice :=
  (workload.wanted [node]).map fun wanted ↦
    { wanted.slice with
      status.conditions := [⟨Condition.ready, .false, "Provisioning", "", since⟩] }

end Sample

/-- The clock shows half a second past a second, and the slice of the sample workload waits since
the leap second after it. The whole timeout is left, so that the next pass comes half a second after
the slice is due, and when it is stale. -/
theorem reconcile_oversleeps :
    ∃ now since late : Instant, Time.readStamp? "2026-05-01T12:34:59.5Z" = some now ∧
      Time.readStamp? "2026-05-01T12:34:60Z" = some since ∧
      Time.readStamp? "2026-05-01T12:44:59.25Z" = some late ∧
      let context : PassContext := ⟨"tpu-slice", .ofSeconds 600, .ofSeconds 600, now⟩
      let snapshot : Snapshot :=
        ⟨"team/job", some Sample.workload, Sample.unreadySlices since, [Sample.node]⟩
      (reconcile snapshot context).requeueAfter = some (.ofSeconds 600) ∧
      ∃ wanted ∈ Sample.workload.wanted [Sample.node], ∃ slice,
        wanted.IsAwaited snapshot.slices context slice since ∧
        (since.after context.stalenessTimeout).before (now.after (.ofSeconds 600)) = true ∧
        (now.after (.ofSeconds 1)).before (now.after (.ofSeconds 600)) = true ∧
        late.before (now.after (.ofSeconds 600)) = true ∧
        slice.state late context.stalenessTimeout = .stale := by
  let now : Instant := .ofNanos 1777638899500000000
  let since : Instant := ⟨1777638899, 1000000000, by decide, by decide⟩
  let late : Instant := .ofNanos 1777639499250000000
  refine ⟨now, since, late, by decide +kernel, by decide +kernel, by decide +kernel,
    by decide +kernel, ?_⟩
  have hwaiting : ∃ wanted ∈ Sample.workload.wanted [Sample.node],
      ∃ slice ∈ Sample.unreadySlices since, ∃ condition ∈ slice.status.conditions,
        lastNamed? (Sample.unreadySlices since) wanted.name = some slice ∧
        slice.isDeleting = false ∧ slice.spec = wanted.spec ∧
        slice.state now (.ofSeconds 600) = .activating ∧ slice.ready? = some condition ∧
        condition.status = .false ∧ condition.lastTransitionTime = since ∧
        slice.state late (.ofSeconds 600) = .stale := by
    decide +kernel
  obtain ⟨wanted, hwanted, slice, -, condition, -, hfound, hkept, hspec, hstate, hready, hfalse,
    hsince, hstale⟩ := hwaiting
  exact ⟨wanted, hwanted, slice, ⟨hfound, hkept, hspec, by simp [hstate],
    .inl ⟨condition, hready, hfalse, hsince⟩⟩, by decide +kernel, by decide +kernel,
    by decide +kernel, hstale⟩

end SliceControl
