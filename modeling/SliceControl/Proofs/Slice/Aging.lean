import SliceControl.Proofs.Time.Instant
import SliceControl.Slice.State

/-!
# States in time

What has been reported about a slice does not change by itself, and neither does its state, with one
exception: a slice that waits to become ready is stale as soon as it has waited for longer than the
timeout. At the very moment at which the timeout ends it is not stale yet.

A slice with a report that neither denies nor confirms that it is ready does not wait, and so it is
never stale, however old it is.

All this supposes that no leap second is involved. Time that began in one is measured shorter again
after midnight, so that a slice that was stale may be on its way once more.
-/

namespace SliceControl

theorem SliceState.isReady_iff {state : SliceState} :
    state.isReady = true ↔ state = .active ∨ state = .activeDegraded := by
  cases state <;> simp [isReady]

theorem SliceState.isError_iff {state : SliceState} :
    state.isError = true ↔ state = .failed ∨ state = .stale := by
  cases state <;> simp [isError]

namespace Slice

variable {slice : Slice} {since now later : Instant} {timeout longer : Duration}

/-! ## Waiting -/

/-- The waiting time of a slice starts with the report that it is not ready, or with its creation
while there is no report. -/
theorem waitingSince?_eq_some_iff :
    slice.waitingSince? = some since ↔
      (∃ condition, slice.ready? = some condition ∧ condition.status = .false ∧
        condition.lastTransitionTime = since) ∨
      (slice.ready? = none ∧ slice.metadata.creationTimestamp = some since) := by
  unfold waitingSince? Condition.isFalse
  cases slice.ready? <;> simp

/-- A slice that waits is on its way, as far as reports go. -/
theorem reportedState_of_waitingSince? (h : slice.waitingSince? = some since) :
    slice.reportedState = .created ∨ slice.reportedState = .activating := by
  unfold reportedState
  rcases waitingSince?_eq_some_iff.mp h with ⟨condition, hready, hfalse, -⟩ | ⟨hready, -⟩
  · rw [hready]
    exact .inr (if_neg (by simp [Condition.isTrue, hfalse]))
  · rw [hready]
    exact .inl rfl

/-- Neither now nor the start of the waiting time falls into a leap second. -/
structure AvoidsLeapSeconds (slice : Slice) (now : Instant) : Prop where
  now : now.isLeap = false
  since : ∀ since, slice.waitingSince? = some since → since.isLeap = false

theorem exists_waitingSince?_of_isOverdue (h : slice.isOverdue now timeout = true) :
    ∃ since, slice.waitingSince? = some since := by
  obtain ⟨since, hsince, -⟩ := (Option.any_eq_true _ _).mp h
  exact ⟨since, hsince⟩

theorem isOverdue_iff (h : slice.AvoidsLeapSeconds now) :
    slice.isOverdue now timeout = true ↔
      ∃ since, slice.waitingSince? = some since ∧ (since.after timeout).before now = true := by
  rw [isOverdue, Option.any_eq_true]
  refine exists_congr fun since ↦ and_congr_right fun hsince ↦ ?_
  exact Instant.elapsedBeyond_iff (h.since since hsince) h.now

/-- A slice that has waited for too long still has with a shorter timeout. -/
theorem isOverdue_of_shorter (htimeout : timeout.nanos ≤ longer.nanos)
    (h : slice.isOverdue now longer = true) : slice.isOverdue now timeout = true := by
  obtain ⟨since, hsince, hover⟩ := (Option.any_eq_true _ _).mp h
  have hlong : (longer.nanos : Int) < since.difference now := of_decide_eq_true hover
  have hshort : (timeout.nanos : Int) < since.difference now := by omega
  exact (Option.any_eq_true _ _).mpr ⟨since, hsince, decide_eq_true hshort⟩

/-- A slice that has waited for too long still has later on. -/
theorem isOverdue_of_le (hnow : slice.AvoidsLeapSeconds now)
    (hlater : slice.AvoidsLeapSeconds later) (htime : now ≤ later)
    (h : slice.isOverdue now timeout = true) : slice.isOverdue later timeout = true := by
  obtain ⟨since, hsince, hdue⟩ := (isOverdue_iff hnow).mp h
  have hend : (since.after timeout).isLeap = false :=
    Instant.isLeap_after (hnow.since since hsince)
  rw [Instant.before_iff_toNanos hend hnow.now] at hdue
  rw [Instant.le_iff_toNanos hnow.now hlater.now] at htime
  refine (isOverdue_iff hlater).mpr ⟨since, hsince, ?_⟩
  rw [Instant.before_iff_toNanos hend hlater.now]
  omega

/-! ## States -/

/-- A slice that is being deleted is neither ready nor broken. -/
theorem state_of_isDeleting (h : slice.isDeleting = true) (now : Instant) (timeout : Duration) :
    slice.state now timeout = .deleted := by
  simp [state, h]

theorem reportedState_ne_stale (slice : Slice) : slice.reportedState ≠ .stale := by
  unfold reportedState
  split
  · simp
  · split_ifs <;> simp

theorem state_eq_stale_iff :
    slice.state now timeout = .stale ↔
      slice.isDeleting = false ∧ slice.hasFailed = false ∧ slice.isOverdue now timeout = true := by
  unfold state
  split_ifs with hdeleting hfailed hoverdue
  · simp [hdeleting]
  · simp [hfailed]
  · simp [hdeleting, hfailed, hoverdue]
  · simp [hoverdue, slice.reportedState_ne_stale]

/-- A slice that is no more overdue than before has the state that it had, and one that is overdue
only now was on its way and is stale. -/
theorem state_eq_or_becomes_stale {other : Duration}
    (h : slice.isOverdue now timeout = true → slice.isOverdue later other = true) :
    slice.state later other = slice.state now timeout ∨
      (slice.state now timeout = .created ∨ slice.state now timeout = .activating) ∧
        slice.state later other = .stale := by
  unfold state
  split_ifs with hdeleting hfailed hlater hnow hnow
  · exact .inl rfl
  · exact .inl rfl
  · exact .inl rfl
  · obtain ⟨since, hsince⟩ := exists_waitingSince?_of_isOverdue hlater
    exact .inr ⟨reportedState_of_waitingSince? hsince, rfl⟩
  · exact absurd (h hnow) hlater
  · exact .inl rfl

/-- Readiness is reported, and no passing of time takes it away: a slice that waits is not ready. -/
theorem state_of_isReady (h : (slice.state now timeout).isReady = true) (later : Instant) :
    slice.state later timeout = slice.state now timeout := by
  have hreported : slice.state now timeout = slice.reportedState := by
    unfold state at h ⊢
    split_ifs at h ⊢ <;> first | rfl | exact absurd h (by decide)
  have hwaiting : slice.waitingSince? = none := by
    apply Option.eq_none_iff_forall_ne_some.mpr
    intro since hsince
    rw [hreported, SliceState.isReady_iff] at h
    rcases reportedState_of_waitingSince? hsince with hstate | hstate <;> simp [hstate] at h
  have hpunctual (moment : Instant) : slice.isOverdue moment timeout = false := by
    rw [isOverdue, hwaiting, Option.any_none]
  simp [state, hpunctual]

/-- A state stays as it is in the course of time, except that a slice on its way becomes stale. This
is so exactly for a slice that is neither being deleted nor failed and has waited for longer than
the timeout. A longer timeout makes no slice stale, at whatever moment. -/
theorem state_ages (slice : Slice) :
    (∀ timeout now later, slice.AvoidsLeapSeconds now → slice.AvoidsLeapSeconds later →
      now ≤ later →
        slice.state later timeout = slice.state now timeout ∨
          (slice.state now timeout = .created ∨ slice.state now timeout = .activating) ∧
            slice.state later timeout = .stale) ∧
    (∀ now timeout, slice.AvoidsLeapSeconds now → (slice.state now timeout = .stale ↔
      slice.isDeleting = false ∧ slice.hasFailed = false ∧
        ∃ since, ((∃ condition, slice.ready? = some condition ∧ condition.status = .false ∧
            condition.lastTransitionTime = since) ∨
          (slice.ready? = none ∧ slice.metadata.creationTimestamp = some since)) ∧
          (since.after timeout).before now = true)) ∧
    ∀ now timeout longer, timeout.nanos ≤ longer.nanos →
      slice.state now timeout ≠ .stale → slice.state now longer ≠ .stale := by
  refine ⟨?_, ?_, ?_⟩
  · intro timeout now later hnow hlater htime
    exact state_eq_or_becomes_stale (isOverdue_of_le hnow hlater htime)
  · intro now timeout hnow
    simp only [state_eq_stale_iff, isOverdue_iff hnow, waitingSince?_eq_some_iff]
  · intro now timeout longer htimeout hfresh hstale
    obtain ⟨hkept, hsound, hoverdue⟩ := state_eq_stale_iff.mp hstale
    have hsooner := isOverdue_of_shorter htimeout hoverdue
    exact hfresh (state_eq_stale_iff.mpr ⟨hkept, hsound, hsooner⟩)

namespace Sample

/-- A slice that was created at the beginning of 1970 and has not been reported about. -/
def unreported : Slice :=
  Slice.new { Metadata.named "team-job-workers-0" with creationTimestamp := some (.ofNanos 0) }
    ⟨.tpuV7x, "2x2x1", .empty⟩

theorem unreported_avoidsLeapSeconds (nanos : Int) :
    unreported.AvoidsLeapSeconds (.ofNanos nanos) := by
  refine ⟨Instant.isLeap_ofNanos nanos, fun since hsince ↦ ?_⟩
  cases hsince
  exact Instant.isLeap_ofNanos 0

end Sample

/-- With a timeout of ten minutes the slice is on its way for ten minutes, and stale a nanosecond
later. A timeout of eleven minutes leaves it on its way as well. -/
theorem state_ages_sample :
    Sample.unreported.state (.ofNanos 600000000000) (.ofSeconds 600) = .created ∧
      Sample.unreported.state (.ofNanos 600000000000) (.ofSeconds 660) ≠ .stale ∧
      Sample.unreported.state (.ofNanos 600000000001) (.ofSeconds 600) = .stale := by
  obtain ⟨hages, hstale, hlonger⟩ := state_ages Sample.unreported
  have hclear := Sample.unreported_avoidsLeapSeconds
  have hstart : Sample.unreported.state (.ofNanos 0) (.ofSeconds 600) = .created := by decide
  have hend : Sample.unreported.state (.ofNanos 600000000000) (.ofSeconds 600) = .created := by
    rcases hages (.ofSeconds 600) (.ofNanos 0) (.ofNanos 600000000000) (hclear _) (hclear _)
      (by decide) with hsame | ⟨-, hover⟩
    · exact hsame.trans hstart
    · exact absurd hover (by decide)
  refine ⟨hend, hlonger _ (.ofSeconds 600) _ (by decide) (by simp [hend]), ?_⟩
  exact (hstale _ _ (hclear _)).mpr ⟨rfl, rfl, .ofNanos 0, .inr ⟨rfl, rfl⟩, by decide⟩

/-! ## Leap seconds -/

namespace Sample

/-- A slice that is not ready since a moment. -/
def unready (since : Instant) : Slice :=
  { unreported with
    status := ⟨[⟨Condition.ready, .false, "Provisioning", "", since⟩], none, []⟩ }

end Sample

/-- A slice that waits since a leap second is stale just before midnight and on its way at midnight,
although its time was up before. One that waits since an ordinary moment is stale until a leap
second begins, and on its way in it. -/
theorem rejuvenates_in_leap_seconds :
    (∃ since evening midnight : Instant,
      Time.readStamp? "2026-05-01T12:34:60Z" = some since ∧
      Time.readStamp? "2026-05-01T23:59:59.999Z" = some evening ∧
      Time.readStamp? "2026-05-02T00:00:00Z" = some midnight ∧ evening ≤ midnight ∧
      (Sample.unready since).state evening (.ofSeconds 41100) = .stale ∧
      (since.after (.ofSeconds 41100)).before midnight = true ∧
      (Sample.unready since).state midnight (.ofSeconds 41100) = .activating) ∧
    ∃ since before leap : Instant,
      Time.readStamp? "2026-05-01T12:34:59.5Z" = some since ∧
      Time.readStamp? "2026-05-02T00:00:59.9Z" = some before ∧
      Time.readStamp? "2026-05-02T00:00:60.2Z" = some leap ∧ before ≤ leap ∧
      (Sample.unready since).state before (.ofSeconds 41160) = .stale ∧
      (Sample.unready since).state leap (.ofSeconds 41160) = .activating := by
  refine ⟨⟨⟨1777638899, 1000000000, by decide, by decide⟩, .ofNanos 1777679999999000000,
    .ofNanos 1777680000000000000, ?_⟩, .ofNanos 1777638899500000000, .ofNanos 1777680059900000000,
    ⟨1777680059, 1200000000, by decide, by decide⟩, ?_⟩ <;> decide +kernel

end Slice

end SliceControl
