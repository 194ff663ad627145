import SliceControl.Proofs.WorkQueue.Phases

/-!
# Coming to rest

Callers go on only for so long. Whenever a caller takes a step or an owed signal is sent, there is
less left to do, since a caller that looks again has used up a permit or a signal, and one that
passes a signal on has taken a key. The bound on the steps covers all that is left, so that nothing
is under way once the callers have settled.
-/

namespace SliceControl.Dispatch

variable {dispatch next : Dispatch} {caller : Nat} {phase : CallerPhase}

/-- Every operation has completed or is parked. -/
def AtRest (dispatch : Dispatch) : Prop :=
  dispatch.owed = 0 ∧ ∀ entry ∈ dispatch.callers, isActive entry.2 = false

instance (dispatch : Dispatch) : Decidable dispatch.AtRest := inferInstanceAs (Decidable (_ ∧ _))

theorem step?_eq_none_iff : dispatch.step? = none ↔ dispatch.AtRest := by
  unfold step? AtRest
  split_ifs with howed <;> simp [howed]

/-! ## What is left to do -/

/-- What is left to do for a caller. One that looks may yet have to park, and the signal that is
passed on may wake a caller that looks. -/
def remaining : CallerPhase → Nat
  | .looking => 2
  | .parking => 1
  | .signalling _ => 3
  | .parked | .served _ => 0

def callerWork : List (Nat × CallerPhase) → Nat
  | [] => 0
  | entry :: rest => remaining entry.2 + callerWork rest

/-- What is left to do. A signal that is owed leaves a permit or wakes a caller, a permit lets a
caller look again, and a key lets one pass a signal on. -/
def work (dispatch : Dispatch) : Nat :=
  callerWork dispatch.callers + 3 * dispatch.owed + 2 * dispatch.permit.toNat +
    2 * dispatch.queue.pending.length

theorem remaining_le (phase : CallerPhase) : remaining phase ≤ 3 := by
  cases phase <;> simp [remaining]

theorem callerWork_le (callers : List (Nat × CallerPhase)) :
    callerWork callers ≤ 3 * callers.length := by
  induction callers with
  | nil => exact Nat.zero_le _
  | cons entry rest ih =>
    have hfirst := remaining_le entry.2
    simp only [callerWork, List.length_cons]
    omega

theorem callerWork_append (before after : List (Nat × CallerPhase)) :
    callerWork (before ++ after) = callerWork before + callerWork after := by
  induction before with
  | nil => simp [callerWork]
  | cons entry rest ih =>
    simp only [List.cons_append, callerWork, ih]
    omega

theorem work_le_stepBound (dispatch : Dispatch) : dispatch.work ≤ dispatch.stepBound := by
  have hcallers := callerWork_le dispatch.callers
  have hpermit := dispatch.permit.toNat_le
  calc dispatch.work
      ≤ 4 * (dispatch.callers.length + dispatch.queue.size + dispatch.owed + 2) := by
        unfold work WorkQueue.size
        omega
    _ ≤ dispatch.stepBound := Nat.le_mul_of_pos_right _ (Nat.succ_pos _)

/-! ## Less and less -/

theorem work_setPhase (dispatch : Dispatch) (hnodup : (dispatch.callers.map Prod.fst).Nodup)
    (hcaller : (caller, phase) ∈ dispatch.callers) (other : CallerPhase) :
    (dispatch.setPhase caller other).work + remaining phase =
      dispatch.work + remaining other := by
  obtain ⟨before, after, hsplit, -, hset⟩ := exists_callers_setPhase hnodup hcaller
  simp only [work, hset, hsplit, callerWork_append, callerWork, queue_setPhase, permit_setPhase,
    owed_setPhase]
  omega

theorem Consistent.work_signal_le (h : dispatch.Consistent) :
    dispatch.signal.work ≤ dispatch.work + 2 := by
  rcases h.signal_cases with ⟨-, hsignal⟩ | ⟨woken, rest, -, hwoken, hsignal⟩
  · rw [hsignal]
    simp only [work, Bool.toNat_true]
    omega
  · rw [hsignal]
    exact Nat.le_of_eq (work_setPhase { dispatch with parked := rest } h.nodup hwoken .looking)

/-- With every step there is less left to do. -/
theorem Consistent.work_lt (h : dispatch.Consistent) (hprogress : dispatch.Progress next) :
    next.work < dispatch.work := by
  cases hprogress with
  | sent owed howed hnext =>
    have hsignal := (h.withOwed owed).work_signal_le
    have hsent : { dispatch with owed }.work + 3 = dispatch.work := by
      simp only [work, howed]
      omega
    rw [hnext]
    omega
  | handed caller key queue more hcaller hfound hnext =>
    have hset := work_setPhase { dispatch with queue } h.nodup hcaller
      (if more then .signalling key else .served key)
    have htaken : { dispatch with queue }.work + 2 = dispatch.work := by
      obtain ⟨rest, hpending, -, rfl⟩ := WorkQueue.next?_eq_some_iff.mp hfound
      simp only [work, hpending, List.length_cons]
      omega
    have hleft := remaining_le (if more then .signalling key else .served key)
    have hlooking : remaining .looking = 2 := rfl
    rw [hnext]
    omega
  | foundNone caller hcaller hempty hnext =>
    have hset := work_setPhase dispatch h.nodup hcaller .parking
    rw [hnext]
    simp only [remaining] at hset
    omega
  | resumed caller hcaller hpermit hnext =>
    have hset := work_setPhase { dispatch with permit := false } h.nodup hcaller .looking
    have htaken : { dispatch with permit := false }.work + 2 = dispatch.work := by
      simp only [work, hpermit, Bool.toNat_true, Bool.toNat_false]
      omega
    rw [hnext]
    simp only [remaining] at hset
    omega
  | parked caller hcaller hpermit hnext =>
    have hset := work_setPhase { dispatch with parked := dispatch.parked ++ [caller] } h.nodup
      hcaller .parked
    have hsame : { dispatch with parked := dispatch.parked ++ [caller] }.work = dispatch.work := rfl
    rw [hnext]
    simp only [remaining] at hset
    omega
  | passedOn caller key hcaller hnext =>
    have hstill := h.mem_callers_signal hcaller (by simp)
    have hset := work_setPhase dispatch.signal h.signal.nodup hstill (.served key)
    have hsignal := h.work_signal_le
    rw [hnext]
    simp only [remaining] at hset
    omega

/-! ## At rest -/

/-- Settling does only what may happen. -/
theorem exists_admits_of_step? (hstep : dispatch.step? = some next) :
    ∃ event, dispatch.Admits event ∧ dispatch.perform event = next := by
  unfold step? at hstep
  split_ifs at hstep
  · obtain ⟨⟨caller, phase⟩, hfound, hnext⟩ := Option.map_eq_some_iff.mp hstep
    exact ⟨.advance caller phase, List.mem_of_find?_eq_some hfound, hnext⟩
  · exact ⟨.sendOwed, trivial, Option.some.inj hstep⟩

theorem Consistent.atRest_runSteps (h : dispatch.Consistent) {fuel : Nat}
    (hfuel : dispatch.work ≤ fuel) : (dispatch.runSteps fuel).AtRest := by
  induction fuel generalizing dispatch with
  | zero =>
    cases hstep : dispatch.step? with
    | none => exact step?_eq_none_iff.mp hstep
    | some next =>
      have hless := h.work_lt (progress_of_step? hstep)
      omega
  | succ fuel ih =>
    unfold runSteps
    cases hstep : dispatch.step? with
    | none => exact step?_eq_none_iff.mp hstep
    | some next =>
      have hprogress := progress_of_step? hstep
      have hless := h.work_lt hprogress
      exact ih (h.progress hprogress) (by omega)

/-- Callers that settle come to rest. -/
theorem Consistent.atRest_settle (h : dispatch.Consistent) : dispatch.settle.AtRest :=
  h.atRest_runSteps dispatch.work_le_stepBound

end SliceControl.Dispatch
