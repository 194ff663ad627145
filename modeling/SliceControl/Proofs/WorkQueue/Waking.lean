import SliceControl.Proofs.WorkQueue.Settling

/-!
# Waking the callers

At most one permit is kept, so that several signals may come down to one, and a caller that finds a
key at its first look leaves a permit unused. Nevertheless no key waits unnoticed: there is a permit
for the next caller that is about to park, or something is under way that will look for the key or
send another signal, or there is nobody to wake. The signal that a caller passes on keeps this up.
-/

namespace SliceControl.Dispatch

variable {dispatch next : Dispatch} {caller : Nat} {phase : CallerPhase}

/-- A caller in this phase has found no key and has not been woken since. -/
def isWaiting : CallerPhase → Bool
  | .parking | .parked => true
  | .looking | .signalling _ | .served _ => false

/-- A caller in this phase will look into the queue or send a signal. -/
def isStirring : CallerPhase → Bool
  | .looking | .signalling _ => true
  | .parking | .parked | .served _ => false

theorem isActive_of_isStirring (hstirring : isStirring phase = true) : isActive phase = true := by
  cases phase <;> first | rfl | cases hstirring

/-- A waiting key finds a permit, a signal or a caller on its way, or nobody to wake. -/
inductive Notices (dispatch : Dispatch) : Prop where
  | empty (hempty : dispatch.queue.pending = [])
  | permit (hpermit : dispatch.permit = true)
  | owed (howed : 0 < dispatch.owed)
  | stirring (caller : Nat) (phase : CallerPhase) (hcaller : (caller, phase) ∈ dispatch.callers)
      (hstirring : isStirring phase = true)
  | nobody (hnobody : ∀ entry ∈ dispatch.callers, isWaiting entry.2 = false)

/-- A signal is noticed. -/
theorem Consistent.notices_signal (h : dispatch.Consistent) :
    dispatch.signal.permit = true ∨ ∃ woken,
      (woken, .looking) ∈ dispatch.signal.callers ∧ (woken, .parked) ∈ dispatch.callers := by
  rcases h.signal_cases with ⟨-, hsignal⟩ | ⟨woken, rest, -, hwoken, hsignal⟩
  · rw [hsignal]
    exact .inl rfl
  · rw [hsignal]
    exact .inr ⟨woken, (mem_callers_setPhase_iff h.nodup hwoken).mpr (.inl rfl), hwoken⟩

theorem mem_callers_setPhase_self (hnodup : (dispatch.callers.map Prod.fst).Nodup)
    (hcaller : (caller, phase) ∈ dispatch.callers) (other : CallerPhase) :
    (caller, other) ∈ (dispatch.setPhase caller other).callers :=
  (mem_callers_setPhase_iff hnodup hcaller).mpr (.inl rfl)

theorem Notices.progress (hnotices : dispatch.Notices) (h : dispatch.Consistent)
    (hprogress : dispatch.Progress next) : next.Notices := by
  cases hprogress with
  | sent owed howed hnext =>
    rw [hnext]
    rcases (h.withOwed owed).notices_signal with hpermit | ⟨woken, hlooking, -⟩
    · exact .permit hpermit
    · exact .stirring woken .looking hlooking rfl
  | handed caller key queue more hcaller hfound hnext =>
    have hself := mem_callers_setPhase_self h.nodup hcaller
      (if more then .signalling key else .served key)
    obtain ⟨rest, hpending, hmore, hqueue⟩ := WorkQueue.next?_eq_some_iff.mp hfound
    rw [hnext]
    cases more with
    | true => exact .stirring caller (.signalling key) hself rfl
    | false =>
      refine .empty ?_
      rw [queue_setPhase, hqueue]
      simpa using hmore
  | foundNone caller hcaller hempty hnext =>
    rw [hnext]
    exact .empty hempty
  | resumed caller hcaller hpermit hnext =>
    rw [hnext]
    exact .stirring caller .looking (mem_callers_setPhase_self h.nodup hcaller .looking) rfl
  | parked caller hcaller hpermit hnext =>
    rw [hnext]
    cases hnotices with
    | empty hempty => exact .empty hempty
    | permit hkept =>
      rw [hpermit] at hkept
      cases hkept
    | owed howed => exact .owed howed
    | stirring other phase hother hstirring =>
      refine .stirring other phase ((mem_callers_setPhase_iff h.nodup hcaller).mpr ?_) hstirring
      refine .inr ⟨hother, ?_⟩
      rintro rfl
      rw [h.eq_phase hcaller hother] at hstirring
      cases hstirring
    | nobody hnobody => cases hnobody _ hcaller
  | passedOn caller key hcaller hnext =>
    have hstill := h.mem_callers_signal hcaller (by simp)
    rw [hnext]
    rcases h.notices_signal with hpermit | ⟨woken, hlooking, hwoken⟩
    · exact .permit hpermit
    · refine .stirring woken .looking ?_ rfl
      refine (mem_callers_setPhase_iff h.signal.nodup hstill).mpr (.inr ⟨hlooking, ?_⟩)
      rintro rfl
      cases h.eq_phase hwoken hcaller

theorem Notices.leave (hnotices : dispatch.Notices) (h : dispatch.Consistent)
    (hcaller : (caller, phase) ∈ dispatch.callers) (hidle : isActive phase = false) :
    (dispatch.leave caller).Notices := by
  cases hnotices with
  | empty hempty => exact .empty hempty
  | permit hpermit => exact .permit hpermit
  | owed howed => exact .owed howed
  | stirring other current hother hstirring =>
    refine .stirring other current (List.mem_filter.mpr ⟨hother, ?_⟩) hstirring
    rw [decide_eq_true_eq]
    rintro rfl
    obtain rfl := h.eq_phase hcaller hother
    rw [isActive_of_isStirring hstirring] at hidle
    cases hidle
  | nobody hnobody => exact .nobody fun entry hentry ↦ hnobody entry (List.mem_filter.mp hentry).1

theorem Notices.step (hnotices : dispatch.Notices) (h : dispatch.Consistent)
    (hstep : dispatch.Step next) : next.Notices := by
  cases hstep with
  | still hnext => exact hnext ▸ hnotices
  | arrived caller hfresh hnext =>
    rw [hnext]
    exact .stirring caller .looking (List.mem_append_right _ (List.mem_singleton.mpr rfl)) rfl
  | left caller phase hcaller hidle hnext => exact hnext ▸ hnotices.leave h hcaller hidle
  | changed outcome hconsistent hextends hnext =>
    rw [hnext]
    cases hextends with
    | joined key hnew hflag hpending =>
      refine .owed ?_
      unfold withQueue
      rw [if_pos hflag]
      exact Nat.succ_pos _
    | alone hflag hpending =>
      cases hnotices with
      | empty hempty => exact .empty (hpending.trans hempty)
      | permit hpermit => exact .permit hpermit
      | owed howed =>
        refine .owed ?_
        unfold withQueue
        rw [hflag]
        exact howed
      | stirring other phase hother hstirring => exact .stirring other phase hother hstirring
      | nobody hnobody => exact .nobody hnobody
  | progress hprogress => exact hnotices.progress h hprogress

/-- Once everything is at rest, no caller is parked while a key waits. -/
theorem Notices.not_parked (hnotices : dispatch.Notices) (h : dispatch.Consistent)
    (hrest : dispatch.AtRest) {key : String} (hkey : key ∈ dispatch.queue.pending) (caller : Nat) :
    (caller, .parked) ∉ dispatch.callers := by
  intro hparked
  cases hnotices with
  | empty hempty =>
    rw [hempty] at hkey
    exact absurd hkey List.not_mem_nil
  | permit hpermit =>
    have hline := (h.mem_parked_iff caller).mpr hparked
    rw [h.parked_of_permit hpermit] at hline
    exact absurd hline List.not_mem_nil
  | owed howed => exact absurd hrest.1 (Nat.ne_of_gt howed)
  | stirring other phase hother hstirring =>
    have hidle : isActive phase = false := hrest.2 _ hother
    rw [isActive_of_isStirring hstirring] at hidle
    cases hidle
  | nobody hnobody => cases hnobody _ hparked

end SliceControl.Dispatch
