import SliceControl.Proofs.WorkQueue.Callers

/-!
# Callers in their phases

Every caller is in one phase, just the parked callers stand in line for a signal, and no permit is
kept while a caller is parked. This holds whatever happens: keys are added and the work on them
ends, callers come, go on one at a time, and leave while nothing of theirs is under way.
-/

namespace SliceControl

namespace WorkQueue

/-! ## The line of waiting keys -/

/-- A change puts a new key at the end of the line and says so, or it leaves the line alone. -/
inductive Extends (queue : WorkQueue) (changed : WorkQueue × Bool) : Prop where
  | joined (key : String) (hnew : key ∉ queue.pending) (hflag : changed.2 = true)
      (hpending : changed.1.pending = queue.pending ++ [key])
  | alone (hflag : changed.2 = false) (hpending : changed.1.pending = queue.pending)

variable {queue : WorkQueue}

theorem Consistent.extends_enqueue (h : queue.Consistent) (key : String) :
    queue.Extends (queue.enqueue key) := by
  unfold WorkQueue.enqueue
  split_ifs with hqueued
  · exact .alone rfl rfl
  · exact .joined key (fun hmem ↦ hqueued ((h.queued_iff key).mpr hmem)) rfl rfl

theorem Consistent.extends_add (h : queue.Consistent) (key : String) :
    queue.Extends (queue.add key) := by
  unfold WorkQueue.add
  split_ifs
  · exact .alone rfl rfl
  · exact h.extends_enqueue key

theorem Consistent.extends_done (h : queue.Consistent) (key : String) :
    queue.Extends (queue.done key) := by
  unfold WorkQueue.done
  dsimp only
  split_ifs
  · cases (h.release key).extends_enqueue key with
    | joined new hnew hflag hpending => exact .joined new hnew hflag hpending
    | alone hflag hpending => exact .alone hflag hpending
  · exact .alone rfl rfl

end WorkQueue

open WorkQueue

namespace Dispatch

variable {dispatch next : Dispatch} {caller : Nat} {phase : CallerPhase}

/-! ## Setting a phase -/

@[simp] theorem queue_setPhase : (dispatch.setPhase caller phase).queue = dispatch.queue := rfl

@[simp] theorem permit_setPhase : (dispatch.setPhase caller phase).permit = dispatch.permit := rfl

@[simp] theorem parked_setPhase : (dispatch.setPhase caller phase).parked = dispatch.parked := rfl

@[simp] theorem owed_setPhase : (dispatch.setPhase caller phase).owed = dispatch.owed := rfl

theorem map_fst_callers_setPhase (dispatch : Dispatch) (caller : Nat) (phase : CallerPhase) :
    (dispatch.setPhase caller phase).callers.map Prod.fst = dispatch.callers.map Prod.fst := by
  unfold setPhase
  rw [List.map_map]
  apply List.map_congr_left
  intro entry _
  dsimp only [Function.comp_apply]
  split_ifs with hsame
  · exact hsame.symm
  · rfl

/-- One entry is replaced, and the others, all of other callers, stay where they are. -/
theorem exists_callers_setPhase (hnodup : (dispatch.callers.map Prod.fst).Nodup)
    (hcaller : (caller, phase) ∈ dispatch.callers) :
    ∃ before after, dispatch.callers = before ++ (caller, phase) :: after ∧
      (∀ entry ∈ before ++ after, entry.1 ≠ caller) ∧
      ∀ other, (dispatch.setPhase caller other).callers = before ++ (caller, other) :: after := by
  obtain ⟨before, after, hsplit⟩ := List.append_of_mem hcaller
  rw [hsplit, List.map_append, List.map_cons, List.nodup_middle, List.nodup_cons,
    ← List.map_append] at hnodup
  have hothers : ∀ entry ∈ before ++ after, entry.1 ≠ caller := by
    intro entry hentry hsame
    exact hnodup.1 (List.mem_map.mpr ⟨entry, hentry, hsame⟩)
  have hkeeps : ∀ other, ∀ entry ∈ before ++ after,
      (if entry.1 = caller then (caller, other) else entry) = entry := fun other entry hentry ↦
    if_neg (hothers entry hentry)
  refine ⟨before, after, hsplit, hothers, fun other ↦ ?_⟩
  unfold setPhase
  dsimp only
  rw [hsplit, List.map_append, List.map_cons, if_pos rfl,
    List.map_congr_left fun entry hentry ↦ hkeeps other entry (List.mem_append_left _ hentry),
    List.map_congr_left fun entry hentry ↦ hkeeps other entry (List.mem_append_right _ hentry),
    List.map_id', List.map_id']

theorem mem_callers_setPhase_iff (hnodup : (dispatch.callers.map Prod.fst).Nodup)
    (hcaller : (caller, phase) ∈ dispatch.callers) {other : CallerPhase}
    {entry : Nat × CallerPhase} :
    entry ∈ (dispatch.setPhase caller other).callers ↔
      entry = (caller, other) ∨ entry ∈ dispatch.callers ∧ entry.1 ≠ caller := by
  obtain ⟨before, after, hsplit, hothers, hset⟩ := exists_callers_setPhase hnodup hcaller
  rw [hset, hsplit]
  simp only [List.mem_append, List.mem_cons] at hothers ⊢
  constructor
  · rintro (hbefore | rfl | hafter)
    · exact .inr ⟨.inl hbefore, hothers entry (.inl hbefore)⟩
    · exact .inl rfl
    · exact .inr ⟨.inr (.inr hafter), hothers entry (.inr hafter)⟩
  · rintro (rfl | ⟨hbefore | rfl | hafter, hne⟩)
    · exact .inr (.inl rfl)
    · exact .inl hbefore
    · exact absurd rfl hne
    · exact .inr (.inr hafter)

/-! ## Steps -/

/-- Something that is under way goes on: a signal that is owed is sent, or a caller takes a step. -/
inductive Progress (dispatch next : Dispatch) : Prop where
  | sent (owed : Nat) (howed : dispatch.owed = owed + 1)
      (hnext : next = { dispatch with owed }.signal)
  | handed (caller : Nat) (key : String) (queue : WorkQueue) (more : Bool)
      (hcaller : (caller, .looking) ∈ dispatch.callers)
      (hfound : dispatch.queue.next? = some (key, queue, more))
      (hnext : next = { dispatch with queue }.setPhase caller
        (if more then .signalling key else .served key))
  | foundNone (caller : Nat) (hcaller : (caller, .looking) ∈ dispatch.callers)
      (hempty : dispatch.queue.pending = []) (hnext : next = dispatch.setPhase caller .parking)
  | resumed (caller : Nat) (hcaller : (caller, .parking) ∈ dispatch.callers)
      (hpermit : dispatch.permit = true)
      (hnext : next = { dispatch with permit := false }.setPhase caller .looking)
  | parked (caller : Nat) (hcaller : (caller, .parking) ∈ dispatch.callers)
      (hpermit : dispatch.permit = false)
      (hnext : next =
        { dispatch with parked := dispatch.parked ++ [caller] }.setPhase caller .parked)
  | passedOn (caller : Nat) (key : String) (hcaller : (caller, .signalling key) ∈ dispatch.callers)
      (hnext : next = dispatch.signal.setPhase caller (.served key))

theorem progress_advance (hcaller : (caller, phase) ∈ dispatch.callers)
    (hactive : isActive phase = true) : dispatch.Progress (dispatch.advance caller phase) := by
  cases phase with
  | looking =>
    unfold advance
    dsimp only
    split
    case h_1 key queue more hfound => exact .handed caller key queue more hcaller hfound rfl
    case h_2 hfound => exact .foundNone caller hcaller (next?_eq_none_iff.mp hfound) rfl
  | parking =>
    unfold advance
    split_ifs with hpermit
    · exact .resumed caller hcaller hpermit rfl
    · exact .parked caller hcaller (by simpa using hpermit) rfl
  | signalling key => exact .passedOn caller key hcaller rfl
  | parked => exact absurd hactive Bool.false_ne_true
  | served key => exact absurd hactive Bool.false_ne_true

theorem sendOwed_of_owed_eq_zero (howed : dispatch.owed = 0) : dispatch.sendOwed = dispatch := by
  unfold sendOwed
  rw [howed]

theorem progress_sendOwed (howed : dispatch.owed ≠ 0) :
    dispatch.Progress dispatch.sendOwed := by
  obtain ⟨owed, howed⟩ := Nat.exists_eq_succ_of_ne_zero howed
  refine .sent owed howed ?_
  unfold sendOwed
  rw [howed]

theorem progress_of_step? (hstep : dispatch.step? = some next) : dispatch.Progress next := by
  unfold step? at hstep
  split_ifs at hstep with howed
  · obtain ⟨⟨caller, phase⟩, hfound, rfl⟩ := Option.map_eq_some_iff.mp hstep
    have hactive := List.find?_some hfound
    exact progress_advance (List.mem_of_find?_eq_some hfound) hactive
  · rw [← Option.some.inj hstep]
    exact progress_sendOwed howed

/-- What may happen: callers have numbers of their own, only a caller that is at rest leaves, and a
caller goes on from the phase that it is in. -/
def Admits (dispatch : Dispatch) : Event → Prop
  | .arrive caller => caller ∉ dispatch.callers.map Prod.fst
  | .leave caller => ∃ entry ∈ dispatch.callers, entry.1 = caller ∧ isActive entry.2 = false
  | .advance caller phase => (caller, phase) ∈ dispatch.callers
  | .add _ | .done _ _ | .sendOwed => True

instance (dispatch : Dispatch) (event : Event) : Decidable (dispatch.Admits event) :=
  match event with
  | .arrive _ => inferInstanceAs (Decidable (_ ∉ _))
  | .leave _ => inferInstanceAs (Decidable (∃ _ ∈ _, _))
  | .advance _ _ => inferInstanceAs (Decidable (_ ∈ _))
  | .add _ | .done _ _ | .sendOwed => inferInstanceAs (Decidable True)

/-- What an event can do. -/
inductive Step (dispatch next : Dispatch) : Prop where
  | still (hnext : next = dispatch)
  | arrived (caller : Nat) (hfresh : caller ∉ dispatch.callers.map Prod.fst)
      (hnext : next = dispatch.arrive caller)
  | left (caller : Nat) (phase : CallerPhase) (hcaller : (caller, phase) ∈ dispatch.callers)
      (hidle : isActive phase = false) (hnext : next = dispatch.leave caller)
  | changed (outcome : WorkQueue × Bool) (hconsistent : outcome.1.Consistent)
      (hextends : dispatch.queue.Extends outcome) (hnext : next = dispatch.withQueue outcome)
  | progress (hprogress : dispatch.Progress next)

theorem step_perform (hqueue : dispatch.queue.Consistent) {event : Event}
    (hadmits : dispatch.Admits event) : dispatch.Step (dispatch.perform event) := by
  cases event with
  | arrive caller => exact .arrived caller hadmits rfl
  | leave caller =>
    obtain ⟨⟨_, phase⟩, hcaller, rfl, hidle⟩ := hadmits
    exact .left _ phase hcaller hidle rfl
  | add key => exact .changed _ (hqueue.add key) (hqueue.extends_add key) rfl
  | done caller key => exact .changed _ (hqueue.done key) (hqueue.extends_done key) rfl
  | advance caller phase =>
    by_cases hactive : isActive phase = true
    · exact .progress (progress_advance hadmits hactive)
    · refine .still ?_
      cases phase <;> first | rfl | exact absurd rfl hactive
  | sendOwed =>
    by_cases howed : dispatch.owed = 0
    · exact .still (sendOwed_of_owed_eq_zero howed)
    · exact .progress (progress_sendOwed howed)

/-! ## Consistency -/

/-- What holds of the callers. -/
structure Consistent (dispatch : Dispatch) : Prop where
  queue : dispatch.queue.Consistent
  nodup : (dispatch.callers.map Prod.fst).Nodup
  nodup_parked : dispatch.parked.Nodup
  mem_parked_iff : ∀ caller, caller ∈ dispatch.parked ↔ (caller, .parked) ∈ dispatch.callers
  parked_of_permit : dispatch.permit = true → dispatch.parked = []

theorem consistent_empty : empty.Consistent where
  queue := WorkQueue.consistent_empty
  nodup := List.nodup_nil
  nodup_parked := List.nodup_nil
  mem_parked_iff := by simp [empty]
  parked_of_permit := fun _ ↦ rfl

namespace Consistent

theorem eq_phase (h : dispatch.Consistent) {other : CallerPhase}
    (hphase : (caller, phase) ∈ dispatch.callers) (hother : (caller, other) ∈ dispatch.callers) :
    other = phase := by
  obtain ⟨before, after, hsplit, hothers, -⟩ := exists_callers_setPhase h.nodup hphase
  rw [hsplit] at hother
  simp only [List.mem_append, List.mem_cons] at hother hothers
  rcases hother with hbefore | hsame | hafter
  · exact absurd rfl (hothers _ (.inl hbefore))
  · exact congrArg Prod.snd hsame
  · exact absurd rfl (hothers _ (.inr hafter))

/-- A caller may change its phase if it stands in line just while it is parked. -/
theorem setPhase (h : dispatch.Consistent) {changed : Dispatch} {other : CallerPhase}
    (hcaller : (caller, phase) ∈ dispatch.callers) (hcallers : changed.callers = dispatch.callers)
    (hqueue : changed.queue.Consistent) (hnodup : changed.parked.Nodup)
    (hparked : ∀ line, line ∈ changed.parked ↔
      (line = caller ∧ other = .parked) ∨ (line ∈ dispatch.parked ∧ line ≠ caller))
    (hpermit : changed.permit = true → changed.parked = []) :
    (changed.setPhase caller other).Consistent where
  queue := hqueue
  nodup := by
    rw [map_fst_callers_setPhase, hcallers]
    exact h.nodup
  nodup_parked := hnodup
  mem_parked_iff := by
    intro line
    have hmem : (line, .parked) ∈ (changed.setPhase caller other).callers ↔
        (line, .parked) = (caller, other) ∨ (line, .parked) ∈ dispatch.callers ∧ line ≠ caller := by
      rw [← hcallers] at hcaller ⊢
      exact mem_callers_setPhase_iff (hcallers ▸ h.nodup) hcaller
    rw [hmem, parked_setPhase, hparked, h.mem_parked_iff, Prod.mk.injEq]
    exact or_congr_left (and_congr_right fun _ ↦ eq_comm)
  parked_of_permit := hpermit

/-- A caller that is not parked does not stand in line. -/
theorem not_mem_parked (h : dispatch.Consistent) (hcaller : (caller, phase) ∈ dispatch.callers)
    (hphase : phase ≠ .parked) : caller ∉ dispatch.parked := by
  intro hline
  exact hphase (h.eq_phase ((h.mem_parked_iff caller).mp hline) hcaller)

/-- A caller that neither is nor will be parked may change its phase. -/
theorem setPhase_of_ne (h : dispatch.Consistent) {changed : Dispatch} {other : CallerPhase}
    (hcaller : (caller, phase) ∈ dispatch.callers) (hcallers : changed.callers = dispatch.callers)
    (hqueue : changed.queue.Consistent) (hparked : changed.parked = dispatch.parked)
    (hpermit : changed.permit = true → dispatch.permit = true) (hphase : phase ≠ .parked)
    (hother : other ≠ .parked) : (changed.setPhase caller other).Consistent := by
  refine h.setPhase hcaller hcallers hqueue (hparked ▸ h.nodup_parked) (fun line ↦ ?_)
    fun hkept ↦ ?_
  · rw [hparked]
    constructor
    · intro hline
      refine .inr ⟨hline, ?_⟩
      rintro rfl
      exact h.not_mem_parked hcaller hphase hline
    · rintro (⟨-, hsame⟩ | ⟨hline, -⟩)
      · exact absurd hsame hother
      · exact hline
  · rw [hparked]
    exact h.parked_of_permit (hpermit hkept)

/-- A signal leaves a permit, or it wakes the caller that has been parked longest. -/
theorem signal_cases (h : dispatch.Consistent) :
    (dispatch.parked = [] ∧ dispatch.signal = { dispatch with permit := true }) ∨
      ∃ woken rest, dispatch.parked = woken :: rest ∧ (woken, .parked) ∈ dispatch.callers ∧
        dispatch.signal = { dispatch with parked := rest }.setPhase woken .looking := by
  unfold Dispatch.signal
  cases hparked : dispatch.parked with
  | nil => exact .inl ⟨rfl, rfl⟩
  | cons woken rest =>
    have hwoken : woken ∈ dispatch.parked := hparked ▸ List.mem_cons_self
    exact .inr ⟨woken, rest, rfl, (h.mem_parked_iff woken).mp hwoken, rfl⟩

theorem signal (h : dispatch.Consistent) : dispatch.signal.Consistent := by
  rcases h.signal_cases with ⟨hparked, hsignal⟩ | ⟨woken, rest, hparked, hwoken, hsignal⟩
  · rw [hsignal]
    exact ⟨h.queue, h.nodup, h.nodup_parked, h.mem_parked_iff, fun _ ↦ hparked⟩
  · have hnodup := h.nodup_parked
    rw [hparked] at hnodup
    obtain ⟨hgone, hrest⟩ := List.nodup_cons.mp hnodup
    rw [hsignal]
    refine h.setPhase hwoken rfl h.queue hrest (fun line ↦ ?_) fun hpermit ↦ ?_
    · rw [hparked, List.mem_cons]
      constructor
      · intro hline
        exact .inr ⟨.inr hline, fun hsame ↦ hgone (hsame ▸ hline)⟩
      · rintro (⟨-, hsame⟩ | ⟨hline, hne⟩)
        · cases hsame
        · exact hline.resolve_left hne
    · have hnone := h.parked_of_permit hpermit
      rw [hparked] at hnone
      cases hnone

/-- A signal concerns none but a parked caller. -/
theorem mem_callers_signal (h : dispatch.Consistent) {entry : Nat × CallerPhase}
    (hentry : entry ∈ dispatch.callers) (hphase : entry.2 ≠ .parked) :
    entry ∈ dispatch.signal.callers := by
  rcases h.signal_cases with ⟨-, hsignal⟩ | ⟨woken, rest, -, hwoken, hsignal⟩
  · rw [hsignal]
    exact hentry
  · rw [hsignal]
    refine (mem_callers_setPhase_iff h.nodup hwoken).mpr (.inr ⟨hentry, ?_⟩)
    rintro rfl
    exact hphase (h.eq_phase hwoken hentry)

theorem withOwed (h : dispatch.Consistent) (owed : Nat) : { dispatch with owed }.Consistent :=
  ⟨h.queue, h.nodup, h.nodup_parked, h.mem_parked_iff, h.parked_of_permit⟩

theorem arrive (h : dispatch.Consistent) (hfresh : caller ∉ dispatch.callers.map Prod.fst) :
    (dispatch.arrive caller).Consistent where
  queue := h.queue
  nodup := by
    unfold Dispatch.arrive
    rw [List.map_append]
    exact h.nodup.append (List.nodup_singleton caller) (List.disjoint_singleton.mpr hfresh)
  nodup_parked := h.nodup_parked
  mem_parked_iff := by
    intro line
    unfold Dispatch.arrive
    rw [List.mem_append, h.mem_parked_iff line]
    simp
  parked_of_permit := h.parked_of_permit

theorem leave (h : dispatch.Consistent) (caller : Nat) : (dispatch.leave caller).Consistent where
  queue := h.queue
  nodup := h.nodup.sublist (List.filter_sublist.map Prod.fst)
  nodup_parked := h.nodup_parked.filter _
  mem_parked_iff := by
    intro line
    unfold Dispatch.leave
    rw [List.mem_filter, List.mem_filter, h.mem_parked_iff line]
  parked_of_permit := by
    intro hpermit
    unfold Dispatch.leave
    rw [h.parked_of_permit hpermit]
    rfl

theorem progress (h : dispatch.Consistent) (hprogress : dispatch.Progress next) :
    next.Consistent := by
  cases hprogress with
  | sent owed howed hnext =>
    rw [hnext]
    exact (h.withOwed owed).signal
  | handed caller key queue more hcaller hfound hnext =>
    rw [hnext]
    refine h.setPhase_of_ne hcaller rfl (h.queue.next? hfound) rfl id (by simp) ?_
    split_ifs <;> simp
  | foundNone caller hcaller hempty hnext =>
    rw [hnext]
    exact h.setPhase_of_ne hcaller rfl h.queue rfl id (by simp) (by simp)
  | resumed caller hcaller hpermit hnext =>
    rw [hnext]
    exact h.setPhase_of_ne hcaller rfl h.queue rfl (by simp) (by simp) (by simp)
  | parked caller hcaller hpermit hnext =>
    have hline : caller ∉ dispatch.parked := h.not_mem_parked hcaller (by simp)
    rw [hnext]
    refine h.setPhase hcaller rfl h.queue ?_ (fun line ↦ ?_) fun hkept ↦ ?_
    · exact h.nodup_parked.append (List.nodup_singleton caller) (List.disjoint_singleton.mpr hline)
    · rw [List.mem_append, List.mem_singleton]
      constructor
      · rintro (hbefore | rfl)
        · exact .inr ⟨hbefore, fun hsame ↦ hline (hsame ▸ hbefore)⟩
        · exact .inl ⟨rfl, rfl⟩
      · rintro (⟨rfl, -⟩ | ⟨hbefore, -⟩)
        · exact .inr rfl
        · exact .inl hbefore
    · rw [hpermit] at hkept
      cases hkept
  | passedOn caller key hcaller hnext =>
    rw [hnext]
    have hstill := h.mem_callers_signal hcaller (by simp)
    exact h.signal.setPhase_of_ne hstill rfl h.signal.queue rfl id (by simp) (by simp)

theorem step (h : dispatch.Consistent) (hstep : dispatch.Step next) : next.Consistent := by
  cases hstep with
  | still hnext => exact hnext ▸ h
  | arrived caller hfresh hnext => exact hnext ▸ h.arrive hfresh
  | left caller phase hcaller hidle hnext => exact hnext ▸ h.leave caller
  | changed outcome hconsistent hextends hnext =>
    rw [hnext]
    exact ⟨hconsistent, h.nodup, h.nodup_parked, h.mem_parked_iff, h.parked_of_permit⟩
  | progress hprogress => exact h.progress hprogress

end Consistent

end Dispatch

end SliceControl
