import SliceControl.Proofs.WorkQueue.Phases

/-!
# First come, first served

Keys are handed out in the order in which they were put in line: whatever happens, the line before
and the keys that join it are the keys that are handed out and the line after.
-/

namespace SliceControl.Dispatch

variable {dispatch next : Dispatch} {caller : Nat} {phase : CallerPhase}

/-- The key that a caller in this phase has taken. -/
def taken? : CallerPhase → Option String
  | .signalling key | .served key => some key
  | .looking | .parking | .parked => none

/-- A caller with the key that it has taken. -/
def holder? (entry : Nat × CallerPhase) : Option (Nat × String) :=
  (taken? entry.2).map (entry.1, ·)

/-- The callers that have taken a key, each with its key. -/
def holders (dispatch : Dispatch) : List (Nat × String) := dispatch.callers.filterMap holder?

/-- The keys that are put in line between two states. -/
def joining (dispatch next : Dispatch) : List String :=
  next.queue.pending.filter (· ∉ dispatch.queue.pending)

/-- The keys that are handed out between two states, each with its caller. -/
def handing (dispatch next : Dispatch) : List (Nat × String) :=
  next.holders.filter (· ∉ dispatch.holders)

theorem mem_holders_iff {key : String} : (caller, key) ∈ dispatch.holders ↔
    ∃ phase, (caller, phase) ∈ dispatch.callers ∧ taken? phase = some key := by
  simp [holders, holder?]

theorem joining_eq_nil (hpending : next.queue.pending ⊆ dispatch.queue.pending) :
    joining dispatch next = [] :=
  List.filter_eq_nil_iff.mpr fun key hkey ↦ by simpa using hpending hkey

theorem handing_eq_nil (hholders : next.holders ⊆ dispatch.holders) :
    handing dispatch next = [] :=
  List.filter_eq_nil_iff.mpr fun holder hholder ↦ by simpa using hholders hholder

theorem holders_subset (hkept : ∀ caller phase key, taken? phase = some key →
    (caller, phase) ∈ next.callers → (caller, phase) ∈ dispatch.callers) :
    next.holders ⊆ dispatch.holders := by
  rintro ⟨holder, key⟩ hholder
  obtain ⟨phase, hphase, hkey⟩ := mem_holders_iff.mp hholder
  exact mem_holders_iff.mpr ⟨phase, hkept holder phase key hkey hphase, hkey⟩

theorem holders_setPhase_subset (dispatch : Dispatch)
    (hnodup : (dispatch.callers.map Prod.fst).Nodup) (hcaller : (caller, phase) ∈ dispatch.callers)
    {other : CallerPhase} (htaken : ∀ key, taken? other = some key → taken? phase = some key) :
    (dispatch.setPhase caller other).holders ⊆ dispatch.holders := by
  rintro ⟨holder, key⟩ hholder
  obtain ⟨current, hcurrent, hkey⟩ := mem_holders_iff.mp hholder
  rcases (mem_callers_setPhase_iff hnodup hcaller).mp hcurrent with hsame | ⟨hbefore, -⟩
  · obtain ⟨rfl, rfl⟩ := Prod.mk.inj hsame
    exact mem_holders_iff.mpr ⟨phase, hcaller, htaken key hkey⟩
  · exact mem_holders_iff.mpr ⟨current, hbefore, hkey⟩

theorem Consistent.holders_signal_subset (h : dispatch.Consistent) :
    dispatch.signal.holders ⊆ dispatch.holders := by
  rcases h.signal_cases with ⟨-, hsignal⟩ | ⟨woken, rest, -, hwoken, hsignal⟩
  · rw [hsignal]
    exact List.Subset.refl _
  · rw [hsignal]
    exact holders_setPhase_subset { dispatch with parked := rest } h.nodup hwoken (by simp [taken?])

/-- What the line was, together with the keys that join it, is what is handed out and what the line
is afterwards. -/
def KeepsOrder (dispatch next : Dispatch) : Prop :=
  dispatch.queue.pending ++ joining dispatch next =
    (handing dispatch next).map Prod.snd ++ next.queue.pending

theorem keepsOrder_of_same (hpending : next.queue.pending = dispatch.queue.pending)
    (hholders : next.holders ⊆ dispatch.holders) : dispatch.KeepsOrder next := by
  unfold KeepsOrder
  rw [handing_eq_nil hholders, joining_eq_nil (hpending ▸ List.Subset.refl _), hpending]
  simp

/-- A caller that takes a key is the only one to which a key is handed out. -/
theorem Consistent.handing_setPhase (h : dispatch.Consistent) {changed : Dispatch} {key : String}
    (hcallers : changed.callers = dispatch.callers)
    (hcaller : (caller, .looking) ∈ dispatch.callers) {other : CallerPhase}
    (htaken : taken? other = some key) :
    handing dispatch (changed.setPhase caller other) = [(caller, key)] := by
  obtain ⟨before, after, hsplit, hothers, hset⟩ :=
    exists_callers_setPhase (hcallers ▸ h.nodup) (hcallers ▸ hcaller)
  rw [hcallers] at hsplit
  have hself : holder? (caller, other) = some (caller, key) := by
    unfold holder?
    rw [htaken]
    rfl
  have hbefore : dispatch.holders = before.filterMap holder? ++ after.filterMap holder? := by
    unfold holders
    rw [hsplit, List.filterMap_append, List.filterMap_cons_none rfl]
  have hafter : (changed.setPhase caller other).holders =
      before.filterMap holder? ++ (caller, key) :: after.filterMap holder? := by
    unfold holders
    rw [hset, List.filterMap_append, List.filterMap_cons_some hself]
  have hnew : (caller, key) ∉ dispatch.holders := by
    rw [hbefore, ← List.filterMap_append]
    intro hholder
    obtain ⟨entry, hentry, hread⟩ := List.mem_filterMap.mp hholder
    obtain ⟨_, -, hsame⟩ := Option.map_eq_some_iff.mp hread
    exact hothers entry hentry (congrArg Prod.fst hsame)
  have hkept : ∀ part, part ⊆ dispatch.holders → part.filter (· ∉ dispatch.holders) = [] :=
    fun part hpart ↦ List.filter_eq_nil_iff.mpr fun holder hholder ↦ by simpa using hpart hholder
  unfold handing
  rw [hafter, List.filter_append, List.filter_cons_of_pos (by simpa using hnew),
    hkept _ (hbefore ▸ List.subset_append_left _ _),
    hkept _ (hbefore ▸ List.subset_append_right _ _), List.nil_append]

theorem Consistent.keepsOrder_progress (h : dispatch.Consistent)
    (hprogress : dispatch.Progress next) : dispatch.KeepsOrder next := by
  cases hprogress with
  | sent owed howed hnext =>
    rw [hnext]
    exact keepsOrder_of_same (congrArg WorkQueue.pending (queue_signal _))
      (h.withOwed owed).holders_signal_subset
  | handed caller key queue more hcaller hfound hnext =>
    obtain ⟨rest, hpending, -, hqueue⟩ := WorkQueue.next?_eq_some_iff.mp hfound
    have htaken : taken? (if more then .signalling key else .served key) = some key := by
      split_ifs <;> rfl
    have hpendingNext : next.queue.pending = rest := by
      rw [hnext, queue_setPhase, hqueue]
    have hjoining : joining dispatch next = [] := by
      refine joining_eq_nil ?_
      rw [hpendingNext, hpending]
      exact List.subset_cons_self key rest
    have hhanding : handing dispatch next = [(caller, key)] := by
      rw [hnext]
      exact h.handing_setPhase rfl hcaller htaken
    unfold KeepsOrder
    rw [hjoining, hhanding, hpendingNext, hpending]
    simp
  | foundNone caller hcaller hempty hnext =>
    rw [hnext]
    exact keepsOrder_of_same rfl
      (holders_setPhase_subset dispatch h.nodup hcaller (by simp [taken?]))
  | resumed caller hcaller hpermit hnext =>
    rw [hnext]
    exact keepsOrder_of_same rfl
      (holders_setPhase_subset { dispatch with permit := false } h.nodup hcaller (by simp [taken?]))
  | parked caller hcaller hpermit hnext =>
    rw [hnext]
    exact keepsOrder_of_same rfl (holders_setPhase_subset
      { dispatch with parked := dispatch.parked ++ [caller] } h.nodup hcaller (by simp [taken?]))
  | passedOn caller key hcaller hnext =>
    have hstill := h.mem_callers_signal hcaller (by simp)
    have hserved := holders_setPhase_subset dispatch.signal h.signal.nodup hstill
      (show ∀ taken, taken? (.served key) = some taken → taken? (.signalling key) = some taken from
        fun _ ↦ id)
    rw [hnext]
    exact keepsOrder_of_same (congrArg WorkQueue.pending (queue_signal _))
      (List.Subset.trans hserved h.holders_signal_subset)

theorem Consistent.keepsOrder (h : dispatch.Consistent) (hstep : dispatch.Step next) :
    dispatch.KeepsOrder next := by
  cases hstep with
  | still hnext =>
    rw [hnext]
    exact keepsOrder_of_same rfl (List.Subset.refl _)
  | arrived caller hfresh hnext =>
    rw [hnext]
    refine keepsOrder_of_same rfl (holders_subset fun other phase key htaken hother ↦ ?_)
    rcases List.mem_append.mp hother with hbefore | hself
    · exact hbefore
    · obtain ⟨-, rfl⟩ := Prod.mk.inj (List.mem_singleton.mp hself)
      cases htaken
  | left caller phase hcaller hidle hnext =>
    rw [hnext]
    exact keepsOrder_of_same rfl (holders_subset fun _ _ _ _ hother ↦ (List.mem_filter.mp hother).1)
  | changed outcome hconsistent hextends hnext =>
    have hholders : next.holders ⊆ dispatch.holders := hnext ▸ List.Subset.refl _
    have hqueue : next.queue = outcome.1 := hnext ▸ rfl
    cases hextends with
    | joined key hnew hflag hpending =>
      unfold KeepsOrder joining
      rw [handing_eq_nil hholders, hqueue, hpending]
      simp [hnew]
    | alone hflag hpending => exact keepsOrder_of_same (hqueue ▸ hpending) hholders
  | progress hprogress => exact h.keepsOrder_progress hprogress

end SliceControl.Dispatch
