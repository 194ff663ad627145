import Mathlib.Data.List.Perm.Basic
import SliceControl.Proofs.Sequence
import SliceControl.Proofs.Slice.Reports
import SliceControl.Store

/-!
# Reports in any order

Reports reach a slice in any order. A report is refused if a newer one of its type is recorded, and
it takes the place of an older one, so that the order does not matter in the end: for each type the
newest condition is left, as long as no two conditions of a type have the same time.

Only the order in which the conditions of different types are listed depends on when they came.
-/

namespace SliceControl

/-- Conditions of the same type have different transition times. -/
def AreDated (conditions : List Condition) : Prop :=
  conditions.Pairwise fun first second ↦
    first.type = second.type → first.lastTransitionTime ≠ second.lastTransitionTime

/-- The condition is among the others, and all others of its type are older. -/
structure IsNewest (conditions : List Condition) (condition : Condition) : Prop where
  mem : condition ∈ conditions
  newest : ∀ other ∈ conditions, other.type = condition.type → other ≠ condition →
    other.lastTransitionTime.before condition.lastTransitionTime = true

theorem AreDated.perm {conditions others : List Condition} (h : AreDated conditions)
    (hperm : conditions.Perm others) : AreDated others := by
  refine (hperm.pairwise_iff ?_).mp h
  intro first second hdifferent hsame
  exact (hdifferent hsame.symm).symm

theorem isNewest_congr {conditions others : List Condition} {condition : Condition}
    (hmem : ∀ other, other ∈ conditions ↔ other ∈ others) :
    IsNewest conditions condition ↔ IsNewest others condition := by
  constructor
  · intro h
    exact ⟨(hmem condition).mp h.mem, fun other hother ↦ h.newest other ((hmem other).mpr hother)⟩
  · intro h
    exact ⟨(hmem condition).mpr h.mem, fun other hother ↦ h.newest other ((hmem other).mp hother)⟩

/-- There is no more than one newest condition of a type. -/
theorem IsNewest.eq {conditions : List Condition} {condition other : Condition}
    (h : IsNewest conditions condition) (hother : IsNewest conditions other)
    (htype : other.type = condition.type) : other = condition := by
  by_contra hne
  have hbefore := Instant.before_iff.mp (h.newest other hother.mem htype hne)
  have hafter := Instant.before_iff.mp (hother.newest condition h.mem htype.symm (Ne.symm hne))
  omega

theorem IsNewest.append_of_before {conditions : List Condition} {condition other : Condition}
    (h : IsNewest conditions condition) (hbefore : other.type = condition.type →
      other ≠ condition → other.lastTransitionTime.before condition.lastTransitionTime = true) :
    IsNewest (conditions ++ [other]) condition := by
  refine ⟨List.mem_append_left _ h.mem, ?_⟩
  intro second hsecond
  rcases List.mem_append.mp hsecond with hearlier | hlast
  · exact h.newest second hearlier
  · rw [List.mem_singleton.mp hlast]
    exact hbefore

namespace SliceStatus

variable {status : SliceStatus} {condition report : Condition} {heard reports : List Condition}

/-! ## One report -/

/-- What a report makes of a status: nothing new if it is refused. -/
def hear (status : SliceStatus) (report : Condition) : SliceStatus :=
  match status.record report with
  | .ok next => next
  | .error _ => status

theorem record_eq_error_iff {error : Regression} :
    status.record report = .error error ↔
      ∃ recorded, status.condition? report.type = some recorded ∧
        report.lastTransitionTime.before recorded.lastTransitionTime = true ∧
        error = ⟨report.type, recorded.lastTransitionTime, report.lastTransitionTime⟩ := by
  unfold record
  cases status.condition? report.type with
  | none => simp
  | some recorded =>
    dsimp only
    split_ifs with hbefore
    · simp only [Except.error.injEq, Option.some.injEq, exists_eq_left', hbefore, true_and]
      exact eq_comm
    · simp [hbefore]

/-- A report is refused if it is older than the recorded one, and otherwise it is recorded. -/
theorem hear_cases (status : SliceStatus) (report : Condition) :
    (∃ recorded, status.condition? report.type = some recorded ∧
      report.lastTransitionTime.before recorded.lastTransitionTime = true ∧
      status.hear report = status) ∨
    (∀ recorded, status.condition? report.type = some recorded →
      report.lastTransitionTime.before recorded.lastTransitionTime = false) ∧
      status.hear report = status.replace report := by
  unfold hear
  cases hrecord : status.record report with
  | error error =>
    obtain ⟨recorded, hrecorded, hbefore, -⟩ := record_eq_error_iff.mp hrecord
    exact .inl ⟨recorded, hrecorded, hbefore, rfl⟩
  | ok next =>
    obtain ⟨hforward, hreplace⟩ := record_eq_ok_iff.mp hrecord
    exact .inr ⟨hforward, hreplace.symm⟩

theorem condition?_eq_some_iff (h : status.IsSingle) {type : String} :
    status.condition? type = some condition ↔
      condition ∈ status.conditions ∧ condition.type = type :=
  find?_eq_some_iff_of_nodup h

theorem mem_conditions_replace :
    condition ∈ (status.replace report).conditions ↔
      condition = report ∨ condition ∈ status.conditions ∧ condition.type ≠ report.type := by
  simp [replace, or_comm]

/-- What is not of the type of a report stays as it was, in the same order. -/
theorem others_replace (status : SliceStatus) (report : Condition) :
    (status.replace report).conditions.filter (·.type ≠ report.type) =
      status.conditions.filter (·.type ≠ report.type) := by
  simp [replace, List.filter_append, List.filter_filter]

/-! ## What has been heard -/

/-- The status holds, of everything heard, the newest condition of each type. -/
structure Reflects (status : SliceStatus) (heard : List Condition) : Prop where
  single : status.IsSingle
  newest : ∀ condition ∈ status.conditions, IsNewest heard condition
  covers : ∀ condition ∈ heard, ∃ recorded ∈ status.conditions, recorded.type = condition.type

/-- At first nothing has been heard but what is recorded. -/
theorem IsSingle.reflects (h : status.IsSingle) : status.Reflects status.conditions := by
  refine ⟨h, fun condition hmem ↦ ⟨hmem, ?_⟩, fun condition hmem ↦ ⟨condition, hmem, rfl⟩⟩
  intro other hother htype hne
  exact absurd (List.inj_on_of_nodup_map h hother hmem htype) hne

/-- A report that is refused is older than the recorded condition of its type. -/
theorem Reflects.refused (h : status.Reflects heard) {recorded : Condition}
    (hrecorded : status.condition? report.type = some recorded)
    (hbefore : report.lastTransitionTime.before recorded.lastTransitionTime = true) :
    status.Reflects (heard ++ [report]) := by
  obtain ⟨hmem, htype⟩ := (condition?_eq_some_iff h.single).mp hrecorded
  refine ⟨h.single, ?_, ?_⟩
  · intro condition hcondition
    apply (h.newest condition hcondition).append_of_before
    intro hsame _
    rw [List.inj_on_of_nodup_map h.single hcondition hmem (hsame.symm.trans htype.symm)]
    exact hbefore
  · intro condition hcondition
    rcases List.mem_append.mp hcondition with hearlier | hlast
    · exact h.covers condition hearlier
    · rw [List.mem_singleton.mp hlast]
      exact ⟨recorded, hmem, htype⟩

/-- A report that is not older than the recorded condition of its type is not older than anything of
its type that has been heard. -/
theorem Reflects.before_of_forward (h : status.Reflects heard)
    (hforward : ∀ recorded, status.condition? report.type = some recorded →
      report.lastTransitionTime.before recorded.lastTransitionTime = false)
    (hmem : condition ∈ heard) (htype : condition.type = report.type)
    (hdifferent : condition.lastTransitionTime ≠ report.lastTransitionTime) :
    condition.lastTransitionTime.before report.lastTransitionTime = true := by
  obtain ⟨recorded, hrecorded, hsame⟩ := h.covers condition hmem
  have hbound : condition.lastTransitionTime ≤ recorded.lastTransitionTime := by
    by_cases heq : condition = recorded
    · exact heq ▸ Instant.le_refl _
    · exact Instant.le_of_before
        ((h.newest recorded hrecorded).newest condition hmem hsame.symm heq)
  have honward : recorded.lastTransitionTime ≤ report.lastTransitionTime :=
    hforward recorded ((condition?_eq_some_iff h.single).mpr ⟨hrecorded, hsame.trans htype⟩)
  exact Instant.before_iff_le_and_ne.mpr ⟨Instant.le_trans hbound honward, hdifferent⟩

theorem Reflects.accepted (h : status.Reflects heard) (hdated : AreDated (heard ++ [report]))
    (hforward : ∀ recorded, status.condition? report.type = some recorded →
      report.lastTransitionTime.before recorded.lastTransitionTime = false) :
    (status.replace report).Reflects (heard ++ [report]) := by
  refine ⟨h.single.replace report, ?_, ?_⟩
  · intro condition hcondition
    rcases mem_conditions_replace.mp hcondition with rfl | ⟨hkept, htype⟩
    · refine ⟨List.mem_append_right _ (List.mem_singleton_self _), ?_⟩
      intro other hother htype hne
      have hearlier : other ∈ heard := by
        simpa [hne] using hother
      have hdifferent := (List.pairwise_append.mp hdated).2.2 other hearlier condition
        (List.mem_singleton_self _) htype
      exact h.before_of_forward hforward hearlier htype hdifferent
    · exact (h.newest condition hkept).append_of_before fun hsame ↦ absurd hsame.symm htype
  · intro condition hcondition
    by_cases htype : condition.type = report.type
    · exact ⟨report, mem_conditions_replace.mpr (.inl rfl), htype.symm⟩
    · rcases List.mem_append.mp hcondition with hearlier | hlast
      · obtain ⟨recorded, hrecorded, hsame⟩ := h.covers condition hearlier
        exact ⟨recorded, mem_conditions_replace.mpr (.inr ⟨hrecorded, hsame ▸ htype⟩), hsame⟩
      · exact absurd (congrArg Condition.type (List.mem_singleton.mp hlast)) htype

theorem Reflects.hear (h : status.Reflects heard) (hdated : AreDated (heard ++ [report])) :
    (status.hear report).Reflects (heard ++ [report]) := by
  rcases status.hear_cases report with ⟨recorded, hrecorded, hbefore, hsame⟩ | ⟨hforward, hreplace⟩
  · rw [hsame]
    exact h.refused hrecorded hbefore
  · rw [hreplace]
    exact h.accepted hdated hforward

/-! ## Several reports -/

/-- What reports make of a status, one after the other. -/
def hearAll (status : SliceStatus) (reports : List Condition) : SliceStatus :=
  reports.foldl hear status

theorem Reflects.hearAll (h : status.Reflects heard) (hdated : AreDated (heard ++ reports)) :
    (status.hearAll reports).Reflects (heard ++ reports) := by
  induction reports generalizing status heard with
  | nil => rwa [List.append_nil]
  | cons report reports ih =>
    rw [← List.singleton_append, ← List.append_assoc] at hdated ⊢
    exact ih (h.hear (List.pairwise_append.mp hdated).1) hdated

/-- Of everything heard the newest condition of each type is found, and nothing else. -/
theorem Reflects.condition?_eq_some_iff (h : status.Reflects heard) {type : String} :
    status.condition? type = some condition ↔ condition.type = type ∧ IsNewest heard condition := by
  rw [SliceStatus.condition?_eq_some_iff h.single]
  constructor
  · intro hfound
    exact ⟨hfound.2, h.newest condition hfound.1⟩
  · rintro ⟨htype, hnewest⟩
    obtain ⟨recorded, hrecorded, hsame⟩ := h.covers condition hnewest.mem
    rw [← hnewest.eq (h.newest recorded hrecorded) hsame]
    exact ⟨hrecorded, hsame.trans htype⟩

theorem Reflects.condition?_eq_none_iff (h : status.Reflects heard) {type : String} :
    status.condition? type = none ↔ ∀ condition ∈ heard, condition.type ≠ type := by
  rw [condition?, List.find?_eq_none]
  simp only [decide_eq_true_eq]
  constructor
  · intro hnone condition hcondition htype
    obtain ⟨recorded, hrecorded, hsame⟩ := h.covers condition hcondition
    exact hnone recorded hrecorded (hsame.trans htype)
  · intro hnone recorded hrecorded
    exact hnone recorded (h.newest recorded hrecorded).mem

end SliceStatus

/-! ## Reports about a stored slice -/

namespace Store

/-- The store after reports about a slice, one after the other. -/
def hearAll (store : Store) (name : String) (reports : List Condition) : Store :=
  reports.foldl (fun store report ↦ (store.setCondition name report).store) store

variable {store : Store} {name : String} {slice : Slice}

theorem slice?_setCondition (h : store.slice? name = some slice) (report : Condition) :
    (store.setCondition name report).store.slice? name =
      some { slice with status := slice.status.hear report } := by
  have hget : store.slices.get? name = some slice := h
  unfold setCondition SliceStatus.hear
  rw [hget]
  dsimp only
  cases slice.status.record report with
  | error error => exact h
  | ok next =>
    exact (SortedMap.get?_insert store.slices name name _).trans (if_pos rfl)

theorem slice?_hearAll (h : store.slice? name = some slice) (reports : List Condition) :
    (store.hearAll name reports).slice? name =
      some { slice with status := slice.status.hearAll reports } := by
  induction reports generalizing store slice with
  | nil => exact h
  | cons report reports ih => exact ih (slice?_setCondition h report)

/-- A report that is refused as a regression changes nothing in the store. -/
theorem setCondition_store_of_regression {report : Condition} {error : Regression}
    (h : (store.setCondition name report).result = .error (.status error)) :
    (store.setCondition name report).store = store := by
  unfold setCondition at h ⊢
  cases hget : store.slices.get? name with
  | none => rfl
  | some slice =>
    rw [hget] at h
    dsimp only at h ⊢
    cases hrecord : slice.status.record report with
    | error error => rfl
    | ok next =>
      rw [hrecord] at h
      cases h

end Store

/-! ## Any order -/

namespace SliceStatus

/-- Whatever the order in which reports reach a slice, in the end it has for each type the newest
condition, recorded or reported. A report that is refused changes nothing, and one that is recorded
keeps the conditions of the other types in their order. -/
theorem newest_of_reports {status : SliceStatus} {reports : List Condition}
    (hsingle : status.IsSingle) (hdated : AreDated (status.conditions ++ reports)) :
    (∀ order, order.Perm reports →
      (status.hearAll order).IsSingle ∧
      (∀ type condition, (status.hearAll order).condition? type = some condition ↔
        condition.type = type ∧ IsNewest (status.conditions ++ reports) condition) ∧
      (∀ type, (status.hearAll order).condition? type = none ↔
        ∀ condition ∈ status.conditions ++ reports, condition.type ≠ type) ∧
      ∀ store name slice, Store.slice? store name = some slice → slice.status = status →
        (store.hearAll name order).slice? name =
          some { slice with status := status.hearAll order }) ∧
    (∀ earlier report error, SliceStatus.record earlier report = .error error →
      earlier.hear report = earlier) ∧
    (∀ store name report error,
      (Store.setCondition store name report).result = .error (.status error) →
        (store.setCondition name report).store = store) ∧
    ∀ earlier report next, SliceStatus.record earlier report = .ok next →
      earlier.hear report = next ∧
      next.conditions.filter (·.type ≠ report.type) =
        earlier.conditions.filter (·.type ≠ report.type) := by
  refine ⟨?anyOrder, ?refused, ?unchanged, ?recorded⟩
  case anyOrder =>
    intro order hperm
    have hheard : (status.conditions ++ order).Perm (status.conditions ++ reports) :=
      hperm.append_left status.conditions
    have hreflects := hsingle.reflects.hearAll (hdated.perm hheard.symm)
    refine ⟨hreflects.single, ?_, ?_, ?_⟩
    · intro type condition
      rw [hreflects.condition?_eq_some_iff, isNewest_congr fun other ↦ hheard.mem_iff]
    · intro type
      rw [hreflects.condition?_eq_none_iff]
      exact forall_congr' fun condition ↦ imp_congr_left hheard.mem_iff
    · intro store name slice hstored hstatus
      rw [← hstatus]
      exact Store.slice?_hearAll hstored order
  case refused =>
    intro earlier report error herror
    rw [hear, herror]
  case unchanged =>
    intro store name report error herror
    exact Store.setCondition_store_of_regression herror
  case recorded =>
    intro earlier report next hnext
    refine ⟨by rw [hear, hnext], ?_⟩
    obtain ⟨-, rfl⟩ := record_eq_ok_iff.mp hnext
    exact others_replace earlier report

/-- A report at a second. -/
def reportAt (type : String) (seconds : Int) : Condition :=
  ⟨type, .true, Condition.reasonActive, "", .ofNanos (seconds * 1000000000)⟩

/-- Readiness since second five is recorded and four reports come in. As listed, the last two are
refused, and the other way round only the one from second two. The same conditions are left, but
they are listed the other way round. -/
theorem newest_of_reports_sample :
    let status : SliceStatus := ⟨[reportAt Condition.ready 5], none, []⟩
    let late := [reportAt Condition.ready 9, reportAt Condition.creationFailed 3,
      reportAt Condition.ready 2, reportAt Condition.ready 7]
    AreDated (status.conditions ++ late) ∧
      (∀ order, order.Perm late →
        (status.hearAll order).condition? Condition.ready = some (reportAt Condition.ready 9) ∧
        (status.hearAll order).condition? Condition.creationFailed =
          some (reportAt Condition.creationFailed 3) ∧
        (status.hearAll order).condition? "Degraded" = none) ∧
      (status.hearAll late).conditions ≠ (status.hearAll late.reverse).conditions := by
  intro status late
  have hdated : AreDated (status.conditions ++ late) := by
    unfold AreDated
    decide
  have hready : IsNewest (status.conditions ++ late) (reportAt Condition.ready 9) :=
    ⟨by decide, by decide⟩
  have hfailed : IsNewest (status.conditions ++ late) (reportAt Condition.creationFailed 3) :=
    ⟨by decide, by decide⟩
  refine ⟨hdated, ?_, by decide⟩
  intro order hperm
  have hsingle : status.IsSingle := List.nodup_singleton _
  obtain ⟨-, hfound, hnone, -⟩ := (newest_of_reports hsingle hdated).1 order hperm
  refine ⟨(hfound _ _).mpr ⟨rfl, hready⟩, (hfound _ _).mpr ⟨rfl, hfailed⟩, (hnone _).mpr ?_⟩
  decide

end SliceStatus

end SliceControl
