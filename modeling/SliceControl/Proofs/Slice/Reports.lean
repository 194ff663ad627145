import Mathlib.Data.List.Nodup
import SliceControl.Proofs.Time.Instant
import SliceControl.Slice.Condition

/-!
# Reports about a slice

A report that is recorded takes the place of the conditions of its type and leaves the other types
alone. So a status with at most one condition of each type keeps at most one, and the transition
time that is recorded for a type never goes back.
-/

namespace SliceControl

namespace SliceStatus

/-- At most one condition of each type. -/
def IsSingle (status : SliceStatus) : Prop := (status.conditions.map Condition.type).Nodup

/-- Every type that has a condition still has one, with the same transition time or a later one. -/
def Precedes (status later : SliceStatus) : Prop :=
  ∀ type condition, status.condition? type = some condition →
    ∃ successor, later.condition? type = some successor ∧
      successor.lastTransitionTime.before condition.lastTransitionTime = false

theorem Precedes.of_conditions_eq {status later : SliceStatus}
    (h : later.conditions = status.conditions) : status.Precedes later := by
  intro type condition hcondition
  refine ⟨condition, ?_, Instant.le_refl _⟩
  rw [condition?, h]
  exact hcondition

theorem Precedes.trans {first middle last : SliceStatus} (early : first.Precedes middle)
    (late : middle.Precedes last) : first.Precedes last := by
  intro type condition hcondition
  obtain ⟨next, hnext, hforward⟩ := early type condition hcondition
  obtain ⟨successor, hsuccessor, honward⟩ := late type next hnext
  refine ⟨successor, hsuccessor, ?_⟩
  exact Instant.le_trans hforward honward

/-! ## Recording -/

variable {status : SliceStatus} {condition : Condition}

theorem condition?_replace (status : SliceStatus) (condition : Condition) (type : String) :
    (status.replace condition).condition? type =
      if condition.type = type then some condition else status.condition? type := by
  unfold condition? replace
  dsimp only
  rw [List.find?_append]
  split_ifs with hsame
  · have hnone : (status.conditions.filter (·.type ≠ condition.type)).find? (·.type = type) =
        none := by
      apply List.find?_eq_none.mpr
      intro other hother
      simpa [hsame] using (List.mem_filter.mp hother).2
    rw [hnone, Option.none_or]
    simp [hsame]
  · have hothers : (status.conditions.filter (·.type ≠ condition.type)).find? (·.type = type) =
        status.conditions.find? (·.type = type) := by
      rw [List.find?_filter]
      congr 1
      funext other
      by_cases hother : other.type = type <;> simp [hother, Ne.symm hsame]
    rw [hothers]
    simp [hsame]

theorem IsSingle.replace (h : status.IsSingle) (condition : Condition) :
    (status.replace condition).IsSingle := by
  have hothers : ((status.conditions.filter (·.type ≠ condition.type)).map Condition.type).Nodup :=
    h.sublist (List.filter_sublist.map Condition.type)
  unfold IsSingle SliceStatus.replace
  rw [List.map_append, List.nodup_append]
  refine ⟨hothers, List.nodup_singleton _, ?_⟩
  intro type htype other hother
  obtain ⟨found, hfound, rfl⟩ := List.mem_map.mp htype
  rw [List.mem_singleton.mp hother]
  simpa using (List.mem_filter.mp hfound).2

/-- A report is recorded unless the recorded one of its type is newer. -/
theorem record_eq_ok_iff {next : SliceStatus} :
    status.record condition = .ok next ↔
      (∀ recorded, status.condition? condition.type = some recorded →
        condition.lastTransitionTime.before recorded.lastTransitionTime = false) ∧
          status.replace condition = next := by
  unfold record
  cases hrecorded : status.condition? condition.type with
  | none => simp
  | some recorded =>
    dsimp only
    split_ifs with hbefore
    · simp [hbefore]
    · simp [hbefore]

theorem IsSingle.of_record {next : SliceStatus} (h : status.IsSingle)
    (hnext : status.record condition = .ok next) : next.IsSingle := by
  obtain ⟨-, rfl⟩ := record_eq_ok_iff.mp hnext
  exact h.replace condition

theorem precedes_of_record {next : SliceStatus} (hnext : status.record condition = .ok next) :
    status.Precedes next := by
  obtain ⟨hforward, rfl⟩ := record_eq_ok_iff.mp hnext
  intro type recorded hrecorded
  rw [condition?_replace]
  split_ifs with hsame
  · subst hsame
    exact ⟨condition, rfl, hforward recorded hrecorded⟩
  · exact ⟨recorded, hrecorded, Instant.le_refl _⟩

end SliceStatus

end SliceControl
