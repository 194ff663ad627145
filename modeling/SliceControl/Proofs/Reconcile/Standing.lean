import Mathlib.Data.List.Nodup
import SliceControl.Proofs.Sequence
import SliceControl.Proofs.Slice.Aging
import SliceControl.Reconcile

/-!
# Wanted slices beside the owned ones

A wanted slice stands as the owned slice of its name lets it stand. The lemmas say what each
standing means in terms of that slice, and when a slice counts as ready or as failed. An owned slice
is found by its name, so the names of the owned slices have to be distinct.
-/

namespace SliceControl

/-! ## Slices by name -/

theorem mem_of_lastNamed?_eq_some {slices : List Slice} {name : String} {slice : Slice}
    (h : lastNamed? slices name = some slice) : slice ∈ slices ∧ slice.name = name :=
  ⟨List.mem_reverse.mp (List.mem_of_find?_eq_some h), by simpa using List.find?_some h⟩

theorem exists_lastNamed? {slices : List Slice} {name : String}
    (h : ∃ slice ∈ slices, slice.name = name) : ∃ slice, lastNamed? slices name = some slice := by
  rw [← Option.isSome_iff_exists]
  simpa [lastNamed?, List.find?_isSome] using h

theorem lastNamed?_eq_some_iff {slices : List Slice} (hdistinct : (slices.map Slice.name).Nodup)
    {name : String} {slice : Slice} :
    lastNamed? slices name = some slice ↔ slice ∈ slices ∧ slice.name = name := by
  have hreverse : (slices.reverse.map Slice.name).Nodup := by
    rw [List.map_reverse]
    exact List.nodup_reverse.mpr hdistinct
  rw [lastNamed?, find?_eq_some_iff_of_nodup hreverse, List.mem_reverse]

/-! ## Standings -/

namespace WantedSlice

variable {wanted : WantedSlice} {slices : List Slice}

theorem standing_eq_missing_iff :
    wanted.standing slices = .missing ↔ lastNamed? slices wanted.name = none := by
  unfold standing
  cases lastNamed? slices wanted.name with
  | none => simp
  | some slice => simp only [reduceCtorEq, iff_false]; split <;> simp

theorem standing_eq_outdated_iff :
    wanted.standing slices = .outdated ↔ ∃ slice, lastNamed? slices wanted.name = some slice ∧
      slice.isDeleting = false ∧ slice.spec ≠ wanted.spec := by
  unfold standing
  cases lastNamed? slices wanted.name with
  | none => simp
  | some slice => simp

/-- A wanted slice is present as the slice of its name, with the wanted spec or being deleted. -/
theorem standing_eq_present_iff {slice : Slice} :
    wanted.standing slices = .present slice ↔ lastNamed? slices wanted.name = some slice ∧
      (slice.isDeleting = true ∨ slice.spec = wanted.spec) := by
  unfold standing
  cases lastNamed? slices wanted.name with
  | none => simp
  | some found =>
    simp only [Option.some.injEq]
    split_ifs with houtdated
    · simp only [false_iff]
      rintro ⟨rfl, hpresent⟩
      simp only [Bool.and_eq_true, Bool.not_eq_true', decide_eq_true_eq] at houtdated
      rcases hpresent with hdeleting | hspec
      · simp [hdeleting] at houtdated
      · exact houtdated.2 hspec
    · simp only [Standing.present.injEq]
      constructor
      · rintro rfl
        refine ⟨rfl, ?_⟩
        by_contra hneither
        simp only [not_or, Bool.not_eq_true] at hneither
        exact houtdated (by simp [hneither.1, hneither.2])
      · exact fun h ↦ h.1

/-- Every standing but presence asks for a write. -/
theorem write?_eq_none_iff :
    wanted.write? slices = none ↔ ∃ slice, wanted.standing slices = .present slice := by
  unfold write?
  cases wanted.standing slices <;> simp

theorem isReady_iff {context : PassContext} :
    wanted.isReady slices context = true ↔ ∃ slice, wanted.standing slices = .present slice ∧
      (slice.state context.now context.stalenessTimeout).isReady = true := by
  unfold isReady state?
  cases wanted.standing slices <;> simp

theorem failure?_isSome_iff {context : PassContext} :
    (wanted.failure? slices context).isSome = true ↔
      ∃ slice, wanted.standing slices = .present slice ∧
        (slice.state context.now context.stalenessTimeout).isError = true := by
  unfold failure? state?
  cases wanted.standing slices with
  | present slice => simp only [Standing.present.injEq, exists_eq_left']; split <;> simp_all
  | _ => simp

/-- A ready slice stays ready. -/
theorem isReady_of_isReady {context later : PassContext}
    (htimeout : later.stalenessTimeout = context.stalenessTimeout)
    (h : wanted.isReady slices context = true) : wanted.isReady slices later = true := by
  obtain ⟨slice, hpresent, hready⟩ := isReady_iff.mp h
  refine isReady_iff.mpr ⟨slice, hpresent, ?_⟩
  rw [htimeout, Slice.state_of_isReady hready]
  exact hready

/-- A ready slice is no failure. -/
theorem failure?_of_isReady {context : PassContext} (h : wanted.isReady slices context = true) :
    wanted.failure? slices context = none := by
  obtain ⟨slice, hpresent, hready⟩ := isReady_iff.mp h
  rw [← Option.not_isSome_iff_eq_none, failure?_isSome_iff]
  rintro ⟨other, hother, herror⟩
  cases hpresent.symm.trans hother
  rcases SliceState.isReady_iff.mp hready with hstate | hstate <;>
    rw [hstate] at herror <;> exact absurd herror (by decide)

/-! ## Slices that have just been created -/

section Created

variable {later : List Slice} {context : PassContext}

/-- A slice that has just been created is as little ready as a missing one. -/
theorem isReady_of_state?_eq
    (h : wanted.state? later context = some ((wanted.state? slices context).getD .created)) :
    wanted.isReady later context = wanted.isReady slices context := by
  unfold isReady
  rw [h]
  cases wanted.state? slices context <;> rfl

/-- A slice that has just been created is as little a failure as a missing one. -/
theorem failure?_of_state?_eq
    (h : wanted.state? later context = some ((wanted.state? slices context).getD .created)) :
    wanted.failure? later context = wanted.failure? slices context := by
  unfold failure?
  rw [h]
  cases wanted.state? slices context <;> rfl

end Created

end WantedSlice

end SliceControl
