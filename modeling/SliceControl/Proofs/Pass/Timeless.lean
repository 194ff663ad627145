import SliceControl.Proofs.Pass.Writes

/-!
# Stores that differ in creation times

When a write is carried out shows in one place only, the creation time of a new slice. Stores that
agree up to creation times still do so after the same writes, whenever those are carried out.
-/

namespace SliceControl

/-- The slice without its creation time. -/
def Slice.undated (slice : Slice) : Slice :=
  { slice with metadata := { slice.metadata with creationTimestamp := none } }

@[simp] theorem Slice.undated_stamped (slice : Slice) (now : Instant) :
    (slice.stamped now).undated = slice.undated := rfl

namespace Store

/-- Two stores are the same but for the creation times of slices. -/
structure SameButTimes (store other : Store) : Prop where
  slices : ∀ name, (other.slice? name).map Slice.undated = (store.slice? name).map Slice.undated
  workloads : other.workloads = store.workloads
  nodes : other.nodes = store.nodes
  owned : other.owned = store.owned

namespace SameButTimes

variable {store other last : Store} {key : String}

theorem refl (store : Store) : SameButTimes store store := ⟨fun _ ↦ rfl, rfl, rfl, rfl⟩

theorem symm (h : SameButTimes store other) : SameButTimes other store :=
  ⟨fun name ↦ (h.slices name).symm, h.workloads.symm, h.nodes.symm, h.owned.symm⟩

theorem trans (h : SameButTimes store other) (hlast : SameButTimes other last) :
    SameButTimes store last :=
  ⟨fun name ↦ (hlast.slices name).trans (h.slices name), hlast.workloads.trans h.workloads,
    hlast.nodes.trans h.nodes, hlast.owned.trans h.owned⟩

theorem slice?_eq_none_iff (h : SameButTimes store other) {name : String} :
    other.slice? name = none ↔ store.slice? name = none := by
  have hsame := h.slices name
  cases hstore : store.slice? name <;> cases hother : other.slice? name <;> simp_all

/-- A slice and its namesake in the other store have the same owner. -/
theorem exists_namesake (h : SameButTimes store other) {name : String} {slice : Slice}
    (hslice : store.slice? name = some slice) :
    ∃ namesake, other.slice? name = some namesake ∧ namesake.ownerKey = slice.ownerKey := by
  have hsame := h.slices name
  rw [hslice] at hsame
  obtain ⟨namesake, hnamesake, hundated⟩ := Option.map_eq_some_iff.mp hsame
  have howner : namesake.undated.ownerKey = slice.undated.ownerKey :=
    congrArg Slice.ownerKey hundated
  exact ⟨namesake, hnamesake, howner⟩

theorem insertSlice (h : SameButTimes store other) (slice : Slice) (first second : Instant) :
    SameButTimes (store.insertSlice slice first).store (other.insertSlice slice second).store := by
  have hslices (name : String) :
      ((other.insertSlice slice second).store.slice? name).map Slice.undated =
        ((store.insertSlice slice first).store.slice? name).map Slice.undated := by
    have hname := h.slices name
    rw [slice?_insertSlice, slice?_insertSlice]
    split_ifs
    · cases hstore : store.slice? name <;> cases hother : other.slice? name <;>
        simp_all
    · exact hname
  refine ⟨hslices, ?_, ?_, ?_⟩
  all_goals
    cases hstore : store.slice? slice.name with
    | none =>
      have hother := h.slice?_eq_none_iff.mpr hstore
      unfold slice? at hstore hother
      simp [Store.insertSlice, SortedMap.contains, hstore, hother, h.workloads, h.nodes, h.owned]
    | some found =>
      obtain ⟨namesake, hother, -⟩ := h.exists_namesake hstore
      rw [insertSlice_of_some hstore, insertSlice_of_some hother]
      simp [refuse, h.workloads, h.nodes, h.owned]

theorem removeSlice (h : SameButTimes store other) (name : String) :
    SameButTimes (store.removeSlice name).store (other.removeSlice name).store := by
  have hslices (rest : String) :
      ((other.removeSlice name).store.slice? rest).map Slice.undated =
        ((store.removeSlice name).store.slice? rest).map Slice.undated := by
    rw [slice?_removeSlice, slice?_removeSlice]
    split_ifs
    · rfl
    · exact h.slices rest
  cases hstore : store.slice? name with
  | none =>
    rw [removeSlice_of_none hstore, removeSlice_of_none (h.slice?_eq_none_iff.mpr hstore)]
    exact h
  | some found =>
    obtain ⟨namesake, hother, howner⟩ := h.exists_namesake hstore
    refine ⟨hslices, ?_, ?_, ?_⟩
    all_goals rw [removeSlice_of_some hstore, removeSlice_of_some hother]
    · exact h.workloads
    · exact h.nodes
    · simp [h.owned, howner]

theorem updateCheck (h : SameButTimes store other) (key : String) (check : AdmissionCheck) :
    SameButTimes (store.updateCheck key check).store (other.updateCheck key check).store := by
  unfold Store.updateCheck
  rw [h.workloads]
  cases store.workloads.get? key with
  | none => exact h
  | some workload =>
    dsimp only
    cases workload.setCheck? check with
    | none => exact h
    | some updated => exact ⟨h.slices, rfl, h.nodes, h.owned⟩

/-- It does not matter when a write is carried out. -/
theorem carryOut (h : SameButTimes store other) {step later : Write × Instant}
    (hwrite : later.1 = step.1) :
    SameButTimes (store.carryOut key step) (other.carryOut key later) := by
  obtain ⟨write, first⟩ := step
  obtain ⟨_, second⟩ := later
  cases hwrite
  cases write with
  | createSlice slice => exact h.insertSlice slice first second
  | deleteSlice name => exact h.removeSlice name
  | setCheck check => exact h.updateCheck key check

theorem carryAll (h : SameButTimes store other) {steps later : List (Write × Instant)}
    (hwrites : later.map Prod.fst = steps.map Prod.fst) :
    SameButTimes (store.carryAll key steps) (other.carryAll key later) := by
  induction steps generalizing store other later with
  | nil =>
    rw [List.map_eq_nil_iff.mp hwrites]
    exact h
  | cons step rest ih =>
    obtain ⟨step', rest', rfl, hstep, hrest⟩ := List.map_eq_cons_iff.mp hwrites
    exact ih (h.carryOut hstep) hrest

end SameButTimes

end Store

end SliceControl
