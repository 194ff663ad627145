import Mathlib.Tactic.Ring
import SliceControl.Proofs.Sequence
import SliceControl.Topology

/-!
# Shapes that can be provided

A text that is read as a shape is a fixed part of a cube or a block of whole cubes. Either way its
chips are the chips of its units, there is at least one unit, and the numbers are small.
-/

namespace SliceControl

open Text

/-- A block of whole cubes within the extents of the axes. -/
structure Dims.IsBlock (dims : Dims) : Prop where
  positive : 0 < dims.x ∧ 0 < dims.y ∧ 0 < dims.z
  multiple : Topology.cubeEdge ∣ dims.x ∧ Topology.cubeEdge ∣ dims.y ∧ Topology.cubeEdge ∣ dims.z
  ordered : dims.x ≤ dims.y ∧ dims.y ≤ dims.z
  bounded : dims.x ≤ 16 ∧ dims.y ≤ 24 ∧ dims.z ≤ 24

namespace Topology

/-- A part of a cube or a block of whole cubes, with the class that this makes it. -/
def IsValid (topology : Topology) : Prop :=
  match topology.sizeClass with
  | .subslice => topology.dims ∈ subsliceShapes
  | .superslice => topology.dims.IsBlock

/-! ## Reading -/

theorem beyondAxis?_eq_none_iff {dims : Dims} :
    beyondAxis? dims = none ↔ dims.x ≤ 16 ∧ dims.y ≤ 24 ∧ dims.z ≤ 24 := by
  simp [beyondAxis?, Dims.toList, axisMaxima]

/-- Just a block of cubes has no fault. -/
theorem blockFault?_eq_none_iff {dims : Dims} : blockFault? dims = none ↔ dims.IsBlock := by
  have hzero : dims.toList.contains 0 = true ↔ ¬(0 < dims.x ∧ 0 < dims.y ∧ 0 < dims.z) := by
    simp only [Dims.toList, List.contains_eq_mem, List.mem_cons, List.not_mem_nil, or_false,
      decide_eq_true_eq]
    omega
  have hmultiple : dims.toList.find? (fun dimension ↦ dimension % cubeEdge ≠ 0) = none ↔
      cubeEdge ∣ dims.x ∧ cubeEdge ∣ dims.y ∧ cubeEdge ∣ dims.z := by
    simp [Dims.toList, Nat.dvd_iff_mod_eq_zero]
  unfold blockFault?
  by_cases hcontains : dims.toList.contains 0 = true
  · rw [if_pos hcontains]
    apply iff_of_false (by simp)
    intro hblock
    exact hzero.mp hcontains hblock.positive
  · rw [if_neg hcontains]
    have hpositive : 0 < dims.x ∧ 0 < dims.y ∧ 0 < dims.z := by
      rw [hzero, not_not] at hcontains
      exact hcontains
    cases hfind : dims.toList.find? (fun dimension ↦ dimension % cubeEdge ≠ 0) with
    | some dimension =>
      apply iff_of_false (by simp)
      intro hblock
      rw [hmultiple.mpr hblock.multiple] at hfind
      cases hfind
    | none =>
      dsimp only
      split_ifs with hdecreasing
      · apply iff_of_false (by simp)
        intro hblock
        have hordered := hblock.ordered
        omega
      · rw [beyondAxis?_eq_none_iff]
        constructor
        · intro hbounded
          exact ⟨hpositive, hmultiple.mp hfind, by omega, hbounded⟩
        · exact Dims.IsBlock.bounded

theorem isValid_of_ofDims {dims : Dims} {topology : Topology} (h : ofDims dims = .ok topology) :
    topology.IsValid := by
  unfold ofDims at h
  split_ifs at h with hpart
  · cases h
    exact hpart
  · split at h
    · cases h
    · next hfault =>
      cases h
      exact blockFault?_eq_none_iff.mp hfault

theorem isValid_of_parse {text : String} {topology : Topology} (h : parse text = .ok topology) :
    topology.IsValid := by
  unfold parse at h
  split at h
  · next found hread =>
    cases h
    obtain ⟨dims, -, hdims⟩ := bind_eq_ok_iff.mp hread
    exact isValid_of_ofDims hdims
  · cases h

/-! ## Measures -/

variable {topology : Topology}

theorem chips_superslice (hclass : topology.sizeClass = .superslice) (h : topology.IsValid) :
    ∃ cubes, 0 < cubes ∧ topology.chips = cubes * chipsPerCube := by
  rw [IsValid, hclass] at h
  obtain ⟨⟨a, ha⟩, ⟨b, hb⟩, ⟨c, hc⟩⟩ := h.multiple
  have hpositive := h.positive
  rw [ha, hb, hc] at hpositive
  refine ⟨a * b * c, ?_, ?_⟩
  · have ha : 0 < a := Nat.pos_of_mul_pos_left hpositive.1
    have hb : 0 < b := Nat.pos_of_mul_pos_left hpositive.2.1
    have hc : 0 < c := Nat.pos_of_mul_pos_left hpositive.2.2
    exact Nat.mul_pos (Nat.mul_pos ha hb) hc
  · rw [chips, ha, hb, hc, cubeEdge, chipsPerCube]
    ring

/-- The chips of a shape are the chips of its units. -/
theorem cubes_mul_unitChips (h : topology.IsValid) :
    topology.cubes * topology.unitChips = topology.chips := by
  unfold cubes unitChips
  cases hclass : topology.sizeClass with
  | subslice => exact Nat.one_mul _
  | superslice =>
    obtain ⟨cubes, -, hchips⟩ := chips_superslice hclass h
    exact Nat.div_mul_cancel ⟨cubes, by rw [hchips, Nat.mul_comm]⟩

theorem cubes_pos (h : topology.IsValid) : 0 < topology.cubes := by
  unfold cubes
  cases hclass : topology.sizeClass with
  | subslice => exact Nat.one_pos
  | superslice =>
    obtain ⟨cubes, hpositive, hchips⟩ := chips_superslice hclass h
    dsimp only
    rw [hchips, Nat.mul_div_cancel _ (by decide)]
    exact hpositive

theorem chips_pos (h : topology.IsValid) : 0 < topology.chips := by
  cases hclass : topology.sizeClass with
  | subslice =>
    rw [IsValid, hclass] at h
    have hparts : ∀ dims ∈ subsliceShapes, 0 < dims.x * dims.y * dims.z := by decide
    exact hparts _ h
  | superslice =>
    obtain ⟨cubes, hpositive, hchips⟩ := chips_superslice hclass h
    rw [hchips]
    exact Nat.mul_pos hpositive (by decide)

theorem dims_le (h : topology.IsValid) :
    topology.dims.x ≤ 16 ∧ topology.dims.y ≤ 24 ∧ topology.dims.z ≤ 24 := by
  unfold IsValid at h
  cases hclass : topology.sizeClass with
  | subslice =>
    rw [hclass] at h
    have hparts : ∀ dims ∈ subsliceShapes, dims.x ≤ 16 ∧ dims.y ≤ 24 ∧ dims.z ≤ 24 := by decide
    exact hparts _ h
  | superslice =>
    rw [hclass] at h
    exact h.bounded

/-- Sixteen by twenty-four by twenty-four chips are the most that a shape has. -/
theorem chips_le (h : topology.IsValid) : topology.chips ≤ 9216 := by
  obtain ⟨hx, hy, hz⟩ := dims_le h
  calc topology.chips
      = topology.dims.x * topology.dims.y * topology.dims.z := rfl
    _ ≤ 16 * 24 * 24 := Nat.mul_le_mul (Nat.mul_le_mul hx hy) hz
    _ = 9216 := by norm_num

/-- The numbers that are computed from a shape have 32 bits, and there are units to divide by. -/
structure FitsWords (topology : Topology) : Prop where
  units : 0 < topology.cubes
  layer : topology.dims.x * topology.dims.y ≤ Numeral.max32
  chips : topology.chips ≤ Numeral.max32

theorem IsValid.fitsWords (h : topology.IsValid) : topology.FitsWords where
  units := cubes_pos h
  layer := by
    obtain ⟨hx, hy, -⟩ := dims_le h
    exact (Nat.mul_le_mul hx hy).trans (by decide)
  chips := (chips_le h).trans (by decide)

end Topology

end SliceControl
