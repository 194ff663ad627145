import Mathlib.Data.Nat.Dist
import Mathlib.Tactic.Ring
import SliceControl.Double

/-!
# Rounding to binary64

No number lies nearer to a quotient than the one that it is rounded to, and a quotient that is a
number is rounded to itself. The shortest decimal of a number therefore reads back: at the latest
with all its digits, which stand for the number exactly.
-/

namespace SliceControl.Double

/-! ## Whole numbers -/

/-- Rounding a quotient moves it by half the denominator at most. -/
theorem nearest_bounds (numerator : Nat) {denominator : Nat} (hpos : 0 < denominator) :
    2 * (nearest numerator denominator * denominator) ≤ 2 * numerator + denominator ∧
      2 * numerator ≤ 2 * (nearest numerator denominator * denominator) + denominator := by
  have hdivision : numerator / denominator * denominator + numerator % denominator = numerator :=
    Nat.div_add_mod' numerator denominator
  have hrest : numerator % denominator < denominator := Nat.mod_lt numerator hpos
  simp only [nearest]
  split
  · rw [Nat.add_mul, Nat.one_mul]
    omega
  · omega

/-- A whole quotient needs no rounding. -/
theorem nearest_mul {denominator : Nat} (hpos : 0 < denominator) (number : Nat) :
    nearest (number * denominator) denominator = number := by
  simp [nearest, Nat.mul_div_cancel _ hpos, hpos.ne']

/-- No whole number lies nearer to a quotient than the one that it is rounded to. -/
theorem dist_nearest_le (numerator : Nat) {denominator : Nat} (hpos : 0 < denominator)
    (other : Nat) :
    Nat.dist (nearest numerator denominator * denominator) numerator ≤
      Nat.dist (other * denominator) numerator := by
  obtain ⟨habove, hbelow⟩ := nearest_bounds numerator hpos
  rcases Nat.lt_trichotomy other (nearest numerator denominator) with hless | rfl | hmore
  · have hstep := Nat.mul_le_mul_right denominator hless
    rw [Nat.succ_mul] at hstep
    unfold Nat.dist
    omega
  · exact Nat.le_refl _
  · have hstep := Nat.mul_le_mul_right denominator hmore
    rw [Nat.succ_mul] at hstep
    unfold Nat.dist
    omega

/-! ## Rounding -/

theorem units_eq (value : Double) : value.units = value.significand * 2 ^ value.scale := rfl

theorem units_of_ofScaled? {negative : Bool} {significand scale : Nat} {value : Double}
    (h : ofScaled? negative significand scale = some value) :
    value.units = significand * 2 ^ scale := by
  unfold ofScaled? at h
  split at h
  · cases h
    rfl
  · split at h
    · rename_i hcarry
      cases h
      calc
        2 ^ 52 * 2 ^ (scale + 1) = 2 ^ 53 * 2 ^ scale := by rw [Nat.pow_succ]; ring
        _ = significand * 2 ^ scale := by rw [hcarry.1, Nat.pow_eq]
    · cases h

/-- A number at a lesser scale has at most as many units as the least one of 53 bits at this
scale. -/
theorem units_le_of_scale_lt {value : Double} {scale : Nat} (h : value.scale < scale) :
    value.units ≤ 2 ^ 52 * 2 ^ scale := by
  calc
    value.units ≤ 2 ^ 53 * 2 ^ value.scale := Nat.mul_le_mul_right _ (Nat.le_of_lt value.fits)
    _ = 2 ^ 52 * 2 ^ (value.scale + 1) := by rw [Nat.pow_succ]; ring
    _ ≤ 2 ^ 52 * 2 ^ scale := Nat.mul_le_mul_left _ (Nat.pow_le_pow_right (by decide) h)

/-- At a greater scale, the units are a multiple of this scale. -/
theorem exists_units_of_le_scale {value : Double} {scale : Nat} (h : scale ≤ value.scale) :
    ∃ multiple, value.units = multiple * 2 ^ scale := by
  obtain ⟨more, hmore⟩ := Nat.exists_eq_add_of_le h
  refine ⟨value.significand * 2 ^ more, ?_⟩
  rw [units_eq, hmore, Nat.pow_add]
  ring

/-- No number lies nearer to a quotient than the one that it is rounded to. -/
theorem dist_le_of_ofQuotient? {negative : Bool} {numerator denominator : Nat} {value : Double}
    (hpos : 0 < denominator) (h : ofQuotient? negative numerator denominator = some value)
    (other : Double) :
    Nat.dist (value.units * denominator) numerator ≤
      Nat.dist (other.units * denominator) numerator := by
  simp only [ofQuotient?, Nat.pow_eq] at h
  generalize hscale : (numerator / denominator).log2 - 52 = scale at h
  have hvalue : value.units * denominator =
      nearest numerator (denominator * 2 ^ scale) * (denominator * 2 ^ scale) := by
    rw [units_of_ofScaled? h]
    ring
  have hgrid (multiple : Nat) : Nat.dist (value.units * denominator) numerator ≤
      Nat.dist (multiple * 2 ^ scale * denominator) numerator := by
    rw [hvalue, Nat.mul_assoc, Nat.mul_comm (2 ^ scale)]
    exact dist_nearest_le numerator (Nat.mul_pos hpos (Nat.two_pow_pos _)) multiple
  rcases Nat.lt_or_ge other.scale scale with hless | hge
  · -- The other number lies below the least one of 53 bits, and the quotient does not.
    have hquotient : 2 ^ (52 + scale) ≤ numerator / denominator := by
      refine (Nat.le_log2 fun hzero ↦ ?_).mp (by omega)
      rw [hzero, Nat.log2_zero] at hscale
      omega
    have hleast : 2 ^ 52 * 2 ^ scale * denominator ≤ numerator := by
      rw [← Nat.pow_add]
      exact Nat.mul_le_of_le_div _ _ _ hquotient
    have hother := Nat.mul_le_mul_right denominator (units_le_of_scale_lt hless)
    refine (hgrid (2 ^ 52)).trans ?_
    unfold Nat.dist
    omega
  · obtain ⟨multiple, hmultiple⟩ := exists_units_of_le_scale hge
    rw [hmultiple]
    exact hgrid multiple

/-- The scale of a number can be read off its units. -/
theorem log2_units (value : Double) : value.units.log2 - 52 = value.scale := by
  have hupper : value.units < 2 ^ (53 + value.scale) := by
    rw [Nat.pow_add]
    exact Nat.mul_lt_mul_of_pos_right value.fits (Nat.two_pow_pos _)
  rcases value.normal with hzero | hnormal
  · rw [hzero] at hupper ⊢
    by_cases hunits : value.units = 0
    · rw [hunits, Nat.log2_zero]
    · have := (Nat.log2_lt hunits).mpr hupper
      omega
  · have hlower : 2 ^ (52 + value.scale) ≤ value.units := by
      rw [Nat.pow_add]
      exact Nat.mul_le_mul_right _ hnormal
    have hunits : value.units ≠ 0 := by
      have := Nat.two_pow_pos (52 + value.scale)
      omega
    have := (Nat.log2_lt hunits).mpr hupper
    have := (Nat.le_log2 hunits).mpr hlower
    omega

/-- What is a number already is rounded to itself. -/
theorem ofQuotient?_units (value : Double) {denominator : Nat} (hpos : 0 < denominator) :
    ofQuotient? value.negative (value.units * denominator) denominator = some value := by
  have hgrid : 0 < denominator * 2 ^ value.scale := Nat.mul_pos hpos (Nat.two_pow_pos _)
  have hunits :
      value.units * denominator = value.significand * (denominator * 2 ^ value.scale) := by
    rw [units_eq]
    ring
  simp only [ofQuotient?, Nat.pow_eq]
  rw [Nat.mul_div_cancel _ hpos, log2_units, hunits, nearest_mul hgrid]
  exact dif_pos ⟨value.fits, value.normal, value.bounded⟩

/-! ## Decimals -/

/-- All its digits stand for a number exactly. -/
theorem ofDecimal?_exact (value : Double) : ofDecimal? value.negative value.exact = some value := by
  have hten : value.units * 5 ^ places * one = value.units * 10 ^ places := by
    delta one
    rw [Nat.pow_eq, Nat.mul_assoc, ← Nat.mul_pow]
  simp [ofDecimal?, exact, hten, ofQuotient?_units value (Nat.pow_pos (by decide : 0 < 10))]

/-- The shortest decimal of a number reads back. -/
theorem ofDecimal?_shortest (value : Double) :
    ofDecimal? value.negative value.shortest = some value := by
  have hshorten (dropped : Nat) :
      ofDecimal? value.negative (value.shorten dropped) = some value := by
    induction dropped with
    | zero => exact ofDecimal?_exact value
    | succ dropped ih =>
      rw [shorten]
      cases hfound : (value.neighbours (dropped + 1)).find? value.readsBack with
      | none => exact ih
      | some decimal =>
        have hreads : value.readsBack decimal = true := List.find?_some hfound
        exact of_decide_eq_true hreads
  exact hshorten _

/-- A number is known by its sign and its shortest decimal. -/
theorem eq_of_shortest_eq {value other : Double} (hsign : value.negative = other.negative)
    (h : value.shortest = other.shortest) : value = other := by
  have hvalue := ofDecimal?_shortest value
  rw [hsign, h, ofDecimal?_shortest other] at hvalue
  exact (Option.some.inj hvalue).symm

end SliceControl.Double
