import Mathlib.Tactic.SplitIfs
import SliceControl.Time

/-!
# Measuring time

Outside of leap seconds a moment is a number of nanoseconds, and time is measured by subtracting
such numbers: a limit is exceeded strictly after the moment at which it ends. What is left of a
limit after the time that has passed leads no further than that moment either, whether now falls
into a leap second or not.

This is not so for time that began in a leap second. It is counted until midnight, and again from
that time of day on.
-/

namespace SliceControl.Instant

variable {left middle right since now : Instant} {duration limit : Duration}

/-! ## The order of instants -/

theorem le_refl (instant : Instant) : instant ≤ instant := by
  rw [le_iff]
  omega

theorem le_trans (hfirst : left ≤ middle) (hlast : middle ≤ right) : left ≤ right := by
  rw [le_iff] at *
  omega

theorem le_of_before (h : left.before right = true) : left ≤ right := by
  rw [before_iff] at h
  rw [le_iff]
  omega

theorem ext_parts (hseconds : left.seconds = right.seconds) (hnanos : left.nanos = right.nanos) :
    left = right := by
  obtain ⟨seconds, nanos, _, _⟩ := left
  cases hseconds
  cases hnanos
  rfl

theorem before_iff_le_and_ne : left.before right = true ↔ left ≤ right ∧ left ≠ right := by
  rw [before_iff, le_iff]
  constructor
  · intro h
    refine ⟨by omega, ?_⟩
    rintro rfl
    omega
  · rintro ⟨hle, hne⟩
    have hparts : ¬(left.seconds = right.seconds ∧ left.nanos = right.nanos) :=
      fun h ↦ hne (ext_parts h.1 h.2)
    omega

/-! ## Nanoseconds -/

/-- The nanoseconds from the first moment of 1970, where a leap second is taken for the second
before it. -/
def toNanos (instant : Instant) : Int :=
  instant.seconds * 1000000000 + (instant.nanos % 1000000000 : Nat)

theorem toNanos_ofNanos (nanos : Int) : (ofNanos nanos).toNanos = nanos := by
  simp only [toNanos, ofNanos]
  omega

theorem isLeap_ofNanos (nanos : Int) : (ofNanos nanos).isLeap = false := by
  rw [isLeap_eq_false_iff]
  simp only [ofNanos]
  omega

theorem before_iff_toNanos (hleft : left.isLeap = false) (hright : right.isLeap = false) :
    left.before right = true ↔ left.toNanos < right.toNanos := by
  rw [isLeap_eq_false_iff] at hleft hright
  rw [before_iff]
  simp only [toNanos]
  omega

theorem le_iff_toNanos (hleft : left.isLeap = false) (hright : right.isLeap = false) :
    left ≤ right ↔ left.toNanos ≤ right.toNanos := by
  rw [← before_eq_false_iff, ← Bool.not_eq_true, before_iff_toNanos hright hleft, Int.not_lt]

/-! ## Later moments -/

/-- Outside of leap seconds, and where a leap second is left, time is added in nanoseconds. -/
theorem after_eq_ofNanos (h : now.isLeap = false ∨ 1000000000 ≤ duration.nanos) :
    now.after duration = ofNanos (now.toNanos + duration.nanos) := by
  rw [isLeap_eq_false_iff] at h
  unfold after
  rw [dif_neg (by omega)]
  rfl

theorem isLeap_after (h : since.isLeap = false) : (since.after limit).isLeap = false := by
  rw [after_eq_ofNanos (.inl h), isLeap_ofNanos]

theorem toNanos_after (h : since.isLeap = false) :
    (since.after limit).toNanos = since.toNanos + limit.nanos := by
  rw [after_eq_ofNanos (.inl h), toNanos_ofNanos]

/-! ## Time that has passed -/

@[simp] theorem difference_self (now : Instant) : now.difference now = 0 := by
  simp [difference]

/-- Time that did not begin in a leap second is no longer than the nanoseconds say, unless it ends
in a leap second. -/
theorem toNanos_sub_le_difference (hsince : since.isLeap = false) (now : Instant) :
    now.toNanos - since.toNanos ≤ since.difference now := by
  have hordinary := isLeap_eq_false_iff.mp hsince
  have hbound := now.nanos_lt
  simp only [difference, toNanos, isLeap, Bool.and_eq_true, decide_eq_true_eq]
  split_ifs <;> omega

theorem difference_eq_toNanos_sub (hsince : since.isLeap = false) (hnow : now.isLeap = false) :
    since.difference now = now.toNanos - since.toNanos := by
  simp only [difference, hsince, hnow, Bool.and_false, Bool.false_eq_true, if_false, toNanos]
  rw [isLeap_eq_false_iff] at hsince hnow
  omega

/-- A limit is exceeded strictly after the moment at which it ends. -/
theorem elapsedBeyond_iff (hsince : since.isLeap = false) (hnow : now.isLeap = false) :
    since.elapsedBeyond now limit = true ↔ (since.after limit).before now = true := by
  rw [elapsedBeyond, decide_eq_true_eq, before_iff_toNanos (isLeap_after hsince) hnow,
    toNanos_after hsince, difference_eq_toNanos_sub hsince hnow]
  omega

/-- What is left of a limit, or a second if less is left, ends no later than the limit or than a
second from now. -/
theorem after_remaining_le (hsince : since.isLeap = false) (now : Instant)
    (hsecond : (Duration.ofSeconds 1).nanos ≤ duration.nanos)
    (hshort : duration.nanos ≤
      ((limit.remaining (since.elapsed now)).greatest (.ofSeconds 1)).nanos) :
    now.after duration ≤ since.after limit ∨ now.after duration ≤ now.after (.ofSeconds 1) := by
  have hone : (Duration.ofSeconds 1).nanos = 1000000000 := rfl
  have hpassed := toNanos_sub_le_difference hsince now
  rw [after_eq_ofNanos (.inr (hone ▸ hsecond)), after_eq_ofNanos (.inl hsince),
    after_eq_ofNanos (.inr (Nat.le_of_eq hone.symm)),
    le_iff_toNanos (isLeap_ofNanos _) (isLeap_ofNanos _),
    le_iff_toNanos (isLeap_ofNanos _) (isLeap_ofNanos _)]
  simp only [toNanos_ofNanos, Duration.remaining, Duration.greatest, elapsed, hone] at hshort ⊢
  omega

end SliceControl.Instant
