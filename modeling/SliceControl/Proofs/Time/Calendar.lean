import Mathlib.Tactic.IntervalCases
import SliceControl.Time.Calendar

/-!
# Days and dates

The date of a day is found without a search: a quotient that grows with the day gives the year, and
another one the month. The first quotient is right because it never falls and is right on the first
and the last day of every year.

So every day has a date that exists, and counting the days up to this date gives the day again.
-/

namespace SliceControl.Time.Date

/-! ## Years of an era -/

/-- Days in an era of 400 years. -/
def eraDays : Nat := 146097

/-- The year of its era that a day of the era belongs to. -/
def yearOfEra (day : Nat) : Nat := (day - day / 1460 + day / 36524 - day / 146096) / 365

theorem daysBeforeYear_add (year : Nat) :
    daysBeforeYear year + year / 100 = 365 * year + year / 4 := by
  unfold daysBeforeYear
  omega

theorem yearOfEra_lt {day : Nat} (h : day < eraDays) : yearOfEra day < 400 := by
  unfold eraDays at h
  unfold yearOfEra
  omega

theorem yearOfEra_mono {first second : Nat} (h : first ≤ second) (hsecond : second < eraDays) :
    yearOfEra first ≤ yearOfEra second := by
  unfold eraDays at hsecond
  induction second, h using Nat.le_induction with
  | base => exact Nat.le_refl _
  | succ day hday ih =>
    refine Nat.le_trans (ih (by omega)) ?_
    unfold yearOfEra
    apply Nat.div_le_div_right
    omega

/-- The first and the last day of a year belong to it. The last year of the era has one day more. -/
theorem yearOfEra_ends : ∀ year < 400, yearOfEra (daysBeforeYear year) = year ∧
    yearOfEra (daysBeforeYear (year + 1) - 1) = year ∧ daysBeforeYear (year + 1) < eraDays := by
  decide +kernel

/-- Every day of an era lies in its year, the last day of the era beside all others. -/
theorem yearOfEra_bounds {day : Nat} (h : day < eraDays) :
    daysBeforeYear (yearOfEra day) ≤ day ∧
      (day < daysBeforeYear (yearOfEra day + 1) ∨ yearOfEra day = 399) := by
  have hyear : yearOfEra day < 400 := yearOfEra_lt h
  constructor
  · by_contra hbefore
    obtain ⟨previous, hprevious⟩ : ∃ previous, yearOfEra day = previous + 1 := by
      apply Nat.exists_eq_succ_of_ne_zero
      intro hzero
      rw [hzero] at hbefore
      exact hbefore (Nat.zero_le day)
    rw [hprevious] at hbefore hyear
    obtain ⟨-, hlast, hend⟩ := yearOfEra_ends previous (by omega)
    have hle : yearOfEra day ≤ yearOfEra (daysBeforeYear (previous + 1) - 1) :=
      yearOfEra_mono (by omega) (by omega)
    omega
  · by_contra hafter
    simp only [not_or, not_lt] at hafter
    have hfirst := (yearOfEra_ends (yearOfEra day + 1) (by omega)).1
    have hle : yearOfEra (daysBeforeYear (yearOfEra day + 1)) ≤ yearOfEra day :=
      yearOfEra_mono hafter.1 h
    omega

/-- A year has at most 366 days, and that many only if it ends with the February of a leap year. -/
theorem dayOfYear_le {day : Nat} (h : day < eraDays) (era : Int) :
    day - daysBeforeYear (yearOfEra day) ≤ 365 ∧
      (day - daysBeforeYear (yearOfEra day) = 365 →
        isLeapYear (era * 400 + yearOfEra day + 1) = true) := by
  have hyear : yearOfEra day < 400 := yearOfEra_lt h
  obtain ⟨hfirst, hlast⟩ := yearOfEra_bounds h
  unfold eraDays at h
  generalize yearOfEra day = year at *
  have hthis := daysBeforeYear_add year
  have hnext := daysBeforeYear_add (year + 1)
  generalize daysBeforeYear year = this at *
  generalize daysBeforeYear (year + 1) = next at *
  refine ⟨by omega, fun hlong ↦ ?_⟩
  have hfourth : (year + 1) % 4 = 0 := by
    by_contra hcommon
    have hsame : (year + 1) / 4 = year / 4 := by omega
    have hcenturies : year / 100 ≤ (year + 1) / 100 := by omega
    omega
  have hcentury : (year + 1) % 100 ≠ 0 ∨ year = 399 := by omega
  simp only [isLeapYear, ne_eq, Bool.and_eq_true, Bool.or_eq_true, decide_eq_true_eq]
  omega

/-! ## Months of a year -/

/-- The month that a day of the year belongs to; both are counted from the first of March. -/
def monthOfYear (day : Nat) : Nat := (5 * day + 2) / 153

theorem monthOfYear_lt {day : Nat} (h : day ≤ 365) : monthOfYear day < 12 := by
  unfold monthOfYear
  omega

theorem daysBeforeMonth_le (day : Nat) : daysBeforeMonth (monthOfYear day) ≤ day := by
  unfold daysBeforeMonth monthOfYear
  omega

/-- The number that a month has in the calendar. -/
def monthNumber (month : Nat) : Nat := if month < 10 then month + 3 else month - 9

/-- The day of a month exists in it, where the year counts from January again. -/
theorem dayOfMonth_le {day : Nat} {year : Int} (hday : day ≤ 365)
    (hleap : day = 365 → isLeapYear (year + 1) = true) :
    day - daysBeforeMonth (monthOfYear day) + 1 ≤
      daysInMonth (if monthNumber (monthOfYear day) ≤ 2 then year + 1 else year)
        (monthNumber (monthOfYear day)) := by
  have hmonth : monthOfYear day < 12 := monthOfYear_lt hday
  have hbounds :
      153 * monthOfYear day ≤ 5 * day + 2 ∧ 5 * day + 2 < 153 * monthOfYear day + 153 := by
    unfold monthOfYear
    omega
  generalize monthOfYear day = month at *
  unfold daysInMonth daysBeforeMonth monthNumber
  cases hyear : isLeapYear (year + 1) with
  | true => interval_cases month <;> simp [hyear] <;> omega
  | false =>
    have hshort : day ≠ 365 := fun hlast ↦ by simp [hleap hlast] at hyear
    interval_cases month <;> simp [hyear] <;> omega

/-! ## Dates of days -/

/-- The days from the beginning of the first era, the first of March of the year zero. -/
def shifted (days : Int) : Int := days + 719468

/-- The parts of a date, each from the quotient that gives it. -/
theorem ofDays_eq (days : Int) :
    ofDays days =
      let day := (shifted days % eraDays).toNat
      let dayOfYear := day - daysBeforeYear (yearOfEra day)
      let month := monthNumber (monthOfYear dayOfYear)
      let year := shifted days / eraDays * 400 + yearOfEra day
      ⟨if month ≤ 2 then year + 1 else year, month,
        dayOfYear - daysBeforeMonth (monthOfYear dayOfYear) + 1⟩ :=
  rfl

theorem monthNumber_bounds {month : Nat} (h : month < 12) :
    1 ≤ monthNumber month ∧ monthNumber month ≤ 12 := by
  unfold monthNumber
  split_ifs <;> omega

/-- The date of a day exists. -/
theorem isValid_ofDays (days : Int) : (ofDays days).isValid = true := by
  have hwithin : (shifted days % eraDays).toNat < eraDays := by
    unfold eraDays
    omega
  obtain ⟨hlong, hleap⟩ := dayOfYear_le hwithin (shifted days / eraDays)
  have hmonth := monthNumber_bounds (monthOfYear_lt hlong)
  have hday := dayOfMonth_le hlong hleap
  rw [ofDays_eq]
  simp [isValid, hmonth, hday]

/-- A date counts from its year, month and day as it was put together from them. -/
theorem toDays_of_parts {era : Int} {year month day : Nat} (hyear : year < 400)
    (hmonth : month < 12) :
    toDays ⟨if monthNumber month ≤ 2 then era * 400 + year + 1 else era * 400 + year,
      monthNumber month, day + 1⟩ =
        era * eraDays + (daysBeforeYear year + daysBeforeMonth month + day : Nat) - 719468 := by
  have hera : (era * 400 + year) / 400 = era := by omega
  have hwithin : ((era * 400 + year) % 400).toNat = year := by omega
  have hsame : (if monthNumber month ≤ 2
      then (if monthNumber month ≤ 2 then era * 400 + year + 1 else era * 400 + year) - 1
      else (if monthNumber month ≤ 2 then era * 400 + year + 1 else era * 400 + year)) =
        era * 400 + year := by
    split_ifs <;> omega
  have hcounted : (if monthNumber month ≤ 2 then monthNumber month + 9 else monthNumber month - 3) =
      month := by
    unfold monthNumber
    split_ifs <;> omega
  simp only [toDays, hsame, hera, hwithin, hcounted, Nat.add_sub_cancel]
  rfl

/-- Counting the days up to the date of a day gives the day. -/
theorem toDays_ofDays (days : Int) : (ofDays days).toDays = days := by
  have hwithin : (shifted days % eraDays).toNat < eraDays := by
    unfold eraDays
    omega
  have hyear : yearOfEra (shifted days % eraDays).toNat < 400 := yearOfEra_lt hwithin
  obtain ⟨hstart, -⟩ := yearOfEra_bounds hwithin
  obtain ⟨hlong, -⟩ := dayOfYear_le hwithin 0
  have hmonths := daysBeforeMonth_le ((shifted days % eraDays).toNat - daysBeforeYear
    (yearOfEra (shifted days % eraDays).toNat))
  rw [ofDays_eq]
  dsimp only
  rw [toDays_of_parts hyear (monthOfYear_lt hlong), Nat.add_assoc, Nat.add_sub_cancel' hmonths,
    Nat.add_sub_cancel' hstart]
  unfold shifted eraDays
  omega

end SliceControl.Time.Date
