import Mathlib.Data.List.TakeWhile
import Mathlib.Tactic.SplitIfs
import SliceControl.Proofs.Time.Calendar
import SliceControl.Time.Stamp

/-!
# Timestamps read back

A timestamp is written part by part with a fixed number of digits, so each part is read back from
where the one before it ends. What is written for an instant of the years 0 to 9999 reads back as
this instant, in UTC and to the nanosecond, leap seconds included.
-/

namespace SliceControl.Time

open Text

/-! ## Numbers of a fixed width -/

theorem isBlank_of_isDigit {character : Char} (h : character.isDigit = true) :
    isBlank character = false := by
  simp only [Char.isDigit, Bool.and_eq_true, decide_eq_true_eq, UInt32.le_iff_toNat_le] at h
  have hrange : 48 ≤ character.toNat ∧ character.toNat ≤ 57 := h
  unfold isBlank
  grind

/-- Padding adds zeros, which are digits and do not count. -/
theorem padded_run (width number : Nat) :
    (∀ character ∈ padded width number, character.isDigit = true) ∧
      Numeral.value (padded width number) = number := by
  unfold padded
  constructor
  · intro character hmem
    rcases List.mem_append.mp hmem with hzero | hdigit
    · rw [List.eq_of_mem_replicate hzero]
      rfl
    · exact Numeral.isDigit_of_mem_digits hdigit
  · unfold Numeral.value
    rw [Nat.ofDigitChars_append, Nat.ofDigitChars_replicate_zero, Nat.mul_zero]
    exact Numeral.value_digits number

theorem length_padded {width number : Nat} (hwidth : 0 < width) (h : number < 10 ^ width) :
    (padded width number).length = width := by
  have hdigits : (Numeral.digits number).length ≤ width :=
    (Nat.length_toDigits_le_iff (by decide) hwidth).mpr h
  unfold padded
  rw [List.length_append, List.length_replicate]
  omega

/-- A number that is written with leading zeros begins with a digit. -/
theorem exists_padded_eq_cons {width number : Nat} (hwidth : 0 < width)
    (h : number < 10 ^ width) :
    ∃ first rest, padded width number = first :: rest ∧ first.isDigit = true := by
  cases hpadded : padded width number with
  | nil =>
    have hlength := length_padded hwidth h
    rw [hpadded, List.length_nil] at hlength
    omega
  | cons first rest =>
    refine ⟨first, rest, rfl, (padded_run width number).1 first ?_⟩
    rw [hpadded]
    exact List.mem_cons_self

/-- There is no white space before a number. -/
theorem trimFront_padded {width number : Nat} (hwidth : 0 < width) (h : number < 10 ^ width)
    (rest : List Char) : trimFront (padded width number ++ rest) = padded width number ++ rest := by
  obtain ⟨first, others, hpadded, hdigit⟩ := exists_padded_eq_cons hwidth h
  rw [hpadded, List.cons_append, trimFront, List.dropWhile_cons_of_neg]
  simp [isBlank_of_isDigit hdigit]

/-- A run of digits is taken as far as it goes. -/
theorem takeWhile_take_padded {width number : Nat} (hwidth : 0 < width) (h : number < 10 ^ width)
    (rest : List Char) :
    ((padded width number ++ rest).take width).takeWhile Char.isDigit = padded width number := by
  rw [List.take_append_of_le_length (Nat.le_of_eq (length_padded hwidth h).symm),
    List.take_of_length_le (Nat.le_of_eq (length_padded hwidth h))]
  exact List.takeWhile_eq_self_iff.mpr (padded_run width number).1

theorem scanNumber?_padded {width number : Nat} (hwidth : 0 < width) (h : number < 10 ^ width)
    (rest : List Char) :
    scanNumber? width (padded width number ++ rest) = some (number, rest) := by
  have hnonempty : (padded width number).isEmpty = false := by
    obtain ⟨first, others, hpadded, -⟩ := exists_padded_eq_cons hwidth h
    rw [hpadded]
    rfl
  unfold scanNumber?
  rw [trimFront_padded hwidth h]
  dsimp only
  rw [takeWhile_take_padded hwidth h, hnonempty, (padded_run width number).2, List.drop_left]
  rfl

theorem scanChar?_cons {character : Char} (h : isBlank character = false) (rest : List Char) :
    scanChar? character (character :: rest) = some rest := by
  unfold scanChar? trimFront
  rw [List.dropWhile_cons_of_neg (by simp [h])]
  exact if_pos rfl

/-! ## Dates -/

theorem scanYear?_padded {year : Nat} (h : year < 10000) (rest : List Char) :
    scanYear? (padded 4 year ++ rest) = some ((year : Int), rest) := by
  obtain ⟨first, others, hpadded, hdigit⟩ := exists_padded_eq_cons (by decide : 0 < 4) h
  have hminus : first ≠ '-' := by
    rintro rfl
    cases hdigit
  have hplus : first ≠ '+' := by
    rintro rfl
    cases hdigit
  unfold scanYear?
  rw [trimFront_padded (by decide) h]
  split
  · next heq => simp [hpadded, hminus] at heq
  · next heq => simp [hpadded, hplus] at heq
  · rw [scanNumber?_padded (by decide) h]
    rfl

/-- The parts of a date that exists have two digits. -/
theorem parts_lt_of_isValid {date : Date} (hvalid : date.isValid = true) :
    date.month < 10 ^ 2 ∧ date.day < 10 ^ 2 := by
  have hdays : Date.daysInMonth date.year date.month ≤ 31 := by
    unfold Date.daysInMonth
    split_ifs <;> decide
  simp only [Date.isValid, Bool.and_eq_true, decide_eq_true_eq] at hvalid
  omega

/-- A date of the years 0 to 9999 reads back. -/
theorem scanDate?_writeDate {date : Date} (hvalid : date.isValid = true)
    (hfirst : 0 ≤ date.year) (hlast : date.year ≤ 9999) (rest : List Char) :
    scanDate? (writeDate date ++ rest) = some (date, rest) := by
  obtain ⟨hmonth, hday⟩ := parts_lt_of_isValid hvalid
  have hyear : writeYear date.year = padded 4 date.year.toNat := if_pos ⟨hfirst, hlast⟩
  have hdate : Date.mk date.year.toNat date.month date.day = date := by
    rw [Int.toNat_of_nonneg hfirst]
  unfold scanDate? writeDate
  simp only [hyear, List.append_assoc, List.cons_append]
  rw [scanYear?_padded (by omega), Option.bind_eq_bind, Option.bind_some]
  simp only [scanChar?_cons (by decide : isBlank '-' = false),
    scanNumber?_padded (by decide) hmonth, scanNumber?_padded (by decide) hday,
    Option.bind_eq_bind, Option.bind_some, hdate, hvalid]
  rw [if_pos]
  simp only [Bool.true_and, Bool.and_eq_true, decide_eq_true_eq]
  omega

/-! ## Times of day -/

/-- A fraction that is exact in `width` digits, the others being zeros. -/
theorem scanFraction?_padded {width number : Nat} (hpositive : 0 < width) (hwidth : width ≤ 9)
    (h : number < 10 ^ width) {first : Char} (hfirst : first.isDigit = false) (rest : List Char) :
    scanFraction? ('.' :: padded width number ++ first :: rest) =
      some (number * 10 ^ (9 - width), first :: rest) := by
  have hlength := length_padded hpositive h
  have hdigits : ((padded width number ++ first :: rest).take 9).takeWhile Char.isDigit =
      padded width number := by
    rw [List.take_append, List.take_of_length_le (by omega),
      List.takeWhile_append_of_pos (padded_run width number).1]
    cases 9 - (padded width number).length with
    | zero => simp
    | succ => simp [hfirst]
  have hnonempty : (padded width number).isEmpty = false := by
    obtain ⟨digit, others, hpadded, -⟩ := exists_padded_eq_cons hpositive h
    rw [hpadded]
    rfl
  rw [List.cons_append, scanFraction?, hdigits, hnonempty, (padded_run width number).2,
    List.drop_left, List.dropWhile_cons_of_neg (by simp [hfirst]), hlength]
  rfl

/-- The digits that are left out of a fraction are zeros. -/
theorem scanFraction?_writeFraction {nanos : Nat} (h : nanos < 1000000000) {first : Char}
    (hfirst : first.isDigit = false) (hpoint : first ≠ '.') (rest : List Char) :
    scanFraction? (writeFraction nanos ++ first :: rest) = some (nanos, first :: rest) := by
  unfold writeFraction
  split_ifs with hzero hmillis hmicros
  · rw [List.nil_append, hzero]
    unfold scanFraction?
    split
    · next heq => exact absurd (List.cons.inj heq).1 hpoint
    · rfl
  · have hexact : nanos / 1000000 * 10 ^ (9 - 3) = nanos :=
      Nat.div_mul_cancel (Nat.dvd_of_mod_eq_zero hmillis)
    rw [scanFraction?_padded (by decide) (by decide) (by omega) hfirst, hexact]
  · have hexact : nanos / 1000 * 10 ^ (9 - 6) = nanos :=
      Nat.div_mul_cancel (Nat.dvd_of_mod_eq_zero hmicros)
    rw [scanFraction?_padded (by decide) (by decide) (by omega) hfirst, hexact]
  · have hexact : nanos * 10 ^ (9 - 9) = nanos := Nat.mul_one nanos
    rw [scanFraction?_padded (by decide) (by decide) h hfirst, hexact]

/-- A leap second is written as the sixty-first second of its minute and read as what it was. -/
theorem scanTimeOfDay?_writeTimeOfDay {seconds nanos : Nat} (hseconds : seconds < 86400)
    (hnanos : nanos < 2000000000) (hleap : 1000000000 ≤ nanos → seconds % 60 = 59) {first : Char}
    (hfirst : first.isDigit = false) (hpoint : first ≠ '.') (rest : List Char) :
    scanTimeOfDay? (writeTimeOfDay seconds nanos ++ first :: rest) =
      some ((seconds, nanos), first :: rest) := by
  have hhour : seconds / 3600 < 10 ^ 2 := by omega
  have hminute : seconds / 60 % 60 < 10 ^ 2 := by omega
  have hsecond : seconds % 60 + nanos / 1000000000 < 10 ^ 2 := by omega
  unfold scanTimeOfDay? writeTimeOfDay
  simp only [List.append_assoc, List.cons_append]
  simp only [scanNumber?_padded (by decide) hhour, scanChar?_cons (by decide : isBlank ':' = false),
    scanNumber?_padded (by decide) hminute, scanNumber?_padded (by decide) hsecond,
    scanFraction?_writeFraction (Nat.mod_lt nanos (by decide)) hfirst hpoint,
    Option.bind_eq_bind, Option.bind_some]
  have hlast : (seconds % 60 + nanos / 1000000000) / 60 = nanos / 1000000000 := by omega
  rw [if_pos]
  · congr 3
    · omega
    · omega
  · simp only [Bool.and_eq_true, decide_eq_true_eq]
    omega

/-! ## Timestamps -/

/-- An instant of the years 0 to 9999 in UTC reads back. -/
theorem readStamp?_writeStamp {instant : Instant}
    (hfirst : 0 ≤ (Date.ofDays (instant.seconds / daySeconds)).year)
    (hlast : (Date.ofDays (instant.seconds / daySeconds)).year ≤ 9999) :
    readStamp? (writeStamp instant) = some instant := by
  have hminute := instant.minute_ends
  have hday : (instant.seconds % daySeconds).toNat < 86400 := by
    unfold daySeconds
    omega
  have hleap : 1000000000 ≤ instant.nanos → (instant.seconds % daySeconds).toNat % 60 = 59 := by
    unfold daySeconds
    omega
  have hseconds : instant.seconds / daySeconds * daySeconds +
      (instant.seconds % daySeconds).toNat - 0 = instant.seconds := by
    unfold daySeconds
    omega
  unfold readStamp? writeStamp writeParts
  simp only [String.toList_ofList, List.append_assoc, List.cons_append]
  rw [scanDate?_writeDate (Date.isValid_ofDays _) hfirst hlast]
  simp only [Option.bind_eq_bind, Option.bind_some, decide_true, Bool.true_or, if_true,
    scanTimeOfDay?_writeTimeOfDay hday instant.nanos_lt hleap (by decide : 'Z'.isDigit = false)
      (by decide)]
  have hoffset : scanOffset? (trimFront ['Z']) = some (0, []) := by
    decide
  rw [hoffset, Option.bind_some, Date.toDays_ofDays]
  simp only [hseconds, List.all_nil, if_true, Instant.ofParts?]
  exact dif_pos ⟨instant.nanos_lt, hminute⟩

end SliceControl.Time
