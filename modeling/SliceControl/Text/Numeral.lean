/-!
# Decimal numerals

Natural numbers are written in base ten without leading zeros and read back from any non-empty run
of ASCII digits. A bounded reader refuses what does not fit its limit.
-/

namespace SliceControl.Text.Numeral

/-- The largest 16-bit number. -/
abbrev max16 : Nat := 65535

/-- The largest 32-bit number. -/
abbrev max32 : Nat := 4294967295

/-- The largest 64-bit number. -/
abbrev max64 : Nat := 18446744073709551615

/-- A non-empty run of ASCII digits. -/
def isRun (characters : List Char) : Bool := !characters.isEmpty && characters.all Char.isDigit

/-- The number that a run of digits stands for. -/
def value (digits : List Char) : Nat := Nat.ofDigitChars 10 digits 0

/-- Reads a run of digits, leading zeros allowed. -/
def read? (characters : List Char) : Option Nat :=
  if isRun characters then some (value characters) else none

/-- Reads a run of digits, after an optional plus sign, whose value is at most `limit`. -/
def readBounded? (limit : Nat) (characters : List Char) : Option Nat :=
  let digits := match characters with
    | '+' :: rest => rest
    | _ => characters
  (read? digits).filter (· ≤ limit)

/-- The digits of a number, most significant first. -/
def digits (number : Nat) : List Char := Nat.toDigits 10 number

theorem isDigit_of_mem_digits {number : Nat} {character : Char}
    (member : character ∈ digits number) : character.isDigit = true :=
  Nat.isDigit_of_mem_toDigits (by decide) (by decide) member

theorem isRun_digits (number : Nat) : isRun (digits number) = true := by
  have nonempty : digits number ≠ [] := by
    intro none
    have read := Nat.ofDigitChars_toDigits (b := 10) (n := number) (by decide) (by decide)
    have shape : Nat.toDigits 10 number = [] := none
    rw [shape] at read
    have zero : number = 0 := by simpa [Nat.ofDigitChars] using read.symm
    subst zero
    revert shape
    decide
  have allDigits : (digits number).all Char.isDigit = true :=
    List.all_eq_true.mpr fun _ => isDigit_of_mem_digits
  cases h : digits number with
  | nil => exact absurd h nonempty
  | cons head rest => simpa [isRun, h] using allDigits

theorem value_digits (number : Nat) : value (digits number) = number :=
  Nat.ofDigitChars_toDigits (by decide) (by decide)

/-- A number is known by its digits. -/
theorem digits_inj {number other : Nat} : digits number = digits other ↔ number = other := by
  constructor
  · intro same
    rw [← value_digits number, same, value_digits]
  · intro same
    rw [same]

theorem read?_eq_some_iff {number : Nat} {characters : List Char} :
    read? characters = some number ↔ isRun characters = true ∧ value characters = number := by
  unfold read?
  split <;> simp [*]

theorem readBounded?_plus (limit : Nat) (characters : List Char) :
    readBounded? limit ('+' :: characters) = (read? characters).filter (· ≤ limit) := rfl

/-- A run of digits has no sign. -/
theorem readBounded?_of_isRun {characters : List Char} (run : isRun characters = true)
    (limit : Nat) : readBounded? limit characters = (read? characters).filter (· ≤ limit) := by
  unfold readBounded?
  split
  · exact absurd run (by simp [isRun])
  · rfl

/-- A bounded reader reads a run of digits, with or without a plus sign, that fits its limit. -/
theorem readBounded?_eq_some_iff {limit number : Nat} {characters : List Char} :
    readBounded? limit characters = some number ↔
      ∃ digits, (characters = digits ∨ characters = '+' :: digits) ∧ isRun digits = true ∧
        value digits = number ∧ number ≤ limit := by
  have filtered (digits : List Char) : (read? digits).filter (· ≤ limit) = some number ↔
      isRun digits = true ∧ value digits = number ∧ number ≤ limit := by
    rw [Option.filter_eq_some_iff, read?_eq_some_iff, decide_eq_true_eq, and_assoc]
  constructor
  · intro h
    unfold readBounded? at h
    split at h
    · rename_i rest
      exact ⟨rest, .inr rfl, (filtered rest).mp h⟩
    · exact ⟨characters, .inl rfl, (filtered characters).mp h⟩
  · intro h
    obtain ⟨digits, shape, run, fits⟩ := h
    rcases shape with rfl | rfl
    · rw [readBounded?_of_isRun run]
      exact (filtered characters).mpr ⟨run, fits⟩
    · rw [readBounded?_plus]
      exact (filtered digits).mpr ⟨run, fits⟩

end SliceControl.Text.Numeral
