/-!
# The Gregorian calendar

Dates of the proleptic Gregorian calendar are counted in days from the first of January 1970. The
count runs in eras of 400 years, each of 146097 days, and takes the first of March as the first day
of the year, so that a leap day is the last one.
-/

namespace SliceControl.Time

/-- A calendar date; month and day count from one. -/
structure Date where
  year : Int
  month : Nat
  day : Nat
  deriving DecidableEq

namespace Date

def isLeapYear (year : Int) : Bool := year % 4 = 0 && (year % 100 ≠ 0 || year % 400 = 0)

def daysInMonth (year : Int) (month : Nat) : Nat :=
  if month = 2 then (if isLeapYear year then 29 else 28)
  else if month = 4 ∨ month = 6 ∨ month = 9 ∨ month = 11 then 30
  else 31

/-- Whether a date exists. -/
def isValid (date : Date) : Bool :=
  1 ≤ date.month && date.month ≤ 12 && 1 ≤ date.day && date.day ≤ daysInMonth date.year date.month

/-- Days from the first of March of a year of the era to the first of March, `yearOfEra` years on.
-/
def daysBeforeYear (yearOfEra : Nat) : Nat :=
  365 * yearOfEra + yearOfEra / 4 - yearOfEra / 100

/-- Days from the first of March to the first of the month that comes `monthOfYear` months later. -/
def daysBeforeMonth (monthOfYear : Nat) : Nat := (153 * monthOfYear + 2) / 5

/-- Days from the first of January 1970. -/
def toDays (date : Date) : Int :=
  let year := if date.month ≤ 2 then date.year - 1 else date.year
  let monthOfYear := if date.month ≤ 2 then date.month + 9 else date.month - 3
  let dayOfEra := daysBeforeYear (year % 400).toNat + daysBeforeMonth monthOfYear + (date.day - 1)
  year / 400 * 146097 + dayOfEra - 719468

/-- The date that many days from the first of January 1970. -/
def ofDays (days : Int) : Date :=
  let shifted := days + 719468
  let dayOfEra := (shifted % 146097).toNat
  let yearOfEra := (dayOfEra - dayOfEra / 1460 + dayOfEra / 36524 - dayOfEra / 146096) / 365
  let dayOfYear := dayOfEra - daysBeforeYear yearOfEra
  let monthOfYear := (5 * dayOfYear + 2) / 153
  let month := if monthOfYear < 10 then monthOfYear + 3 else monthOfYear - 9
  let year := shifted / 146097 * 400 + yearOfEra
  ⟨if month ≤ 2 then year + 1 else year, month, dayOfYear - daysBeforeMonth monthOfYear + 1⟩

end Date

end SliceControl.Time
