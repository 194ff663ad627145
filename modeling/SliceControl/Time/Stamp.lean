import SliceControl.Text.Blank
import SliceControl.Text.Numeral
import SliceControl.Time
import SliceControl.Time.Calendar

/-!
# Timestamps

RFC 3339: a date, a time of day with up to nine fraction digits, and an offset from UTC. An instant
is always written in UTC with 0, 3, 6 or 9 fraction digits, the fewest that are exact, and a leap
second as the second 60 of its minute. Reading is more tolerant: white space may stand between the
parts, single digits are allowed, and a fraction may run on beyond its ninth digit.
-/

namespace SliceControl.Time

open Text

/-! ## Writing -/

/-- A number with zeros in front of it, up to `width` digits. -/
def padded (width number : Nat) : List Char :=
  let digits := Numeral.digits number
  List.replicate (width - digits.length) '0' ++ digits

/-- Four digits, or a sign and at least four digits outside the years 0 to 9999. -/
def writeYear (year : Int) : List Char :=
  if 0 ≤ year ∧ year ≤ 9999 then padded 4 year.toNat
  else (if year < 0 then '-' else '+') :: padded 4 year.natAbs

def writeDate (date : Date) : List Char :=
  writeYear date.year ++ '-' :: padded 2 date.month ++ '-' :: padded 2 date.day

/-- The fewest of 0, 3, 6 and 9 fraction digits that are exact. -/
def writeFraction (nanos : Nat) : List Char :=
  if nanos = 0 then []
  else if nanos % 1000000 = 0 then '.' :: padded 3 (nanos / 1000000)
  else if nanos % 1000 = 0 then '.' :: padded 6 (nanos / 1000)
  else '.' :: padded 9 nanos

/-- The time of day in seconds after midnight and nanoseconds, where a leap second is the
sixty-first second of its minute. -/
def writeTimeOfDay (seconds nanos : Nat) : List Char :=
  padded 2 (seconds / 3600) ++ ':' :: padded 2 (seconds / 60 % 60) ++
    ':' :: padded 2 (seconds % 60 + nanos / 1000000000) ++ writeFraction (nanos % 1000000000)

/-- Seconds in a day. -/
def daySeconds : Int := 86400

/-- The parts of an instant in UTC, with what stands between date and time and after the time. -/
def writeParts (separator : Char) (ending : List Char) (instant : Instant) : List Char :=
  writeDate (Date.ofDays (instant.seconds / daySeconds)) ++
    separator :: writeTimeOfDay (instant.seconds % daySeconds).toNat instant.nanos ++ ending

/-- The form used in resources, such as `2026-01-01T00:00:00Z`. -/
def writeStamp (instant : Instant) : String := String.ofList (writeParts 'T' ['Z'] instant)

/-- The form used in messages, such as `2026-01-01 00:00:00 UTC`. -/
def writeReadable (instant : Instant) : String :=
  String.ofList (writeParts ' ' [' ', 'U', 'T', 'C'] instant)

/-! ## Reading -/

/-- Reads one to `most` digits, after white space. -/
def scanNumber? (most : Nat) (characters : List Char) : Option (Nat × List Char) :=
  let start := trimFront characters
  let digits := (start.take most).takeWhile Char.isDigit
  if digits.isEmpty then none else some (Numeral.value digits, start.drop digits.length)

/-- Reads a year: up to four digits, or a sign and any number of digits. -/
def scanYear? (characters : List Char) : Option (Int × List Char) :=
  match trimFront characters with
  | '-' :: rest => (scanSigned rest).map fun (year, rest) => (-(year : Int), rest)
  | '+' :: rest => (scanSigned rest).map fun (year, rest) => ((year : Int), rest)
  | start => (scanNumber? 4 start).map fun (year, rest) => ((year : Int), rest)
where
  scanSigned (characters : List Char) : Option (Nat × List Char) :=
    let digits := characters.takeWhile Char.isDigit
    if digits.isEmpty then none else some (Numeral.value digits, characters.drop digits.length)

/-- Reads one character, after white space. -/
def scanChar? (expected : Char) (characters : List Char) : Option (List Char) :=
  match trimFront characters with
  | head :: rest => if head = expected then some rest else none
  | [] => none

/-- Reads an optional fraction of a second as nanoseconds. -/
def scanFraction? : List Char → Option (Nat × List Char)
  | '.' :: rest =>
    let digits := (rest.take 9).takeWhile Char.isDigit
    if digits.isEmpty then none
    else
      some (Numeral.value digits * Nat.pow 10 (9 - digits.length),
        (rest.drop digits.length).dropWhile Char.isDigit)
  | characters => some (0, characters)

/-- Reads an offset from UTC in seconds: a letter Z, the word UTC, or a sign, hours and minutes. -/
def scanOffset? (characters : List Char) : Option (Int × List Char) :=
  match characters with
  | u :: t :: c :: rest =>
    if [u.toLower, t.toLower, c.toLower] = ['u', 't', 'c'] then some (0, rest)
    else scanZone characters
  | _ => scanZone characters
where
  twoDigits : List Char → Option (Nat × List Char)
    | tens :: ones :: rest =>
      if tens.isDigit && ones.isDigit then some (Numeral.value [tens, ones], rest) else none
    | _ => none
  hoursAndMinutes (characters : List Char) : Option (Nat × List Char) := do
    let (hours, rest) ← twoDigits characters
    let (minutes, rest) ← twoDigits (rest.dropWhile fun c => c = ':' || isBlank c)
    if minutes < 60 && hours < 24 then some (hours * 3600 + minutes * 60, rest) else none
  scanZone : List Char → Option (Int × List Char)
    | [] => none
    | sign :: rest =>
      if sign = 'Z' || sign = 'z' then some (0, rest)
      else if sign = '+' then
        (hoursAndMinutes rest).map fun (seconds, rest) => ((seconds : Int), rest)
      else if sign = '-' || sign = '\u2212' then
        (hoursAndMinutes rest).map fun (seconds, rest) => (-(seconds : Int), rest)
      else none

/-- Reads a date that exists. -/
def scanDate? (characters : List Char) : Option (Date × List Char) := do
  let (year, rest) ← scanYear? characters
  let (month, rest) ← scanChar? '-' rest >>= scanNumber? 2
  let (day, rest) ← scanChar? '-' rest >>= scanNumber? 2
  let date : Date := ⟨year, month, day⟩
  if date.isValid && -262143 ≤ year && year ≤ 262142 then some (date, rest) else none

/-- Reads a time of day as seconds after midnight and nanoseconds. The sixty-first second of a
minute is read as further nanoseconds of the sixtieth. -/
def scanTimeOfDay? (characters : List Char) : Option ((Nat × Nat) × List Char) := do
  let (hour, rest) ← scanNumber? 2 characters
  let (minute, rest) ← scanChar? ':' rest >>= scanNumber? 2
  let (second, rest) ← scanChar? ':' rest >>= scanNumber? 2
  let (fraction, rest) ← scanFraction? rest
  if hour < 24 && minute < 60 && second ≤ 60 then
    let leap := second / 60
    some ((hour * 3600 + minute * 60 + (second - leap), leap * 1000000000 + fraction), rest)
  else none

/-- The moment that a timestamp names. -/
def readStamp? (text : String) : Option Instant := do
  let (date, rest) ← scanDate? text.toList
  let rest ← match rest with
    | separator :: rest =>
      if separator = 'T' || separator = 't' || separator = ' ' then some rest else none
    | [] => none
  let ((seconds, nanos), rest) ← scanTimeOfDay? rest
  let (offset, rest) ← scanOffset? (trimFront rest)
  if rest.all isBlank then Instant.ofParts? (date.toDays * daySeconds + seconds - offset) nanos
  else none

end SliceControl.Time
