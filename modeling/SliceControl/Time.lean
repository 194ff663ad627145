/-!
# Instants and durations

A duration is counted in whole nanoseconds from zero upwards. An instant has seconds, counted from
the first moment of 1970 in UTC in either direction, and nanoseconds. Any minute may end with a leap
second, which is a moment like others but is not always counted when time is measured.
-/

namespace SliceControl

/-- A length of time. -/
structure Duration where
  nanos : Nat
  deriving DecidableEq

namespace Duration

def zero : Duration := ⟨0⟩

def ofSeconds (seconds : Nat) : Duration := ⟨seconds * 1000000000⟩

def ofMillis (millis : Nat) : Duration := ⟨millis * 1000000⟩

/-- The whole seconds. -/
def seconds (duration : Duration) : Nat := duration.nanos / 1000000000

/-- What is left beside the whole seconds. -/
def subsecondNanos (duration : Duration) : Nat := duration.nanos % 1000000000

/-- The least number of milliseconds that is not shorter. -/
def millisCeil (duration : Duration) : Nat := (duration.nanos + 999999) / 1000000

/-- The shorter of two durations. -/
def least (left right : Duration) : Duration := ⟨min left.nanos right.nanos⟩

/-- The longer of two durations. -/
def greatest (left right : Duration) : Duration := ⟨max left.nanos right.nanos⟩

/-- What remains of `duration` after `spent`, which is nothing once it is used up. -/
def remaining (duration spent : Duration) : Duration := ⟨duration.nanos - spent.nanos⟩

end Duration

/-- A moment in UTC. Every day counts 86400 seconds, and a leap second is told by further
nanoseconds of the second before it, which is the last one of a minute. -/
structure Instant where
  /-- Seconds from the first moment of 1970. -/
  seconds : Int
  nanos : Nat
  nanos_lt : nanos < 2000000000
  minute_ends : 1000000000 ≤ nanos → seconds % 60 = 59
  deriving DecidableEq

namespace Instant

/-- The moment that many nanoseconds after the first moment of 1970, in no leap second. -/
def ofNanos (nanos : Int) : Instant :=
  ⟨nanos / 1000000000, (nanos % 1000000000).toNat, by omega, by omega⟩

/-- The moment with these parts, if there is one. -/
def ofParts? (seconds : Int) (nanos : Nat) : Option Instant :=
  if h : nanos < 2000000000 ∧ (1000000000 ≤ nanos → seconds % 60 = 59) then
    some ⟨seconds, nanos, h.1, h.2⟩
  else none

/-- Whether the moment falls into a leap second. -/
def isLeap (instant : Instant) : Bool := 1000000000 ≤ instant.nanos

def before (left right : Instant) : Bool :=
  left.seconds < right.seconds || (left.seconds = right.seconds && left.nanos < right.nanos)

/-- The order of moments, in which no leap second is before the second that it belongs to. -/
instance : LE Instant := ⟨fun left right => right.before left = false⟩

instance (left right : Instant) : Decidable (left ≤ right) :=
  inferInstanceAs (Decidable (right.before left = false))

/-- The moment `duration` later. A leap second that has begun is left at its end, and no other one
lies ahead. -/
def after (instant : Instant) (duration : Duration) : Instant :=
  if h : 1000000000 ≤ instant.nanos ∧ instant.nanos + duration.nanos < 2000000000 then
    ⟨instant.seconds, instant.nanos + duration.nanos, h.2, fun _ => instant.minute_ends h.1⟩
  else ofNanos (instant.seconds * 1000000000 + instant.nanos % 1000000000 + duration.nanos)

/-- Seconds after midnight. -/
def secondOfDay (instant : Instant) : Int := instant.seconds % 86400

/-- The nanoseconds from `since` to `now`. Days are subtracted apart from times of day, and a leap
second lies in between if the lesser time of day falls into it. -/
def difference (since now : Instant) : Int :=
  let leap : Int :=
    if since.secondOfDay < now.secondOfDay && since.isLeap then 1
    else if now.secondOfDay < since.secondOfDay && now.isLeap then -1
    else 0
  (now.seconds - since.seconds + leap) * 1000000000 + now.nanos - since.nanos

/-- The time from `since` to `now`, which is nothing while `since` lies ahead. -/
def elapsed (since now : Instant) : Duration := ⟨(since.difference now).toNat⟩

/-- Whether strictly more than `limit` has passed from `since` to `now`. -/
def elapsedBeyond (since now : Instant) (limit : Duration) : Bool :=
  (limit.nanos : Int) < since.difference now

theorem before_iff {left right : Instant} :
    left.before right = true ↔
      left.seconds < right.seconds ∨ left.seconds = right.seconds ∧ left.nanos < right.nanos := by
  simp [before]

theorem le_iff {left right : Instant} :
    left ≤ right ↔
      left.seconds < right.seconds ∨ left.seconds = right.seconds ∧ left.nanos ≤ right.nanos := by
  show right.before left = false ↔ _
  rw [← Bool.not_eq_true, before_iff]
  omega

theorem before_eq_false_iff {left right : Instant} : left.before right = false ↔ right ≤ left :=
  Iff.rfl

theorem isLeap_eq_false_iff {instant : Instant} :
    instant.isLeap = false ↔ instant.nanos < 1000000000 := by
  rw [isLeap, decide_eq_false_iff_not, Nat.not_le]

end Instant

end SliceControl
