import SliceControl.Json.Decode
import SliceControl.Procedure
import SliceControl.Store

/-!
# Retrying

A call that fails transiently is repeated, up to a number of attempts. The delay doubles with each
attempt until it reaches its maximum. Delays are counted in milliseconds of 64 bits, and the
doubling stops at the largest such number.
-/

namespace SliceControl

open Text

/-- How often and after which delays a call is repeated. -/
structure RetryPolicy where
  /-- Attempts in all, the first included. -/
  maxAttempts : UInt32
  initialBackoffMs : UInt64
  maxBackoffMs : UInt64
  deriving DecidableEq

namespace RetryPolicy

def default : RetryPolicy := ⟨5, 100, 5000⟩

/-- The largest number of 64 bits at most. -/
def saturate (number : Nat) : Nat := min number Numeral.max64

/-- Two to the power of `exponent`, or the largest number of 64 bits. -/
def saturatingPower (exponent : Nat) : Nat :=
  if exponent < 64 then Nat.pow 2 exponent else Numeral.max64

/-- The delay after attempt number `attempt`, counted from one, in milliseconds. -/
def backoffMs (policy : RetryPolicy) (attempt : Nat) : Nat :=
  min (saturate (policy.initialBackoffMs.toNat * saturatingPower (attempt - 1)))
    policy.maxBackoffMs.toNat

/-- The number of attempts, which is at least one. -/
def attempts (policy : RetryPolicy) : Nat := max 1 policy.maxAttempts.toNat

def toJson (policy : RetryPolicy) : Json :=
  .ofMembers [("maxAttempts", .ofUInt32 policy.maxAttempts),
    ("initialBackoffMs", .ofUInt64 policy.initialBackoffMs),
    ("maxBackoffMs", .ofUInt64 policy.maxBackoffMs)]

def fields : List Json.Field :=
  [.defaulted "maxAttempts" Json.decodeUInt32, .defaulted "initialBackoffMs" Json.decodeUInt64,
    .defaulted "maxBackoffMs" Json.decodeUInt64]

def ofJson (value : Json) : Decoded RetryPolicy := do
  let members ← value.decodeRecord "RetryPolicy" fields
  let initial ← Json.decodeMember members "initialBackoffMs" Json.decodeUInt64
  let attempts ← Json.decodeMember members "maxAttempts" Json.decodeUInt32
  let most ← Json.decodeMember members "maxBackoffMs" Json.decodeUInt64
  return ⟨attempts.getD default.maxAttempts, initial.getD default.initialBackoffMs,
    most.getD default.maxBackoffMs⟩

end RetryPolicy

section

variable {Request : Type} {Answer : Request → Type}

/-- Makes attempt number `attempt`, and up to `spare` more after it. -/
def attemptFrom (policy : RetryPolicy) (request : Request) : (spare attempt : Nat) →
    Procedure Request (fun request => Except StoreError (Answer request))
      (Except StoreError (Answer request))
  | 0, _ => .call request .done
  | spare + 1, attempt => .call request fun reply =>
    match reply with
    | .ok answer => .done (.ok answer)
    | .error error =>
      if error.isTransient then
        .sleep (policy.backoffMs attempt) (attemptFrom policy request spare (attempt + 1))
      else .done (.error error)

/-- Makes a request, and repeats it while it fails transiently and attempts are left. -/
def withBackoff (policy : RetryPolicy) (request : Request) :
    Procedure Request (fun request => Except StoreError (Answer request))
      (Except StoreError (Answer request)) :=
  attemptFrom policy request (policy.attempts - 1) 1

end

end SliceControl
