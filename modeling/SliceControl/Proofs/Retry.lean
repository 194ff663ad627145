import Mathlib.Algebra.BigOperators.Group.Finset.Basic
import Mathlib.Order.Bounds.Basic
import SliceControl.Proofs.Procedure
import SliceControl.Retry

/-!
# Runs of repeated calls

A call is repeated until a reply comes that is no transient failure, or the attempts are used up.
The replies may follow any script. Delays are those of exact arithmetic: where the doubling stops at
the largest number of 64 bits, the maximum has long been reached, or every delay is zero.
-/

namespace SliceControl

open Text

/-! ## Delays -/

namespace RetryPolicy

/-- The delay after an attempt, without any bound on the numbers on the way. -/
theorem backoffMs_eq (policy : RetryPolicy) (attempt : Nat) :
    policy.backoffMs attempt =
      min (policy.initialBackoffMs.toNat * 2 ^ (attempt - 1)) policy.maxBackoffMs.toNat := by
  have hmost : policy.maxBackoffMs.toNat ≤ Numeral.max64 :=
    Nat.le_of_lt_succ policy.maxBackoffMs.toNat_lt
  unfold backoffMs saturate saturatingPower
  by_cases hpower : attempt - 1 < 64
  · rw [if_pos hpower, Nat.min_assoc, Nat.min_eq_right hmost]
    rfl
  rw [if_neg hpower]
  rcases Nat.eq_zero_or_pos policy.initialBackoffMs.toNat with hzero | hpositive
  · simp [hzero]
  · -- Both the product and the exact delay are beyond every number of 64 bits.
    have hlarge : Numeral.max64 ≤ 2 ^ (attempt - 1) :=
      calc Numeral.max64 ≤ 2 ^ 64 := by decide
        _ ≤ 2 ^ (attempt - 1) := Nat.pow_le_pow_right (by decide) (Nat.le_of_not_lt hpower)
    have hproduct : Numeral.max64 ≤ policy.initialBackoffMs.toNat * Numeral.max64 :=
      Nat.le_mul_of_pos_left _ hpositive
    have hexact : Numeral.max64 ≤ policy.initialBackoffMs.toNat * 2 ^ (attempt - 1) :=
      hlarge.trans (Nat.le_mul_of_pos_left _ hpositive)
    rw [Nat.min_eq_right hproduct, Nat.min_eq_right hmost, Nat.min_eq_right (hmost.trans hexact)]

theorem monotone_backoffMs (policy : RetryPolicy) : Monotone policy.backoffMs := by
  intro earlier later hle
  rw [backoffMs_eq, backoffMs_eq]
  have hpower : 2 ^ (earlier - 1) ≤ 2 ^ (later - 1) :=
    Nat.pow_le_pow_right (by decide) (Nat.sub_le_sub_right hle 1)
  exact min_le_min_right _ (Nat.mul_le_mul_left _ hpower)

theorem backoffMs_le (policy : RetryPolicy) (attempt : Nat) :
    policy.backoffMs attempt ≤ policy.maxBackoffMs.toNat := Nat.min_le_right _ _

theorem attempts_pos (policy : RetryPolicy) : 0 < policy.attempts := Nat.le_max_left 1 _

theorem attempts_le (policy : RetryPolicy) : policy.attempts ≤ Numeral.max32 :=
  Nat.max_le.mpr ⟨by decide, Nat.le_of_lt_succ policy.maxAttempts.toNat_lt⟩

/-- How long the delays after `count` attempts are together, from attempt number `attempt` on. -/
def waitedMs (policy : RetryPolicy) (attempt count : Nat) : Nat :=
  ∑ index ∈ Finset.range count, policy.backoffMs (attempt + index)

@[simp] theorem waitedMs_zero (policy : RetryPolicy) (attempt : Nat) :
    policy.waitedMs attempt 0 = 0 := Finset.sum_range_zero _

theorem waitedMs_succ (policy : RetryPolicy) (attempt count : Nat) :
    policy.waitedMs attempt (count + 1) =
      policy.backoffMs attempt + policy.waitedMs (attempt + 1) count := by
  unfold waitedMs
  rw [Finset.sum_range_succ', Nat.add_comm]
  congr 1
  apply Finset.sum_congr rfl
  intro index _
  rw [Nat.add_right_comm, Nat.add_assoc]

end RetryPolicy

/-! ## Scripted replies -/

/-- When calls were made, the first one first, and how much time has passed, in milliseconds. -/
structure CallLog where
  times : List Nat
  elapsed : Nat
  deriving DecidableEq

/-- A reply after which the same call may succeed. -/
def FailsTransiently {α : Type} (reply : Except StoreError α) : Prop :=
  ∃ error, reply = .error error ∧ error.isTransient = true

section Runs

variable {Request : Type} {Answer : Request → Type}

/-- What every call is answered with, by the number of the call, counted from one. -/
abbrev Script (Answer : Request → Type) : Type :=
  Nat → (request : Request) → Except StoreError (Answer request)

/-- A world that keeps to a script, in which time passes only while somebody waits. -/
def Script.world (script : Script Answer) :
    World Request (fun request ↦ Except StoreError (Answer request)) CallLog where
  serve request log :=
    (script (log.times.length + 1) request, { log with times := log.times ++ [log.elapsed] })
  elapse millis log := { log with elapsed := log.elapsed + millis }
  now log := Instant.after (.ofNanos 0) (.ofMillis log.elapsed)

variable (policy : RetryPolicy) (script : Script Answer) (request : Request)

/-- The log after calls that begin with attempt number `attempt`, of which `failed` have failed
transiently before the last one. -/
def CallLog.calling (log : CallLog) (attempt failed : Nat) : CallLog where
  times := log.times ++ (List.range (failed + 1)).map fun index ↦
    log.elapsed + policy.waitedMs attempt index
  elapsed := log.elapsed + policy.waitedMs attempt failed

theorem CallLog.calling_zero (log : CallLog) (attempt : Nat) :
    log.calling policy attempt 0 = ⟨log.times ++ [log.elapsed], log.elapsed⟩ := by
  simp [calling]

/-- A failed attempt, the delay after it, and the calls that follow. -/
theorem CallLog.calling_succ (log : CallLog) (attempt failed : Nat) :
    log.calling policy attempt (failed + 1) =
      CallLog.calling policy ⟨log.times ++ [log.elapsed], log.elapsed + policy.backoffMs attempt⟩
        (attempt + 1) failed := by
  unfold calling
  rw [List.range_succ_eq_map]
  simp [RetryPolicy.waitedMs_succ, Nat.add_assoc, Function.comp_def]

variable {policy script request} {log : CallLog}

theorem run_attemptFrom_succ_of_failsTransiently {spare attempt : Nat}
    (hlog : log.times.length + 1 = attempt) (h : FailsTransiently (script attempt request)) :
    (attemptFrom policy request (spare + 1) attempt).run script.world log =
      (attemptFrom policy request spare (attempt + 1)).run script.world
        ⟨log.times ++ [log.elapsed], log.elapsed + policy.backoffMs attempt⟩ := by
  subst hlog
  obtain ⟨error, hreply, htransient⟩ := h
  rw [attemptFrom, Procedure.run_call]
  simp only [Script.world, hreply, htransient, if_true]
  rfl

theorem run_attemptFrom_of_not_failsTransiently {spare attempt : Nat}
    (hlog : log.times.length + 1 = attempt) (h : ¬FailsTransiently (script attempt request)) :
    (attemptFrom policy request spare attempt).run script.world log =
      (script attempt request, ⟨log.times ++ [log.elapsed], log.elapsed⟩) := by
  subst hlog
  cases spare with
  | zero => rfl
  | succ spare =>
    rw [attemptFrom, Procedure.run_call]
    simp only [Script.world]
    cases hreply : script (log.times.length + 1) request with
    | ok answer => rfl
    | error error =>
      have hlasting : ¬error.isTransient = true := fun htransient ↦
        h ⟨error, hreply, htransient⟩
      simp only [if_neg hlasting]
      rfl

/-- Attempts are made up to the first reply that is no transient failure, or as long as there are
spare ones. -/
theorem exists_run_attemptFrom (policy : RetryPolicy) (script : Script Answer) (request : Request)
    (spare attempt : Nat) (log : CallLog) (hlog : log.times.length + 1 = attempt) :
    ∃ failed ≤ spare, (∀ index < failed, FailsTransiently (script (attempt + index) request)) ∧
      (failed = spare ∨ ¬FailsTransiently (script (attempt + failed) request)) ∧
      (attemptFrom policy request spare attempt).run script.world log =
        (script (attempt + failed) request, log.calling policy attempt failed) := by
  induction spare generalizing attempt log with
  | zero =>
    refine ⟨0, Nat.le_refl 0, fun index hindex ↦ absurd hindex (Nat.not_lt_zero index), .inl rfl,
      ?_⟩
    subst hlog
    rw [CallLog.calling_zero]
    rfl
  | succ spare ih =>
    by_cases hfirst : FailsTransiently (script attempt request)
    · obtain ⟨failed, hspare, hfailed, hlast, hrun⟩ :=
        ih (attempt + 1) ⟨log.times ++ [log.elapsed], log.elapsed + policy.backoffMs attempt⟩
          (by simp [hlog])
      have hnumber (index : Nat) : attempt + 1 + index = attempt + (index + 1) :=
        Nat.add_right_comm attempt 1 index
      refine ⟨failed + 1, Nat.succ_le_succ hspare, ?_, ?_, ?_⟩
      · intro index hindex
        cases index with
        | zero => exact hfirst
        | succ index =>
          rw [← hnumber]
          exact hfailed index (Nat.lt_of_succ_lt_succ hindex)
      · rw [← hnumber]
        exact hlast.imp_left (congrArg (· + 1))
      · rw [run_attemptFrom_succ_of_failsTransiently hlog hfirst, hrun, CallLog.calling_succ,
          hnumber]
    · refine ⟨0, Nat.zero_le _, fun index hindex ↦ absurd hindex (Nat.not_lt_zero index),
        .inr hfirst, ?_⟩
      rw [run_attemptFrom_of_not_failsTransiently hlog hfirst, CallLog.calling_zero]
      rfl

/-- The number of calls after which no more are made: as many as there are attempts, or so many that
the last reply is no transient failure. -/
def RetryPolicy.Ends (policy : RetryPolicy) (script : Script Answer) (request : Request)
    (count : Nat) : Prop :=
  count = policy.attempts ∨ 1 ≤ count ∧ ¬FailsTransiently (script count request)

/-- The calls begin at once and end with the last one, and between two calls in a row the initial
delay passes, doubled for each call before, or the greatest delay if that is less. -/
structure CallLog.IsSpaced (log : CallLog) (policy : RetryPolicy) : Prop where
  first : log.times.head? = some 0
  last : log.times.getLast? = some log.elapsed
  delay : ∀ number time next, 1 ≤ number → log.times[number - 1]? = some time →
    log.times[number]? = some next →
      next = time +
        min (policy.initialBackoffMs.toNat * 2 ^ (number - 1)) policy.maxBackoffMs.toNat

theorem CallLog.getElem?_times_calling {failed index time : Nat}
    (h : (CallLog.calling policy ⟨[], 0⟩ 1 failed).times[index]? = some time) :
    time = policy.waitedMs 1 index := by
  simp only [calling, List.nil_append, Nat.zero_add, List.getElem?_map, Option.map_eq_some_iff] at h
  obtain ⟨number, hnumber, rfl⟩ := h
  obtain ⟨hindex, rfl⟩ := List.getElem?_eq_some_iff.mp hnumber
  rw [List.getElem_range]

theorem CallLog.isSpaced_calling (policy : RetryPolicy) (failed : Nat) :
    (CallLog.calling policy ⟨[], 0⟩ 1 failed).IsSpaced policy where
  first := by simp [calling, List.range_succ_eq_map]
  last := by simp [calling, List.range_succ]
  delay := by
    intro number time next hnumber htime hnext
    obtain ⟨index, rfl⟩ := Nat.exists_eq_add_of_le hnumber
    rw [Nat.add_sub_cancel_left] at htime ⊢
    calc next
        = policy.waitedMs 1 (1 + index) := getElem?_times_calling hnext
      _ = policy.waitedMs 1 index + policy.backoffMs (1 + index) := by
        rw [Nat.add_comm 1 index, RetryPolicy.waitedMs, Finset.sum_range_succ, Nat.add_comm 1 index]
        rfl
      _ = time + min (policy.initialBackoffMs.toNat * 2 ^ index) policy.maxBackoffMs.toNat := by
        rw [getElem?_times_calling htime, RetryPolicy.backoffMs_eq, Nat.add_sub_cancel_left]

/-- A call is repeated until its reply is no transient failure, but not more often than there are
attempts: the number of calls, which has 32 bits, is the smaller of the two, and what comes back is
the reply to the last call. The calls are spaced by exact delays; these are what is computed after
any attempt, they never get shorter, and none of them exceeds the greatest delay. -/
theorem run_withBackoff (policy : RetryPolicy) (script : Script Answer) (request : Request) :
    (∃ count log, IsLeast {count | policy.Ends script request count} count ∧
      count ≤ Numeral.max32 ∧
      (withBackoff policy request).run script.world ⟨[], 0⟩ = (script count request, log) ∧
      log.times.length = count ∧ log.IsSpaced policy) ∧
      (∀ attempt, policy.backoffMs attempt =
        min (policy.initialBackoffMs.toNat * 2 ^ (attempt - 1)) policy.maxBackoffMs.toNat) ∧
      Monotone policy.backoffMs ∧
      ∀ attempt, policy.backoffMs attempt ≤ policy.maxBackoffMs.toNat := by
  refine ⟨?_, policy.backoffMs_eq, policy.monotone_backoffMs, policy.backoffMs_le⟩
  obtain ⟨failed, hspare, hfailed, hlast, hrun⟩ :=
    exists_run_attemptFrom policy script request (policy.attempts - 1) 1 ⟨[], 0⟩ rfl
  have hattempts : 0 < policy.attempts := policy.attempts_pos
  have hcount : 1 + failed ≤ policy.attempts := by omega
  refine ⟨1 + failed, _, ⟨?_, ?_⟩, hcount.trans policy.attempts_le, hrun, ?_,
    CallLog.isSpaced_calling policy failed⟩
  · rcases hlast with hspent | hlasting
    · exact .inl (by omega)
    · exact .inr ⟨Nat.le_add_right 1 failed, hlasting⟩
  · rintro other (hother | ⟨hpositive, hlasting⟩)
    · exact hother ▸ hcount
    · by_contra hless
      apply hlasting
      obtain ⟨index, rfl⟩ := Nat.exists_eq_add_of_le hpositive
      exact hfailed index (by omega)
  · simp [CallLog.calling, Nat.add_comm]

end Runs

/-- Two transient failures, and the delay after the second is cut to the greatest. -/
example :
    let script : Script fun _ : Unit ↦ Nat := fun number _ ↦
      if number < 3 then .error (.transient "reset") else .ok number
    (withBackoff ⟨4, 3, 5⟩ ()).run script.world ⟨[], 0⟩ = (.ok 3, ⟨[0, 3, 8], 8⟩) := by decide

end SliceControl
