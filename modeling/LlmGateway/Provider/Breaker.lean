import LlmGateway.Provider.Health
import Mathlib.Data.List.Induction

namespace LlmGateway

/-- A call of a method of `ProviderHealth`, with what the clock reads in it. The
methods hold the mutex, so concurrent calls take effect in some order. -/
inductive HealthCall where
  | recordSuccess (now : Int)
  | recordFailure (now : Int) (err : Option String)
  | isHealthy (now : Int)
  | status (now : Int)
deriving DecidableEq, Repr

namespace HealthCall

/-- The breaker after the call. -/
def apply (h : ProviderHealth) : HealthCall → ProviderHealth
  | .recordSuccess now => h.recordSuccess now
  | .recordFailure now err => (h.recordFailure now err).2
  | .isHealthy _ => h
  | .status _ => h

def isSuccess : HealthCall → Bool
  | .recordSuccess _ => true
  | _ => false

/-- When the call recorded a failure. -/
def failureTime : HealthCall → Option Int
  | .recordFailure now _ => some now
  | _ => none

end HealthCall

/-- A new breaker after the calls, in the order in which they took effect. -/
def breakerAfter (cfg : HealthConfig) (calls : List HealthCall) : ProviderHealth :=
  calls.foldl HealthCall.apply (newProviderHealth cfg)

/-- The calls since the last success, or since the start; the latest is first. -/
def sinceSuccess (calls : List HealthCall) : List HealthCall := calls.reverse.takeWhile fun c => !c.isSuccess

/-- The failures recorded since the last success. -/
def failuresSince (calls : List HealthCall) : Nat := (sinceSuccess calls).countP fun c => c.failureTime.isSome

/-- The time of the last recorded failure. -/
def lastFailureTime (calls : List HealthCall) : Option Int := (calls.filterMap HealthCall.failureTime).getLast?

section History

variable {calls : List HealthCall} {call : HealthCall}

theorem failuresSince_success (success : call.isSuccess = true) : failuresSince (calls ++ [call]) = 0 := by
  simp [failuresSince, sinceSuccess, success]

theorem failuresSince_other (other : call.isSuccess = false) :
    failuresSince (calls ++ [call]) = failuresSince calls + if call.failureTime.isSome then 1 else 0 := by
  simp [failuresSince, sinceSuccess, other, List.countP_cons]

theorem lastFailureTime_append :
    lastFailureTime (calls ++ [call]) = call.failureTime.or (lastFailureTime calls) := by
  unfold lastFailureTime
  rw [List.filterMap_append]
  cases time : call.failureTime with
  | none => simp [time]
  | some now => simp [time]

theorem failuresSince_of_none (never : lastFailureTime calls = none) : failuresSince calls = 0 := by
  rw [lastFailureTime, List.getLast?_eq_none_iff, List.filterMap_eq_nil_iff] at never
  refine List.countP_eq_zero.mpr fun call recent => ?_
  have made : call ∈ calls := List.mem_reverse.mp ((List.takeWhile_sublist _).subset recent)
  simp [never call made]

end History

/-- What the fields of the breaker say about the calls so far. -/
structure Reflects (cfg : HealthConfig) (calls : List HealthCall) (h : ProviderHealth) : Prop where
  threshold : h.failureThreshold = (newProviderHealth cfg).failureThreshold
  cooldown : h.cooldownPeriod = (newProviderHealth cfg).cooldownPeriod
  fails : h.consecutiveFails = failuresSince calls
  flag : h.healthy = decide ((failuresSince calls : Int) < h.failureThreshold)
  last : h.lastFailure = lastFailureTime calls

section Run

variable {cfg : HealthConfig} {calls : List HealthCall} {h : ProviderHealth}

theorem reflects_new : Reflects cfg [] (newProviderHealth cfg) where
  threshold := rfl
  cooldown := rfl
  fails := rfl
  flag := (decide_eq_true (newProviderHealth cfg).threshold_pos).symm
  last := rfl

theorem Reflects.recordSuccess (held : Reflects cfg calls h) (now : Int) :
    Reflects cfg (calls ++ [.recordSuccess now]) (h.recordSuccess now) where
  threshold := held.threshold
  cooldown := held.cooldown
  fails := by
    rw [failuresSince_success rfl]
    rfl
  flag := by
    rw [failuresSince_success rfl]
    exact (decide_eq_true h.threshold_pos).symm
  last := by
    rw [lastFailureTime_append]
    exact held.last

theorem Reflects.recordFailure (held : Reflects cfg calls h) (now : Int) (err : Option String) :
    Reflects cfg (calls ++ [.recordFailure now err]) (h.recordFailure now err).2 where
  threshold := held.threshold
  cooldown := held.cooldown
  fails := by
    rw [failuresSince_other rfl]
    exact congrArg (· + 1) held.fails
  flag := by
    rw [failuresSince_other rfl]
    have flag := held.flag
    have fails := held.fails
    simp only [ProviderHealth.recordFailure, fails, flag]
    split
    · rename_i tipped
      exact (decide_eq_false (by simpa [HealthCall.failureTime] using tipped)).symm
    · rename_i below
      have before : (failuresSince calls : Int) < h.failureThreshold := by omega
      rw [decide_eq_true before]
      exact (decide_eq_true (by simpa [HealthCall.failureTime] using below)).symm
  last := by
    rw [lastFailureTime_append]
    rfl

theorem Reflects.read (held : Reflects cfg calls h) {call : HealthCall} (kept : call.isSuccess = false)
    (silent : call.failureTime = none) : Reflects cfg (calls ++ [call]) h where
  threshold := held.threshold
  cooldown := held.cooldown
  fails := by
    rw [failuresSince_other kept, silent]
    exact held.fails
  flag := by
    rw [failuresSince_other kept, silent]
    exact held.flag
  last := by
    rw [lastFailureTime_append, silent]
    exact held.last

theorem reflects_breakerAfter (cfg : HealthConfig) (calls : List HealthCall) :
    Reflects cfg calls (breakerAfter cfg calls) := by
  induction calls using List.reverseRecOn with
  | nil => exact reflects_new
  | append_singleton calls call ih =>
    rw [breakerAfter, List.foldl_append, ← breakerAfter]
    cases call with
    | recordSuccess now => exact ih.recordSuccess now
    | recordFailure now err => exact ih.recordFailure now err
    | isHealthy now => exact ih.read rfl rfl
    | status now => exact ih.read rfl rfl

theorem Reflects.isHealthy_iff (held : Reflects cfg calls h) (now : Int) :
    h.isHealthy now = true ↔ h.healthyStrict = true ∨
      ∃ t, lastFailureTime calls = some t ∧ (newProviderHealth cfg).cooldownPeriod ≤ now - t := by
  unfold ProviderHealth.isHealthy ProviderHealth.healthyStrict ProviderHealth.cooledDown
  rw [Bool.or_eq_true, held.last, held.cooldown]
  cases recorded : lastFailureTime calls with
  | some t => simp
  | none =>
    have on : h.healthy = true := by
      rw [held.flag, failuresSince_of_none recorded]
      exact decide_eq_true h.threshold_pos
    simp [on]

theorem status_healthy (h : ProviderHealth) (now : Int) : (h.status now).healthy = h.isHealthy now := by
  unfold ProviderHealth.status ProviderHealth.isHealthy
  cases h.healthy <;> cases h.cooledDown now <;> rfl

/-- The breaker is determined by its history: the flag by the failures since
the last success, and the two readings of it by the last failure besides. -/
theorem breaker_determined (cfg : HealthConfig) (calls : List HealthCall) :
    ((breakerAfter cfg calls).healthyStrict = true ↔
      (failuresSince calls : Int) < (newProviderHealth cfg).failureThreshold) ∧
    (∀ now, (breakerAfter cfg calls).isHealthy now = true ↔ (breakerAfter cfg calls).healthyStrict = true ∨
      ∃ t, lastFailureTime calls = some t ∧ (newProviderHealth cfg).cooldownPeriod ≤ now - t) ∧
    (∀ now, ((breakerAfter cfg calls).status now).healthy = (breakerAfter cfg calls).isHealthy now ∧
      ((breakerAfter cfg calls).status now).consecutiveFails = failuresSince calls) ∧
    ∀ now err, ((breakerAfter cfg calls).recordFailure now err).1 =
      (breakerAfter cfg (calls ++ [.recordFailure now err])).healthyStrict := by
  have held := reflects_breakerAfter cfg calls
  refine ⟨?_, held.isHealthy_iff, fun now => ⟨status_healthy _ now, held.fails⟩, fun now err => ?_⟩
  · rw [ProviderHealth.healthyStrict, held.flag, held.threshold, decide_eq_true_iff]
  · rw [breakerAfter, breakerAfter, List.foldl_append]
    rfl

end Run

end LlmGateway
