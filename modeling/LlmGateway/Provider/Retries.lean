import LlmGateway.Provider.Decorator
import Mathlib.Algebra.Field.Rat
import Mathlib.Data.ENat.Lattice

namespace LlmGateway

/-- `maxBackoff`, in nanoseconds like every duration. -/
def maxBackoff : Int := 30 * 1000000000

/-- The conversion of a `float64` to an `int64`: the fraction is dropped, and a
value out of range becomes the least integer. Floats are exact rationals here. -/
def toInt64 (x : ℚ) : Int :=
  let n := x.num.tdiv x.den
  if -2 ^ 63 ≤ n ∧ n < 2 ^ 63 then n else -2 ^ 63

def asProviderError : CallError → Option ProviderError
  | .provider _ pe => some pe
  | _ => none

/-- The wait a 429 response asked for. -/
def requestedWait (err : Option CallError) : Option Int :=
  match err.bind asProviderError with
  | some pe => if pe.statusCode = 429 ∧ 0 < pe.retryAfter then some pe.retryAfter else none
  | none => none

/-- `backoffDuration`, with the draw of `h.rand`. -/
def backoffDuration (retry : RetryConfig) (rand : ℚ) (attempt : Int) (err : Option CallError) : Int :=
  match requestedWait err with
  | some ra => ra
  | none =>
    let base := if retry.retryBackoff ≤ 0 then 1000000000 else retry.retryBackoff
    let multiplier : ℚ := 2 ^ (attempt - 1)
    let d := toInt64 (base * multiplier)
    let d := if maxBackoff < d then maxBackoff else d
    let jitter : ℚ := 1 / 2 + rand * (1 / 2)
    toInt64 (d * jitter)

/-- A call of the wrapped method, or a timer that the loop waits for. -/
inductive LoopEffect where
  | call (attempt : Nat)
  | wait (backoff : Int)
deriving DecidableEq, Repr

def LoopEffect.isCall : LoopEffect → Bool
  | .call _ => true
  | .wait _ => false

/-- The effects of a call of the decorator, in order, and what it returns. -/
structure LoopRun (β : Type) where
  effects : List LoopEffect
  returned : Returned β

/-- The number of calls of the wrapped method. -/
def LoopRun.calls {β : Type} (run : LoopRun β) : Nat := run.effects.countP LoopEffect.isCall

section Loop

variable {α β : Type}

/-- The wait at the head of an iteration; there is none before the first attempt. -/
def waitBefore (retry : RetryConfig) (draws : Nat → ℚ) (attempt : Nat) (lastErr : Option CallError) :
    List LoopEffect :=
  if attempt = 0 then [] else [.wait (backoffDuration retry (draws attempt) attempt lastErr)]

/-- `retryLoop` with its effects. -/
def retryRun (retry : RetryConfig) (draws : Nat → ℚ) (outcomes : Nat → CallResult α)
    (ctxDone : Nat → Option CallError) (onSuccess : Option α → Returned β) :
    Nat → Nat → Option CallError → LoopRun β
  | 0, _, lastErr => ⟨[], none, lastErr, [.failure lastErr]⟩
  | left + 1, attempt, lastErr =>
    let waits := waitBefore retry draws attempt lastErr
    match if attempt = 0 then none else ctxDone attempt with
    | some err => ⟨waits, none, some err, []⟩
    | none =>
      match afterCall retry attempt (outcomes attempt) with
      | .succeed value => ⟨waits ++ [.call attempt], onSuccess value⟩
      | .fail err => ⟨waits ++ [.call attempt], none, some err, [.failure (some err)]⟩
      | .retry err =>
        let rest := retryRun retry draws outcomes ctxDone onSuccess left (attempt + 1) (some err)
        ⟨waits ++ .call attempt :: rest.effects, rest.returned⟩

/-- `ChatCompletion` records a success itself. -/
def completed (resp : Option α) : Returned α := ⟨resp, none, [.success]⟩

/-- `ChatCompletionStream` hands the channel to `trackStreamHealth`, which
records when the stream is over. -/
def tracked (ch : Option α) : Returned (TrackedStream α) := ⟨some ⟨ch⟩, none, []⟩

def chatCompletionRun (retry : RetryConfig) (draws : Nat → ℚ) (outcomes : Nat → CallResult α)
    (ctxDone : Nat → Option CallError) : LoopRun α :=
  retryRun retry draws outcomes ctxDone completed (attempts retry) 0 none

def chatCompletionStreamRun (retry : RetryConfig) (draws : Nat → ℚ) (outcomes : Nat → CallResult α)
    (ctxDone : Nat → Option CallError) : LoopRun (TrackedStream α) :=
  retryRun retry draws outcomes ctxDone tracked (attempts retry) 0 none

variable {retry : RetryConfig} {draws : Nat → ℚ} {outcomes : Nat → CallResult α} {ctxDone : Nat → Option CallError}
  {onSuccess : Option α → Returned β} {left attempt : Nat} {lastErr : Option CallError}

theorem returned_retryRun :
    (retryRun retry draws outcomes ctxDone onSuccess left attempt lastErr).returned =
      retryLoop retry outcomes ctxDone onSuccess left attempt lastErr := by
  induction left generalizing attempt lastErr with
  | zero => rfl
  | succ left ih =>
    unfold retryRun retryLoop
    dsimp only
    cases if attempt = 0 then none else ctxDone attempt with
    | some err => rfl
    | none =>
      cases afterCall retry attempt (outcomes attempt) with
      | succeed value => rfl
      | fail err => rfl
      | retry err => exact ih

theorem returned_chatCompletionRun :
    (chatCompletionRun retry draws outcomes ctxDone).returned = chatCompletion retry outcomes ctxDone :=
  returned_retryRun

theorem returned_chatCompletionStreamRun :
    (chatCompletionStreamRun retry draws outcomes ctxDone).returned = chatCompletionStream retry outcomes ctxDone :=
  returned_retryRun

/-- The outcome is a retryable error. -/
def CallResult.Retries (res : CallResult α) : Prop := ∃ err, res.err = some err ∧ isRetryable err = true

instance (res : CallResult α) : Decidable res.Retries :=
  decidable_of_iff (res.err.any isRetryable = true) (Option.any_eq_true ..)

/-- The index of the first outcome that is not a retryable error. -/
noncomputable def firstFinal (outcomes : Nat → CallResult α) : ℕ∞ :=
  ⨅ (i : ℕ) (_ : ¬(outcomes i).Retries), (i : ℕ∞)

/-- The error the loop remembers when it comes to the attempt. -/
def errBefore (outcomes : Nat → CallResult α) : Nat → Option CallError
  | 0 => none
  | j + 1 => (outcomes j).err

/-- The attempts before `n`, each after its wait on the error of the one before. -/
def schedule (retry : RetryConfig) (draws : Nat → ℚ) (outcomes : Nat → CallResult α) (n : Nat) : List LoopEffect :=
  (List.range n).flatMap fun j => waitBefore retry draws j (errBefore outcomes j) ++ [.call j]

/-- What is returned and recorded after the last attempt. -/
def concluded (onSuccess : Option α → Returned β) (res : CallResult α) : Returned β :=
  match res.err with
  | none => onSuccess res.value
  | some err => ⟨none, some err, [.failure (some err)]⟩

/-- The specification of the loop. Every attempt up to the last one is made and
its outcome decides, unless a wait on the way ends with the context. -/
structure FollowsRetries (retry : RetryConfig) (draws : Nat → ℚ) (outcomes : Nat → CallResult α)
    (ctxDone : Nat → Option CallError) (onSuccess : Option α → Returned β) (last : Nat) (run : LoopRun β) :
    Prop where
  uncancelled : (∀ a, 0 < a → a ≤ last → ctxDone a = none) →
    run.calls = 1 + last ∧ run.effects = schedule retry draws outcomes (last + 1) ∧
      run.returned = concluded onSuccess (outcomes last)
  cancelled : ∀ a err, 0 < a → a ≤ last → (∀ b, 0 < b → b < a → ctxDone b = none) → ctxDone a = some err →
    run.calls = a ∧
      run.effects = schedule retry draws outcomes a ++ waitBefore retry draws a (outcomes (a - 1)).err ∧
      run.returned = ⟨none, some err, []⟩

theorem afterCall_of_retries {res : CallResult α} (retries : res.Retries)
    (more : (attempt : Int) ≠ retry.maxRetries) :
    ∃ err, res.err = some err ∧ afterCall retry attempt res = .retry err := by
  obtain ⟨err, failed, retryable⟩ := retries
  refine ⟨err, failed, ?_⟩
  unfold afterCall
  rw [failed]
  dsimp only
  rw [if_neg (by simp [retryable]), if_neg more]

/-- An outcome that ends the loop is a success or an error to be returned. -/
theorem afterCall_of_final {res : CallResult α} (final : res.Retries → (attempt : Int) = retry.maxRetries) :
    res.err = none ∧ afterCall retry attempt res = .succeed res.value ∨
      ∃ err, res.err = some err ∧ afterCall retry attempt res = .fail err := by
  unfold afterCall
  cases failed : res.err with
  | none => exact Or.inl ⟨rfl, rfl⟩
  | some err =>
    refine Or.inr ⟨err, rfl, ?_⟩
    dsimp only
    cases retryable : isRetryable err with
    | false => rfl
    | true => exact if_pos (final ⟨err, failed, retryable⟩)

theorem retryRun_interrupted {err : CallError} (later : 0 < attempt) (done : ctxDone attempt = some err) :
    retryRun retry draws outcomes ctxDone onSuccess (left + 1) attempt lastErr =
      ⟨waitBefore retry draws attempt lastErr, none, some err, []⟩ := by
  rw [retryRun, if_neg later.ne', done]

/-- The loop goes on to the attempt, after a wait unless it is the first. -/
theorem wait_over (waited : 0 < attempt → ctxDone attempt = none) :
    (if attempt = 0 then none else ctxDone attempt) = none := by
  split
  · rfl
  · exact waited (by omega)

theorem retryRun_final (waited : 0 < attempt → ctxDone attempt = none)
    (final : (outcomes attempt).Retries → (attempt : Int) = retry.maxRetries) :
    retryRun retry draws outcomes ctxDone onSuccess (left + 1) attempt lastErr =
      ⟨waitBefore retry draws attempt lastErr ++ [.call attempt], concluded onSuccess (outcomes attempt)⟩ := by
  rw [retryRun, wait_over waited, concluded]
  rcases afterCall_of_final final with ⟨noErr, after⟩ | ⟨err, failed, after⟩
  · rw [after, noErr]
  · rw [after, failed]

theorem retryRun_next (waited : 0 < attempt → ctxDone attempt = none) (retries : (outcomes attempt).Retries)
    (more : (attempt : Int) ≠ retry.maxRetries) :
    let rest := retryRun retry draws outcomes ctxDone onSuccess left (attempt + 1) (outcomes attempt).err
    retryRun retry draws outcomes ctxDone onSuccess (left + 1) attempt lastErr =
      ⟨waitBefore retry draws attempt lastErr ++ .call attempt :: rest.effects, rest.returned⟩ := by
  obtain ⟨err, failed, after⟩ := afterCall_of_retries retries more
  rw [retryRun, wait_over waited, failed]
  dsimp only
  rw [after]

theorem schedule_succ (n : Nat) :
    schedule retry draws outcomes (n + 1) =
      schedule retry draws outcomes n ++ (waitBefore retry draws n (errBefore outcomes n) ++ [.call n]) := by
  rw [schedule, List.range_succ, List.flatMap_append, List.flatMap_singleton, ← schedule]

@[simp] theorem countP_waitBefore : (waitBefore retry draws attempt lastErr).countP LoopEffect.isCall = 0 := by
  unfold waitBefore
  split <;> rfl

@[simp] theorem countP_schedule (n : Nat) : (schedule retry draws outcomes n).countP LoopEffect.isCall = n := by
  induction n with
  | zero => rfl
  | succ n ih =>
    rw [schedule_succ, List.countP_append, List.countP_append, ih, countP_waitBefore]
    rfl

/-- The loop comes to attempt `n` when every attempt before it is made and fails
with a retryable error. -/
theorem retryRun_schedule (n left : Nat) (waited : ∀ j < n, 0 < j → ctxDone j = none)
    (retries : ∀ j < n, (outcomes j).Retries) (more : (n : Int) ≤ retry.maxRetries) :
    let rest := retryRun retry draws outcomes ctxDone onSuccess left n (errBefore outcomes n)
    retryRun retry draws outcomes ctxDone onSuccess (left + n) 0 none =
      ⟨schedule retry draws outcomes n ++ rest.effects, rest.returned⟩ := by
  induction n generalizing left with
  | zero => rfl
  | succ n ih =>
    have before := ih (left + 1) (fun j below => waited j (by omega)) (fun j below => retries j (by omega)) (by omega)
    have notLast : (n : Int) ≠ retry.maxRetries := by omega
    rw [show left + (n + 1) = left + 1 + n by omega, before,
      retryRun_next (waited n (by omega)) (retries n (by omega)) notLast, schedule_succ]
    simp only [errBefore, List.append_assoc, List.singleton_append]

theorem followsRetries_retryRun {last : Nat} (retries : ∀ j < last, (outcomes j).Retries)
    (final : (outcomes last).Retries → (last : Int) = retry.maxRetries) (bound : (last : Int) ≤ retry.maxRetries) :
    FollowsRetries retry draws outcomes ctxDone onSuccess last
      (retryRun retry draws outcomes ctxDone onSuccess (attempts retry) 0 none) where
  uncancelled := by
    intro waited
    obtain ⟨left, enough⟩ : ∃ left, attempts retry = left + 1 + last :=
      ⟨attempts retry - 1 - last, by unfold attempts; omega⟩
    rw [enough, retryRun_schedule last (left + 1) (fun j below later => waited j later below.le) retries bound,
      retryRun_final (fun later => waited last later le_rfl) final]
    refine ⟨?_, (schedule_succ last).symm, rfl⟩
    simp only [LoopRun.calls, List.countP_append, countP_schedule, countP_waitBefore]
    rw [Nat.add_comm]
    rfl
  cancelled := by
    intro a err later within waited done
    obtain ⟨left, enough⟩ : ∃ left, attempts retry = left + 1 + a :=
      ⟨attempts retry - 1 - a, by unfold attempts; omega⟩
    rw [enough, retryRun_schedule a (left + 1) (fun j below positive => waited j positive below)
      (fun j below => retries j (by omega)) (by omega), retryRun_interrupted later done]
    obtain ⟨j, rfl⟩ : ∃ j, a = j + 1 := ⟨a - 1, by omega⟩
    exact ⟨by simp [LoopRun.calls], rfl, rfl⟩

/-- The last attempt: the first one that is not retryable, or the one the bound
allows. -/
theorem exists_lastAttempt (outcomes : Nat → CallResult α) (most : Nat) :
    ∃ last : ℕ, (last : ℕ∞) = min (firstFinal outcomes) most ∧ last ≤ most ∧ (∀ j < last, (outcomes j).Retries) ∧
      ((outcomes last).Retries → last = most) := by
  have ends : ∃ n, (outcomes n).Retries → n = most := ⟨most, fun _ => rfl⟩
  obtain ⟨final, first⟩ : ((outcomes (Nat.find ends)).Retries → Nat.find ends = most) ∧
      ∀ j < Nat.find ends, (outcomes j).Retries :=
    ⟨Nat.find_spec ends, fun j below => (Classical.not_imp.mp (Nat.find_min ends below)).1⟩
  have within : Nat.find ends ≤ most := Nat.find_min' ends fun _ => rfl
  generalize Nat.find ends = last at final first within
  refine ⟨last, le_antisymm (le_min ?_ (by exact_mod_cast within)) ?_, within, first, final⟩
  · refine le_iInf₂ fun i stops => ?_
    have notBefore : last ≤ i := not_lt.mp fun below => stops (first i below)
    exact_mod_cast notBefore
  · by_cases retries : (outcomes last).Retries
    · rw [final retries]
      exact min_le_right _ _
    · exact min_le_of_left_le (iInf₂_le last retries)

/-- The two retry loops follow one specification: the wrapped method is called
up to the first outcome that is not a retryable error, at most `MaxRetries`
times more, and the last outcome is returned and recorded. -/
theorem retry_loops_follow (retry : RetryConfig) (bound : 0 ≤ retry.maxRetries) (draws : Nat → ℚ)
    (outcomes : Nat → CallResult α) (ctxDone : Nat → Option CallError) :
    ∃ last : ℕ, (last : ℕ∞) = min (firstFinal outcomes) retry.maxRetries.toNat ∧
      FollowsRetries retry draws outcomes ctxDone completed last (chatCompletionRun retry draws outcomes ctxDone) ∧
      FollowsRetries retry draws outcomes ctxDone tracked last
        (chatCompletionStreamRun retry draws outcomes ctxDone) ∧
      (chatCompletionRun retry draws outcomes ctxDone).returned = chatCompletion retry outcomes ctxDone ∧
      (chatCompletionStreamRun retry draws outcomes ctxDone).returned =
        chatCompletionStream retry outcomes ctxDone := by
  obtain ⟨last, isLast, within, retries, final⟩ := exists_lastAttempt outcomes retry.maxRetries.toNat
  have final' : (outcomes last).Retries → (last : Int) = retry.maxRetries := by
    intro retryable
    have most := final retryable
    omega
  have most : (last : Int) ≤ retry.maxRetries := by omega
  exact ⟨last, isLast, followsRetries_retryRun retries final' most, followsRetries_retryRun retries final' most,
    returned_chatCompletionRun, returned_chatCompletionStreamRun⟩

end Loop

/-- A failure that may be retried, then an answer. -/
def secondTry : Nat → CallResult Unit
  | 0 => ⟨none, some (.provider "overloaded" ⟨503, "", "", true, 0⟩)⟩
  | _ => ⟨some (), none⟩

/-- With one retry the answer of the second attempt is returned after half a
second. -/
theorem retry_loops_follow_secondTry :
    (chatCompletionRun ⟨1, 1000000000⟩ (fun _ => 0) secondTry fun _ => none).effects =
        [.call 0, .wait 500000000, .call 1] ∧
      ∃ last : ℕ, (last : ℕ∞) = min (firstFinal secondTry) 1 ∧
        FollowsRetries ⟨1, 1000000000⟩ (fun _ => 0) secondTry (fun _ => none) completed last
          (chatCompletionRun ⟨1, 1000000000⟩ (fun _ => 0) secondTry fun _ => none) := by
  obtain ⟨last, isLast, follows, _⟩ :=
    retry_loops_follow ⟨1, 1000000000⟩ (by decide) (fun _ => 0) secondTry fun _ => none
  exact ⟨by decide +kernel, last, isLast, follows⟩

end LlmGateway
