import Mathlib.Algebra.Order.Floor.Ring
import Mathlib.Data.Rat.Floor
import Mathlib.Tactic.Linarith
import LlmGateway.Provider.Retries
import LlmGateway.Provider.Upstream

namespace LlmGateway

theorem toInt64_intCast (n : Int) : toInt64 n = if -2 ^ 63 ≤ n ∧ n < 2 ^ 63 then n else -2 ^ 63 := by
  simp only [toInt64, Rat.num_intCast, Rat.den_intCast, Nat.cast_one, Int.tdiv_one]

/-- A float that is not negative is rounded down. -/
theorem toInt64_of_nonneg {x : ℚ} (nonneg : 0 ≤ x) (fits : x < 2 ^ 63) : toInt64 x = ⌊x⌋ := by
  have truncated : x.num.tdiv x.den = ⌊x⌋ := by
    rw [Int.tdiv_eq_ediv_of_nonneg (Rat.num_nonneg.mpr nonneg), Rat.floor_def']
  have low : 0 ≤ ⌊x⌋ := Int.floor_nonneg.mpr nonneg
  have high : ⌊x⌋ < 2 ^ 63 := Int.floor_lt.mpr (by exact_mod_cast fits)
  simp only [toInt64, truncated]
  rw [if_pos ⟨by omega, high⟩]

theorem toInt64_neg {x : ℚ} (neg : x ≤ -1) : toInt64 x < 0 := by
  have small : x.num ≤ -x.den := by
    have scaled := mul_le_mul_of_nonneg_right neg (Nat.cast_nonneg (α := ℚ) x.den)
    rw [Rat.mul_den_eq_num] at scaled
    exact_mod_cast (by linarith : (x.num : ℚ) ≤ -x.den)
  have positive : 0 < (x.den : Int) := by exact_mod_cast x.den_pos
  have quotient : 1 ≤ -x.num / x.den := (Int.le_ediv_iff_mul_le positive).mpr (by omega)
  have truncated : x.num.tdiv x.den = -(-x.num / x.den) := by
    rw [← Int.tdiv_eq_ediv_of_nonneg (by omega), Int.neg_tdiv, Int.neg_neg]
  simp only [toInt64, truncated]
  split <;> omega

/-- The base of the exponential. -/
def backoffBase (retry : RetryConfig) : Int := if retry.retryBackoff ≤ 0 then 1000000000 else retry.retryBackoff

theorem backoffBase_pos (retry : RetryConfig) : 0 < backoffBase retry := by
  unfold backoffBase
  split <;> omega

/-- The bound that the jitter is taken from: the exponential, capped. -/
def cappedBackoff (retry : RetryConfig) (attempt : Nat) : Int :=
  min (backoffBase retry * 2 ^ (attempt - 1)) maxBackoff

/-- The wait is at least half of the bound and at most the bound. -/
def BackoffInRange (bound backoff : Int) : Prop :=
  bound / 2 ≤ backoff ∧ backoff ≤ bound ∧ 0 ≤ backoff ∧ backoff ≤ maxBackoff

section Computed

variable {retry : RetryConfig} {rand : ℚ} {attempt : Nat} {err : Option CallError}

/-- `backoffDuration` without a requested wait, with its integer product. -/
theorem backoffDuration_computed (unasked : requestedWait err = none) (started : 1 ≤ attempt) :
    backoffDuration retry rand attempt err =
      let d := toInt64 (backoffBase retry * 2 ^ (attempt - 1) : Int)
      toInt64 ((if maxBackoff < d then maxBackoff else d : Int) * (1 / 2 + rand * (1 / 2))) := by
  have exponent : ((attempt : Int) - 1) = ((attempt - 1 : Nat) : Int) := by omega
  simp only [backoffDuration, unasked, exponent, zpow_natCast, backoffBase]
  push_cast
  rfl

/-- The jitter leaves between half of a duration and all of it. -/
theorem toInt64_jitter {d : Int} (nonneg : 0 ≤ d) (capped : d ≤ maxBackoff) (low : 0 ≤ rand) (high : rand < 1) :
    d / 2 ≤ toInt64 (d * (1 / 2 + rand * (1 / 2))) ∧ toInt64 (d * (1 / 2 + rand * (1 / 2))) ≤ d := by
  have positive : (0 : ℚ) ≤ d := by exact_mod_cast nonneg
  have least : (d : ℚ) / 2 ≤ d * (1 / 2 + rand * (1 / 2)) := by nlinarith
  have most : d * (1 / 2 + rand * (1 / 2)) ≤ (d : ℚ) := by nlinarith
  have cap : (d : ℚ) ≤ 30 * 1000000000 := by
    have cast : (d : ℚ) ≤ (30 * 1000000000 : Int) := by exact_mod_cast capped
    exact_mod_cast cast
  rw [toInt64_of_nonneg (by linarith) (by linarith)]
  constructor
  · have half : ((d / 2 : Int) : ℚ) ≤ d / 2 := by
      have whole : 2 * (d / 2) ≤ d := by omega
      have cast : ((2 * (d / 2) : Int) : ℚ) ≤ d := by exact_mod_cast whole
      push_cast at cast
      linarith
    exact Int.le_floor.mpr (half.trans least)
  · exact_mod_cast (Int.floor_le _).trans most

/-- The computed backoff is in its range iff the exponential fits in 64 bits:
the conversion of a larger product comes before the cap and makes it negative. -/
theorem backoff_in_range_iff (retry : RetryConfig) (err : Option CallError) (unasked : requestedWait err = none)
    {rand : ℚ} (low : 0 ≤ rand) (high : rand < 1) {attempt : Nat} (started : 1 ≤ attempt) :
    BackoffInRange (cappedBackoff retry attempt) (backoffDuration retry rand attempt err) ↔
      backoffBase retry * 2 ^ (attempt - 1) < 2 ^ 63 := by
  have positive : 0 < backoffBase retry * 2 ^ (attempt - 1) := mul_pos (backoffBase_pos retry) (by positivity)
  rw [backoffDuration_computed unasked started]
  dsimp only
  constructor
  · rintro ⟨_, _, nonneg, _⟩
    by_contra overflow
    have lost : toInt64 (backoffBase retry * 2 ^ (attempt - 1) : Int) = -2 ^ 63 := by
      rw [toInt64_intCast, if_neg (by omega)]
    rw [lost, if_neg (by decide)] at nonneg
    have negative : toInt64 (((-2 ^ 63 : Int) : ℚ) * (1 / 2 + rand * (1 / 2))) < 0 := by
      refine toInt64_neg ?_
      push_cast
      linarith
    omega
  · intro fits
    have kept : toInt64 (backoffBase retry * 2 ^ (attempt - 1) : Int) = backoffBase retry * 2 ^ (attempt - 1) := by
      rw [toInt64_intCast, if_pos ⟨by omega, fits⟩]
    have capped : (if maxBackoff < backoffBase retry * 2 ^ (attempt - 1) then maxBackoff
        else backoffBase retry * 2 ^ (attempt - 1)) = cappedBackoff retry attempt := by
      unfold cappedBackoff
      split <;> omega
    rw [kept, capped]
    have bound : cappedBackoff retry attempt ≤ maxBackoff := min_le_right _ _
    have nonneg : 0 ≤ cappedBackoff retry attempt := le_min positive.le (by decide)
    obtain ⟨least, most⟩ := toInt64_jitter nonneg bound low high
    exact ⟨least, most, by omega, by omega⟩

end Computed

/-- A failure of the upstream that names no wait. -/
def overloaded : CallError := .provider "overloaded" ⟨503, "", "", true, 0⟩

/-- The second retry with the default base waits between one and two seconds. -/
theorem backoff_in_range_iff_second :
    BackoffInRange (cappedBackoff ⟨3, 0⟩ 2) (backoffDuration ⟨3, 0⟩ (1 / 4) 2 (some overloaded)) :=
  (backoff_in_range_iff ⟨3, 0⟩ (some overloaded) rfl (by norm_num) (by norm_num) (by decide)).mpr (by decide)

/-- The thirty-fifth retry with the default base does not wait at all. -/
theorem thirty_fifth_backoff_negative :
    requestedWait (some overloaded) = none ∧ cappedBackoff ⟨35, 0⟩ 35 = 30 * 1000000000 ∧
      backoffDuration ⟨35, 0⟩ 0 35 (some overloaded) = -2 ^ 62 ∧
      ¬ BackoffInRange (cappedBackoff ⟨35, 0⟩ 35) (backoffDuration ⟨35, 0⟩ 0 35 (some overloaded)) := by
  have negative : backoffDuration ⟨35, 0⟩ 0 35 (some overloaded) = -2 ^ 62 := by decide +kernel
  refine ⟨rfl, by decide +kernel, negative, ?_⟩
  rintro ⟨_, _, nonneg, _⟩
  rw [negative] at nonneg
  exact absurd nonneg (by decide)

/-- After the call of the attempt the loop is over, or it goes on with a wait of
at least the given duration. -/
def WaitsAfter (effects : List LoopEffect) (attempt : Nat) (least : Int) : Prop :=
  ∀ before rest, effects = before ++ .call attempt :: rest →
    rest = [] ∨ ∃ backoff after, rest = .wait backoff :: after ∧ least ≤ backoff

section Loop

variable {α β : Type} {retry : RetryConfig} {draws : Nat → ℚ} {outcomes : Nat → CallResult α}
  {ctxDone : Nat → Option CallError} {onSuccess : Option α → Returned β}

theorem call_notMem_waitBefore {attempt a : Nat} {lastErr : Option CallError} :
    .call a ∉ waitBefore retry draws attempt lastErr := by
  unfold waitBefore
  split <;> simp

/-- A wait of the loop, then an attempt and what follows it: a call is found in
what follows or is that of the attempt. -/
theorem split_at_call {waits before rest tail : List LoopEffect} {attempt a : Nat} (none : .call a ∉ waits)
    (split : waits ++ .call attempt :: tail = before ++ .call a :: rest) :
    attempt = a ∧ tail = rest ∨ ∃ before', tail = before' ++ .call a :: rest := by
  rcases List.append_eq_append_iff.mp split with ⟨middle, _, later⟩ | ⟨middle, earlier, same⟩
  · cases middle with
    | nil =>
      obtain ⟨head, rfl⟩ := List.cons.inj later
      exact Or.inl ⟨LoopEffect.call.inj head, rfl⟩
    | cons first middle =>
      obtain ⟨_, inside⟩ := List.cons.inj later
      exact Or.inr ⟨middle, inside⟩
  · cases middle with
    | nil =>
      obtain ⟨head, rfl⟩ := List.cons.inj same
      exact Or.inl ⟨(LoopEffect.call.inj head).symm, rfl⟩
    | cons first middle =>
      obtain ⟨rfl, _⟩ := List.cons.inj same
      exact absurd (by simp [earlier]) none

/-- A loop that is not over begins with the wait before its attempt. -/
theorem retryRun_head {left attempt : Nat} {lastErr : Option CallError} (later : 0 < attempt) :
    (retryRun retry draws outcomes ctxDone onSuccess left attempt lastErr).effects = [] ∨
      ∃ after, (retryRun retry draws outcomes ctxDone onSuccess left attempt lastErr).effects =
        .wait (backoffDuration retry (draws attempt) attempt lastErr) :: after := by
  cases left with
  | zero => exact Or.inl rfl
  | succ left =>
    have waits : waitBefore retry draws attempt lastErr =
        [.wait (backoffDuration retry (draws attempt) attempt lastErr)] := if_neg later.ne'
    refine Or.inr ?_
    unfold retryRun
    dsimp only
    rw [waits]
    split
    · exact ⟨_, rfl⟩
    · split <;> exact ⟨_, rfl⟩

/-- What follows a call in the effects of the loop is nothing or the backoff on
the outcome of that call. -/
theorem retryRun_after_call {left attempt : Nat} {lastErr : Option CallError} {a : Nat}
    {before rest : List LoopEffect}
    (split : (retryRun retry draws outcomes ctxDone onSuccess left attempt lastErr).effects =
      before ++ .call a :: rest) :
    rest = [] ∨ ∃ after,
      rest = .wait (backoffDuration retry (draws (a + 1)) (a + 1 : Nat) (outcomes a).err) :: after := by
  induction left generalizing attempt lastErr before with
  | zero => simp [retryRun] at split
  | succ left ih =>
    unfold retryRun at split
    dsimp only at split
    split at split
    · -- the context ended the wait
      have member : .call a ∈ waitBefore retry draws attempt lastErr := by
        rw [show waitBefore retry draws attempt lastErr = _ from split]
        simp
      exact absurd member call_notMem_waitBefore
    · split at split
      · rcases split_at_call call_notMem_waitBefore split with ⟨_, rfl⟩ | ⟨before', inside⟩
        · exact Or.inl rfl
        · simp at inside
      · rcases split_at_call call_notMem_waitBefore split with ⟨_, rfl⟩ | ⟨before', inside⟩
        · exact Or.inl rfl
        · simp at inside
      · rename_i err after
        have failed : (outcomes attempt).err = some err := by
          unfold afterCall at after
          split at after
          · cases after
          · rename_i e failed
            rw [failed]
            split at after
            · cases after
            · split at after <;> cases after
              rfl
        rcases split_at_call call_notMem_waitBefore split with ⟨rfl, rfl⟩ | ⟨before', inside⟩
        · rw [failed]
          exact retryRun_head (Nat.succ_pos attempt)
        · exact ih inside

theorem waitsAfter_retryRun {left attempt : Nat} {lastErr : Option CallError} {a : Nat} {least : Int}
    (long : ∀ draw, least ≤ backoffDuration retry draw (a + 1 : Nat) (outcomes a).err) :
    WaitsAfter (retryRun retry draws outcomes ctxDone onSuccess left attempt lastErr).effects a least := by
  intro before rest split
  rcases retryRun_after_call split with ended | ⟨after, next⟩
  · exact Or.inl ended
  · exact Or.inr ⟨_, after, next, long _⟩

end Loop

/-- A wait in seconds is honoured iff it fits in a 64-bit number of nanoseconds:
`ParseRetryAfter` returns it, and both loops wait for it before they go on. -/
theorem retryAfter_honoured_iff (adapter : Adapter) (codec : ErrorCodec) (resp : UpstreamResponse)
    (limited : resp.statusCode = 429) {n : Int} (numeral : atoi resp.retryAfter = some n) (positive : 1 ≤ n) :
    (parseRetryAfter codec.untilDate resp.retryAfter = n * second ∧
      ∀ (α : Type) (accept : UpstreamResponse → CallResult α) (retry : RetryConfig) (draws : Nat → ℚ)
        (replies : Nat → Reply) (ctxDone : Nat → Option CallError) (a : Nat), replies a = .answered resp →
        WaitsAfter (chatCompletionRun retry draws (fun i => adapter.result codec accept (replies i)) ctxDone).effects
            a (n * second) ∧
          WaitsAfter
            (chatCompletionStreamRun retry draws (fun i => adapter.result codec accept (replies i)) ctxDone).effects
            a (n * second)) ↔
      n * second < 2 ^ 63 := by
  have longer : 0 < n * second := by
    rw [show second = 1000000000 from rfl]
    omega
  have filled : resp.retryAfter ≠ "" := by
    intro empty
    rw [empty] at numeral
    cases numeral
  have parsed : parseRetryAfter codec.untilDate resp.retryAfter = wrap64 (n * second) := by
    rw [parseRetryAfter, if_neg filled, numeral]
  constructor
  · rintro ⟨exact, _⟩
    have bound := wrap64_lt (n * second)
    omega
  · intro fits
    have kept : parseRetryAfter codec.untilDate resp.retryAfter = n * second := by
      rw [parsed, wrap64_of_fits (by omega) fits]
    refine ⟨kept, ?_⟩
    intro α accept retry draws replies ctxDone a answered
    have asked : requestedWait (adapter.result codec accept (replies a)).err = some (n * second) := by
      obtain ⟨type, message, failure⟩ := adapter.handleErrorResponse_eq codec resp
      rw [answered, adapter.result_of_failure codec accept (by omega), failure]
      simp only [requestedWait, Option.bind_some, asProviderError, limited, kept, true_and]
      exact if_pos longer
    have long (draw : ℚ) : n * second ≤ backoffDuration retry draw (a + 1 : Nat)
        (adapter.result codec accept (replies a)).err := by
      simp only [backoffDuration, asked, le_refl]
    exact ⟨waitsAfter_retryRun long, waitsAfter_retryRun long⟩

/-- An answer that asks for two minutes gets them. -/
theorem retryAfter_honoured_iff_minutes :
    parseRetryAfter plainCodec.untilDate "120" = 120 * second ∧
      WaitsAfter (chatCompletionRun ⟨1, 0⟩ (fun _ => 0)
        (fun _ => Adapter.openai.result plainCodec (fun _ => (⟨some (), none⟩ : CallResult Unit))
          (.answered ⟨429, "120", []⟩)) fun _ => none).effects 0 (120 * second) := by
  obtain ⟨parsed, waits⟩ := (retryAfter_honoured_iff .openai plainCodec ⟨429, "120", []⟩ rfl
    (n := 120) (atoi_repr (n := 120) (by decide)) (by decide)).mpr (by decide)
  exact ⟨parsed, (waits Unit (fun _ => ⟨some (), none⟩) ⟨1, 0⟩ (fun _ => 0) (fun _ => .answered ⟨429, "120", []⟩)
    (fun _ => none) 0 rfl).1⟩

/-- An answer that asks for 292 years is tried again after half a second. -/
theorem centuries_wait_half_a_second :
    atoi "9223372037" = some 9223372037 ∧
      parseRetryAfter plainCodec.untilDate "9223372037" = -9223372036709551616 ∧
      (chatCompletionRun ⟨1, 0⟩ (fun _ => 0)
        (fun _ => Adapter.openai.result plainCodec (fun _ => (⟨some (), none⟩ : CallResult Unit))
          (.answered ⟨429, "9223372037", []⟩)) fun _ => none).effects =
        [.call 0, .wait 500000000, .call 1] := by
  decide +kernel

end LlmGateway
