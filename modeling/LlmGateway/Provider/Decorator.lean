import LlmGateway.Provider.Health
import LlmGateway.Provider.Registry

namespace LlmGateway

structure ProviderError where
  statusCode : Int
  type : String
  message : String
  retryable : Bool
  retryAfter : Int
deriving DecidableEq, Repr

/-- What a wrapped call fails with: an error that wraps a `ProviderError`, one
that wraps the error of the context, or any other. -/
inductive CallError where
  | provider (text : String) (pe : ProviderError)
  | context (text : String)
  | other (text : String)
deriving DecidableEq, Repr

def CallError.error : CallError → String
  | .provider text _ | .context text | .other text => text

def isRetryable : CallError → Bool
  | .provider _ pe => pe.retryable
  | _ => false

/-- The two return values of a Go call. `none` is nil. -/
structure CallResult (α : Type) where
  value : Option α
  err : Option CallError
deriving DecidableEq, Repr

/-- One of the two return values is not nil. -/
def CallResult.Yields {α : Type} (res : CallResult α) : Prop := res.value.isSome ∨ res.err.isSome

/-- `recordHealthSuccess` or `recordHealthFailure`. -/
inductive HealthRecord where
  | success
  | failure (err : Option CallError)
deriving DecidableEq, Repr

def HealthRecord.apply (h : ProviderHealth) (now : Int) : HealthRecord → ProviderHealth
  | .success => h.recordSuccess now
  | .failure err => (h.recordFailure now (err.map CallError.error)).2

/-- What the retry loop does with the result of an attempt. -/
inductive AfterCall (α : Type) where
  | succeed (value : Option α)
  | fail (err : CallError)
  | retry (err : CallError)

/-- The body of the retry loop after the wrapped call. An error that is not
retryable and the error of the last attempt end the loop in the same way. -/
def afterCall {α : Type} (retry : RetryConfig) (attempt : Nat) (res : CallResult α) : AfterCall α :=
  match res.err with
  | none => .succeed res.value
  | some err => if !isRetryable err then .fail err else if attempt = retry.maxRetries then .fail err else .retry err

/-- A call as a whole: what it returns and what it records. -/
structure Returned (β : Type) where
  value : Option β
  err : Option CallError
  records : List HealthRecord

def Returned.Yields {β : Type} (out : Returned β) : Prop := out.value.isSome ∨ out.err.isSome

section Loop

variable {α β : Type}

/-- The retry loop. `outcomes` are the results of the wrapped call by attempt;
`ctxDone` gives the error of the context where the wait before an attempt ends
with it, and there is none before the first one. The first argument counts the
iterations that the loop condition still allows. -/
def retryLoop (retry : RetryConfig) (outcomes : Nat → CallResult α) (ctxDone : Nat → Option CallError)
    (onSuccess : Option α → Returned β) : Nat → Nat → Option CallError → Returned β
  | 0, _, lastErr => ⟨none, lastErr, [.failure lastErr]⟩
  | left + 1, attempt, _ =>
    match if attempt = 0 then none else ctxDone attempt with
    | some err => ⟨none, some err, []⟩
    | none =>
      match afterCall retry attempt (outcomes attempt) with
      | .succeed value => onSuccess value
      | .fail err => ⟨none, some err, [.failure (some err)]⟩
      | .retry err => retryLoop retry outcomes ctxDone onSuccess left (attempt + 1) (some err)

/-- `attempt` runs from 0 to `MaxRetries`: not at all when that is negative. -/
def attempts (retry : RetryConfig) : Nat := (retry.maxRetries + 1).toNat

def chatCompletion (retry : RetryConfig) (outcomes : Nat → CallResult α) (ctxDone : Nat → Option CallError) :
    Returned α :=
  retryLoop retry outcomes ctxDone (fun resp => ⟨resp, none, [.success]⟩) (attempts retry) 0 none

/-- The channel that `trackStreamHealth` makes, with the channel it reads. -/
structure TrackedStream (α : Type) where
  input : Option α

def chatCompletionStream (retry : RetryConfig) (outcomes : Nat → CallResult α) (ctxDone : Nat → Option CallError) :
    Returned (TrackedStream α) :=
  retryLoop retry outcomes ctxDone (fun ch => ⟨some ⟨ch⟩, none, []⟩) (attempts retry) 0 none

variable {retry : RetryConfig} {outcomes : Nat → CallResult α} {ctxDone : Nat → Option CallError}

/-- The loop yields a value or an error unless it is left before the first
attempt: every attempt that does not return leaves an error behind. -/
theorem retryLoop_yields {onSuccess : Option α → Returned β} (never : ∀ n, (outcomes n).Yields)
    (passed : ∀ value, value.isSome → (onSuccess value).Yields) {left attempt : Nat} {lastErr : Option CallError}
    (started : 0 < left ∨ lastErr.isSome) :
    (retryLoop retry outcomes ctxDone onSuccess left attempt lastErr).Yields := by
  induction left generalizing attempt lastErr with
  | zero =>
    rcases started with none | failed
    · omega
    · exact Or.inr failed
  | succ left ih =>
    unfold retryLoop
    split
    · exact Or.inr rfl
    · split
      · rename_i value ended
        refine passed value ?_
        unfold afterCall at ended
        split at ended
        · rename_i noErr
          cases ended
          exact (never attempt).resolve_right (by simp [noErr])
        · split at ended
          · cases ended
          · split at ended <;> cases ended
      · exact Or.inr rfl
      · exact ih (Or.inr rfl)

theorem attempts_pos : 0 < attempts retry ↔ 0 ≤ retry.maxRetries := by
  unfold attempts
  omega

theorem chatCompletion_yields (bound : 0 ≤ retry.maxRetries) (never : ∀ n, (outcomes n).Yields) :
    (chatCompletion retry outcomes ctxDone).Yields :=
  retryLoop_yields never (fun _ some => Or.inl some) (Or.inl (attempts_pos.mpr bound))

theorem chatCompletionStream_yields (bound : 0 ≤ retry.maxRetries) (never : ∀ n, (outcomes n).Yields) :
    (chatCompletionStream retry outcomes ctxDone).Yields :=
  retryLoop_yields never (fun _ _ => Or.inl rfl) (Or.inl (attempts_pos.mpr bound))

/-- With a negative bound nothing is called and nothing is returned. -/
theorem chatCompletion_of_neg (bound : retry.maxRetries < 0) :
    chatCompletion retry outcomes ctxDone = ⟨none, none, [.failure none]⟩ := by
  have none : attempts retry = 0 := by
    unfold attempts
    omega
  rw [chatCompletion, none, retryLoop]

end Loop

end LlmGateway
