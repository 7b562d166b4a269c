import LlmGateway.Handler.Stream
import LlmGateway.Provider.Retries
import LlmGateway.Provider.Upstream

namespace LlmGateway

/-- What the server sends when a handler writes the error. `WriteHeader` panics
on a code that has not three digits. The wrapper of `Observe` has noted a header
by then, so the 500 of `Recoverer` goes no further, and the server ends the
request with a 200 of its own. -/
def APIErr.deliver (encode : APIErr → List UInt8) (w : ResponseWriter) (err : APIErr) : ResponseWriter :=
  if 100 ≤ err.status ∧ err.status ≤ 999 then err.write encode w else w.writeHeader 200

/-- `handleNonStream` with what `ChatCompletion` returned. The usage of a nil response
is read, and `Recoverer` answers for the panic. -/
def handleNonStream (marshal : ChatCompletionResponse → List UInt8) (encode : APIErr → List UInt8)
    (called : Returned ChatCompletionResponse) (w : ResponseWriter) : ResponseWriter :=
  match called.err, called.value with
  | some err, _ => (handleProviderError err).deliver encode w
  | none, some resp => { w with contentType := "application/json" }.write (marshal resp)
  | none, none => w.writeHeader 500

/-- `handleStream` with what `ChatCompletionStream` returned: an error, or the
channel with the events it delivers. A range over a nil channel never ends. -/
def handleOpenedStream (marshal : ChatCompletionChunk → Except String (List UInt8)) (encode : APIErr → List UInt8)
    (connected : Bool) (called : Returned (TrackedStream (List ChunkEvent))) (w : ResponseWriter) : ResponseWriter :=
  match called.err, called.value with
  | some err, _ => (handleProviderError err).deliver encode w
  | none, some ⟨some events⟩ => handleStream marshal encode connected (.ok events) w
  | none, _ => w

/-- The status that was sent reports a failure. -/
def ResponseWriter.ReportsFailure (w : ResponseWriter) : Prop :=
  ∃ status, w.status = some status ∧ 400 ≤ status ∧ status ≤ 599

theorem ResponseWriter.status_writeHeader {w : ResponseWriter} (fresh : w.status = none) (code : Int) :
    (w.writeHeader code).status = if 100 ≤ code ∧ code ≤ 199 ∧ code ≠ 101 then none else some code := by
  have unwritten : ¬ w.status.isSome := by simp [fresh]
  rw [writeHeader, if_neg unwritten]
  split
  · exact fresh
  · rfl

/-- A write without a header implies a 200. -/
theorem ResponseWriter.status_write (w : ResponseWriter) (b : List UInt8) :
    (w.write b).status = some (w.status.getD 200) := by
  change (w.writeHeader 200).status = _
  cases written : w.status with
  | none => rw [status_writeHeader written, if_neg (by decide), Option.getD_none]
  | some code => rw [writeHeader_of_written (by simp [written]), written, Option.getD_some]

theorem reportsFailure_deliver (encode : APIErr → List UInt8) {w : ResponseWriter} (fresh : w.status = none)
    (err : APIErr) : (err.deliver encode w).ReportsFailure ↔ 400 ≤ err.status ∧ err.status ≤ 599 := by
  unfold APIErr.deliver ResponseWriter.ReportsFailure
  split
  · have header := ResponseWriter.status_writeHeader (w := { w with contentType := "application/json" }) fresh
      err.status
    simp only [APIErr.write, ResponseWriter.status_write, header, Option.some.injEq, exists_eq_left']
    split <;> simp only [Option.getD_none, Option.getD_some] <;> omega
  · have ended : (w.writeHeader 200).status = some 200 := by
      rw [ResponseWriter.status_writeHeader fresh, if_neg (by decide)]
    simp only [ended, Option.some.injEq, exists_eq_left']
    omega

/-- An error that wraps no `ProviderError` is a 502. -/
theorem reportsFailure_of_asProviderError (encode : APIErr → List UInt8) {w : ResponseWriter}
    (fresh : w.status = none) {err : CallError} (other : asProviderError err = none) :
    ((handleProviderError err).deliver encode w).ReportsFailure := by
  rw [reportsFailure_deliver encode fresh]
  cases err with
  | provider text pe => cases other
  | context text => simp [handleProviderError]
  | other text => simp [handleProviderError]

/-- The status of a failed response is passed on below 500 and is a 502 from
there: only a response from 400 on is reported as a failure. -/
theorem reportsFailure_handleErrorResponse (adapter : Adapter) (codec : ErrorCodec) (encode : APIErr → List UInt8)
    {w : ResponseWriter} (fresh : w.status = none) (resp : UpstreamResponse) :
    ((handleProviderError (adapter.handleErrorResponse codec resp)).deliver encode w).ReportsFailure ↔
      400 ≤ resp.statusCode := by
  obtain ⟨type, message, failure⟩ := adapter.handleErrorResponse_eq codec resp
  rw [reportsFailure_deliver encode fresh, failure]
  simp only [handleProviderError]
  split <;> omega

section Loop

variable {α β : Type}

/-- The attempt is made: those before it are tried again and no wait ends with
the context. -/
def Reached (retry : RetryConfig) (outcomes : Nat → CallResult α) (ctxDone : Nat → Option CallError) (a : Nat) :
    Prop :=
  (a : Int) ≤ retry.maxRetries ∧ ∀ b < a, (outcomes b).Retries ∧ ctxDone (b + 1) = none

/-- The first wait that ends with the context, if one of the waits before the last
attempt does. -/
theorem exists_first_cancelled {ctxDone : Nat → Option CallError} {last : Nat}
    (cancelled : ∃ a, ctxDone (a + 1) ≠ none ∧ a < last) :
    ∃ a err, a < last ∧ ctxDone (a + 1) = some err ∧ ∀ b < a, ctxDone (b + 1) = none := by
  obtain ⟨done, below⟩ := Nat.find_spec cancelled
  obtain ⟨err, done⟩ := Option.ne_none_iff_exists'.mp done
  refine ⟨Nat.find cancelled, err, below, done, fun b before => ?_⟩
  by_contra earlier
  exact Nat.find_min cancelled before ⟨earlier, by omega⟩

/-- When every attempt fails, the loop returns the error of the last one it
reaches, or that of the context. All others were retryable. -/
theorem returned_of_failures (retry : RetryConfig) (outcomes : Nat → CallResult α)
    (ctxDone : Nat → Option CallError) (onSuccess : Option α → Returned β) (bound : 0 ≤ retry.maxRetries)
    (fails : ∀ a : Nat, (a : Int) ≤ retry.maxRetries → ∃ err, (outcomes a).err = some err) (draws : Nat → ℚ) :
    ∃ err, (retryRun retry draws outcomes ctxDone onSuccess (attempts retry) 0 none).returned.err = some err ∧
      ((∃ a, ctxDone a = some err ∧ ∀ b, Reached retry outcomes ctxDone b → (outcomes b).Retries) ∨
        ∃ last, (outcomes last).err = some err ∧ Reached retry outcomes ctxDone last ∧
          ∀ b, Reached retry outcomes ctxDone b → b ≠ last → (outcomes b).Retries) := by
  obtain ⟨last, _, within, retries, final⟩ := exists_lastAttempt outcomes retry.maxRetries.toNat
  have final' : (outcomes last).Retries → (last : Int) = retry.maxRetries := by
    intro again
    have most := final again
    omega
  have follows : FollowsRetries retry draws outcomes ctxDone onSuccess last
      (retryRun retry draws outcomes ctxDone onSuccess (attempts retry) 0 none) :=
    followsRetries_retryRun retries final' (by omega)
  by_cases cancelled : ∃ a, ctxDone (a + 1) ≠ none ∧ a < last
  · obtain ⟨a, err, below, done, waited⟩ := exists_first_cancelled cancelled
    have ended := follows.cancelled (a + 1) err (by omega) below
      (fun b positive before => by
        obtain ⟨c, rfl⟩ : ∃ c, b = c + 1 := ⟨b - 1, by omega⟩
        exact waited c (by omega)) done
    refine ⟨err, by rw [ended.2.2], Or.inl ⟨a + 1, done, ?_⟩⟩
    intro b reached
    have before : b ≤ a := by
      by_contra after
      rw [(reached.2 a (by omega)).2] at done
      cases done
    exact retries b (by omega)
  · have waited (b : Nat) (below : b < last) : ctxDone (b + 1) = none := by
      by_contra done
      exact cancelled ⟨b, done, below⟩
    have ended := follows.uncancelled fun b positive below => by
      obtain ⟨c, rfl⟩ : ∃ c, b = c + 1 := ⟨b - 1, by omega⟩
      exact waited c (by omega)
    obtain ⟨err, failed⟩ := fails last (by omega)
    refine ⟨err, by rw [ended.2.2, concluded, failed], Or.inr ⟨last, failed, ⟨by omega, ?_⟩, ?_⟩⟩
    · exact fun b below => ⟨retries b below, waited b below⟩
    · intro b reached other
      refine retries b (lt_of_le_of_ne ?_ other)
      by_contra after
      have most := final' (reached.2 last (by omega)).1
      have fits := reached.1
      omega

end Loop

/-- There is no response of status 200. An error without a response is not one
that an adapter makes of a response. -/
def Reply.Fails : Reply → Prop
  | .failed err => asProviderError err = none
  | .answered resp => resp.statusCode ≠ 200

section Request

variable {α β : Type} (adapter : Adapter) (codec : ErrorCodec) (accept : UpstreamResponse → CallResult α)

theorem Adapter.err_result {reply : Reply} (fails : reply.Fails) :
    ∃ err, (adapter.result codec accept reply).err = some err := by
  cases reply with
  | failed err => exact ⟨err, rfl⟩
  | answered resp =>
    rw [adapter.result_of_failure codec accept fails]
    exact ⟨_, rfl⟩

/-- A reply that is tried again is a response from 400 on. -/
theorem statusCode_of_retries {reply : Reply} (fails : reply.Fails)
    (retries : (adapter.result codec accept reply).Retries) {resp : UpstreamResponse}
    (answered : reply = .answered resp) : 400 ≤ resp.statusCode := by
  obtain ⟨err, failed, retryable⟩ := retries
  subst answered
  rw [adapter.result_of_failure codec accept fails] at failed
  cases failed
  have status := (adapter.isRetryable_handleErrorResponse codec resp).mp retryable
  omega

/-- The error that the loop returns is reported as a failure iff every response
it has seen is one from 400 on. -/
theorem reportsFailure_iff_reached (maxRetries : Nat) (backoff : Int) {replies : Nat → Reply}
    (fails : ∀ a ≤ maxRetries, (replies a).Fails) {ctxDone : Nat → Option CallError}
    (context : ∀ a err, ctxDone a = some err → ∃ text, err = .context text) (draws : Nat → ℚ)
    (onSuccess : Option α → Returned β) (encode : APIErr → List UInt8) {w : ResponseWriter} (fresh : w.status = none) :
    ∃ err, (retryRun ⟨maxRetries, backoff⟩ draws (fun a => adapter.result codec accept (replies a)) ctxDone onSuccess
        (attempts ⟨maxRetries, backoff⟩) 0 none).returned.err = some err ∧
      (((handleProviderError err).deliver encode w).ReportsFailure ↔
        ∀ a resp, Reached ⟨maxRetries, backoff⟩ (fun a => adapter.result codec accept (replies a)) ctxDone a →
          replies a = .answered resp → 400 ≤ resp.statusCode) := by
  have failing (a : Nat) (within : (a : Int) ≤ maxRetries) : (replies a).Fails := fails a (by omega)
  obtain ⟨err, returned, cause⟩ := returned_of_failures ⟨maxRetries, backoff⟩
    (fun a => adapter.result codec accept (replies a)) ctxDone onSuccess (Int.natCast_nonneg maxRetries)
    (fun a within => adapter.err_result codec accept (failing a within)) draws
  refine ⟨err, returned, ?_⟩
  rcases cause with ⟨a, done, retries⟩ | ⟨last, failed, reached, retries⟩
  · obtain ⟨text, rfl⟩ := context a err done
    refine iff_of_true (reportsFailure_of_asProviderError encode fresh rfl) ?_
    intro b resp seen answered
    exact statusCode_of_retries adapter codec accept (failing b seen.1) (retries b seen) answered
  · have others (b : Nat) (resp : UpstreamResponse)
        (seen : Reached ⟨maxRetries, backoff⟩ (fun a => adapter.result codec accept (replies a)) ctxDone b)
        (other : b ≠ last) (answered : replies b = .answered resp) : 400 ≤ resp.statusCode :=
      statusCode_of_retries adapter codec accept (failing b seen.1) (retries b seen other) answered
    have lastFails := failing last reached.1
    cases reply : replies last with
    | failed cause =>
      rw [reply] at failed lastFails
      cases failed
      refine iff_of_true (reportsFailure_of_asProviderError encode fresh lastFails) ?_
      intro b resp seen answered
      by_cases same : b = last
      · rw [same, reply] at answered
        cases answered
      · exact others b resp seen same answered
    | answered resp =>
      rw [reply] at failed lastFails
      rw [adapter.result_of_failure codec accept lastFails] at failed
      cases failed
      rw [reportsFailure_handleErrorResponse adapter codec encode fresh]
      constructor
      · intro status b resp' seen answered
        by_cases same : b = last
        · rw [same, reply] at answered
          cases answered
          exact status
        · exact others b resp' seen same answered
      · exact fun all => all last resp reached reply

end Request

/-- A request whose every reply is a failure is reported as one, streaming or
not, iff each response that the retry loop has seen is one from 400 on: the
handler forwards every status below 500. -/
theorem failure_status_iff (adapter : Adapter) (codec : ErrorCodec)
    (accept : UpstreamResponse → CallResult ChatCompletionResponse)
    (acceptStream : UpstreamResponse → CallResult (List ChunkEvent)) (maxRetries : Nat) (backoff : Int)
    (replies : Nat → Reply) (fails : ∀ a ≤ maxRetries, (replies a).Fails) (ctxDone : Nat → Option CallError)
    (context : ∀ a err, ctxDone a = some err → ∃ text, err = .context text)
    (marshal : ChatCompletionResponse → List UInt8) (marshalChunk : ChatCompletionChunk → Except String (List UInt8))
    (encode : APIErr → List UInt8) (connected : Bool) (w : ResponseWriter) (fresh : w.status = none) :
    let retry : RetryConfig := ⟨maxRetries, backoff⟩
    let outcomes := fun a => adapter.result codec accept (replies a)
    let opened := fun a => adapter.result codec acceptStream (replies a)
    ((handleNonStream marshal encode (chatCompletion retry outcomes ctxDone) w).ReportsFailure ↔
      ∀ a resp, Reached retry outcomes ctxDone a → replies a = .answered resp → 400 ≤ resp.statusCode) ∧
    ((handleOpenedStream marshalChunk encode connected (chatCompletionStream retry opened ctxDone) w).ReportsFailure ↔
      ∀ a resp, Reached retry opened ctxDone a → replies a = .answered resp → 400 ≤ resp.statusCode) := by
  intro retry outcomes opened
  constructor
  · obtain ⟨err, returned, status⟩ := reportsFailure_iff_reached adapter codec accept maxRetries backoff fails context
      (fun _ => 0) completed encode fresh
    rw [returned_retryRun] at returned
    rw [handleNonStream, show (chatCompletion retry outcomes ctxDone).err = some err from returned]
    exact status
  · obtain ⟨err, returned, status⟩ := reportsFailure_iff_reached adapter codec acceptStream maxRetries backoff fails
      context (fun _ => 0) tracked encode fresh
    rw [returned_retryRun] at returned
    rw [handleOpenedStream, show (chatCompletionStream retry opened ctxDone).err = some err from returned]
    exact status

/-- A reply of the given status without anything else. -/
def bareReply (status : Int) : Reply := .answered ⟨status, "", []⟩

/-- An upstream that is overloaded and then refuses the key. -/
def refusedReplies (a : Nat) : Reply := if a = 0 then bareReply 529 else bareReply 401

def unaccepted {α : Type} (_ : UpstreamResponse) : CallResult α := ⟨none, none⟩

def emptyWriter : ResponseWriter := ⟨"", true, [], none, []⟩

/-- With one retry the client gets the status of the refusal. -/
theorem failure_status_iff_refused :
    (handleNonStream (fun _ => []) (fun _ => []) (chatCompletion ⟨(1 : Nat), 0⟩
      (fun a => Adapter.anthropic.result plainCodec unaccepted (refusedReplies a)) fun _ => none)
      emptyWriter).ReportsFailure := by
  refine (failure_status_iff .anthropic plainCodec unaccepted unaccepted 1 0 refusedReplies ?_ (fun _ => none) nofun
    (fun _ => []) (fun _ => .error "") (fun _ => []) true emptyWriter rfl).1.mpr ?_
  · intro a _
    unfold refusedReplies
    split <;> simp [bareReply, Reply.Fails]
  · intro a resp _ answered
    unfold refusedReplies at answered
    split at answered <;> cases answered <;> decide

/-- A 201 of the upstream is a failure to the adapter and to the provider's
health, and a 201 to the client. -/
theorem created_forwarded :
    (bareReply 201).Fails ∧
      (chatCompletion ⟨2, 0⟩ (fun _ => Adapter.openai.result (α := Unit) plainCodec unaccepted (bareReply 201))
        fun _ => none).records = [.failure (some (Adapter.openai.handleErrorResponse plainCodec ⟨201, "", []⟩))] ∧
      (handleNonStream (fun _ => []) (fun _ => []) (chatCompletion ⟨2, 0⟩
        (fun _ => Adapter.openai.result plainCodec unaccepted (bareReply 201)) fun _ => none)
        emptyWriter).status = some 201 ∧
      (handleOpenedStream (fun _ => .error "") (fun _ => []) true (chatCompletionStream ⟨2, 0⟩
        (fun _ => Adapter.openai.result plainCodec unaccepted (bareReply 201)) fun _ => none)
        emptyWriter).status = some 201 :=
  ⟨by simp [bareReply, Reply.Fails], rfl, rfl, rfl⟩

end LlmGateway
