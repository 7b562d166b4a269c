import LlmGateway.Config.Load
import LlmGateway.Model.Int64
import LlmGateway.Provider.Decorator

namespace LlmGateway

/-- An upstream's HTTP response as far as the adapters read one that failed.
`retryAfter` is the value of the `Retry-After` header, empty without one. -/
structure UpstreamResponse where
  statusCode : Int
  retryAfter : String
  body : List UInt8
deriving DecidableEq, Repr

/-- What the adapters take from the standard library: the message and the type
that a JSON error body decodes to, bytes as a text, and the time left until a
date in the form of RFC 1123. -/
structure ErrorCodec where
  unmarshal : List UInt8 → Option (String × String)
  text : List UInt8 → String
  untilDate : String → Option Int

/-- `ParseRetryAfter`. -/
def parseRetryAfter (untilDate : String → Option Int) (header : String) : Int :=
  if header = "" then 0
  else match atoi header with
    | some secs => wrap64 (secs * second)
    | none =>
      match untilDate header with
      | some d => if 0 < d then d else 0
      | none => 0

/-- `ProviderError.Error`. -/
def ProviderError.error (pe : ProviderError) : String :=
  "provider error (" ++ toString pe.statusCode ++ "): " ++ pe.message

def errorBodyLimit : Nat := 1 <<< 20

/-- The body that the three `handleErrorResponse` methods share. A body without a
message stands for itself, cut to 200 bytes. -/
def errorResponse (codec : ErrorCodec) (retryable : Int → Bool) (errorTypeFromStatus : Int → String)
    (resp : UpstreamResponse) : CallError :=
  let body := resp.body.take errorBodyLimit
  let raw : String × String :=
    (codec.text (if 200 < body.length then body.take 200 else body), errorTypeFromStatus resp.statusCode)
  let (message, type) := match codec.unmarshal body with
    | some (message, type) => if message ≠ "" then (message, type) else raw
    | none => raw
  let pe : ProviderError :=
    ⟨resp.statusCode, type, message, retryable resp.statusCode, parseRetryAfter codec.untilDate resp.retryAfter⟩
  .provider pe.error pe

namespace OpenAI

def retryable (status : Int) : Bool := status = 429 || 500 ≤ status

def errorTypeFromStatus (status : Int) : String :=
  if status = 401 then "authentication_error"
  else if status = 429 then "rate_limit_error"
  else if status = 400 then "invalid_request_error"
  else "upstream_error"

def handleErrorResponse (codec : ErrorCodec) : UpstreamResponse → CallError :=
  errorResponse codec retryable errorTypeFromStatus

end OpenAI

namespace Anthropic

/-- 529 is named for its own sake: it is above 500. -/
def retryable (status : Int) : Bool := status = 429 || 500 ≤ status || status = 529

def errorTypeFromStatus (status : Int) : String :=
  if status = 401 then "authentication_error"
  else if status = 429 then "rate_limit_error"
  else if status = 400 then "invalid_request_error"
  else "upstream_error"

def handleErrorResponse (codec : ErrorCodec) : UpstreamResponse → CallError :=
  errorResponse codec retryable errorTypeFromStatus

end Anthropic

namespace Google

def retryable (status : Int) : Bool := status = 429 || 500 ≤ status

/-- Gemini answers 403 to a bad key. -/
def errorTypeFromStatus (status : Int) : String :=
  if status = 401 then "authentication_error"
  else if status = 403 then "authentication_error"
  else if status = 429 then "rate_limit_error"
  else if status = 400 then "invalid_request_error"
  else "upstream_error"

def handleErrorResponse (codec : ErrorCodec) : UpstreamResponse → CallError :=
  errorResponse codec retryable errorTypeFromStatus

end Google

inductive Adapter where
  | openai
  | anthropic
  | google
deriving DecidableEq, Repr

def Adapter.handleErrorResponse : Adapter → ErrorCodec → UpstreamResponse → CallError
  | .openai => OpenAI.handleErrorResponse
  | .anthropic => Anthropic.handleErrorResponse
  | .google => Google.handleErrorResponse

/-- What a method of an adapter has to go on: an error before there is a
response, or the response. -/
inductive Reply where
  | failed (err : CallError)
  | answered (resp : UpstreamResponse)
deriving DecidableEq, Repr

/-- The result of `ChatCompletion` and `ChatCompletionStream` of an adapter.
`accept` goes on with a response of status 200. -/
def Adapter.result {α : Type} (adapter : Adapter) (codec : ErrorCodec) (accept : UpstreamResponse → CallResult α) :
    Reply → CallResult α
  | .failed err => ⟨none, some err⟩
  | .answered resp =>
    if resp.statusCode ≠ 200 then ⟨none, some (adapter.handleErrorResponse codec resp)⟩ else accept resp

/-- Every adapter reports the status and the wait that the upstream gave, and
takes the same statuses for retryable. -/
theorem Adapter.handleErrorResponse_eq (adapter : Adapter) (codec : ErrorCodec) (resp : UpstreamResponse) :
    ∃ type message, adapter.handleErrorResponse codec resp =
      let pe : ProviderError := ⟨resp.statusCode, type, message, resp.statusCode = 429 || 500 ≤ resp.statusCode,
        parseRetryAfter codec.untilDate resp.retryAfter⟩
      .provider pe.error pe := by
  have overloaded : Anthropic.retryable resp.statusCode = OpenAI.retryable resp.statusCode := by
    rw [Bool.eq_iff_iff]
    simp only [Anthropic.retryable, OpenAI.retryable, Bool.or_eq_true, decide_eq_true_eq]
    omega
  cases adapter with
  | openai => exact ⟨_, _, rfl⟩
  | anthropic =>
    simp only [handleErrorResponse, Anthropic.handleErrorResponse, errorResponse, overloaded]
    exact ⟨_, _, rfl⟩
  | google => exact ⟨_, _, rfl⟩

theorem Adapter.result_of_failure {α : Type} (adapter : Adapter) (codec : ErrorCodec)
    (accept : UpstreamResponse → CallResult α) {resp : UpstreamResponse} (failure : resp.statusCode ≠ 200) :
    adapter.result codec accept (.answered resp) = ⟨none, some (adapter.handleErrorResponse codec resp)⟩ :=
  if_pos failure

/-- A response is tried again after 429 and after the upstream's own failures. -/
theorem Adapter.isRetryable_handleErrorResponse (adapter : Adapter) (codec : ErrorCodec) (resp : UpstreamResponse) :
    isRetryable (adapter.handleErrorResponse codec resp) = true ↔ resp.statusCode = 429 ∨ 500 ≤ resp.statusCode := by
  obtain ⟨type, message, same⟩ := adapter.handleErrorResponse_eq codec resp
  rw [same]
  simp only [isRetryable, Bool.or_eq_true, decide_eq_true_eq]

/-- Nothing is decoded: a body is not JSON, a header is no date. -/
def plainCodec : ErrorCodec := ⟨fun _ => none, fun _ => "", fun _ => none⟩

end LlmGateway
