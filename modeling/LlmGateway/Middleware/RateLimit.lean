import Mathlib.Order.Bounds.Defs
import LlmGateway.Config.Load
import LlmGateway.Handler.Errors
import LlmGateway.RateLimit.Limiter

namespace LlmGateway

/-- The header fields that are set, in order. -/
abbrev Headers := List (String × String)

def clampNonNegative (n : Int) : Int := if n < 0 then 0 else n

def roundDurationToSecond (d : Int) : Int :=
  if d ≤ 0 then 0
  else
    let secs := d / second
    (if d % second ≠ 0 then secs + 1 else secs) * second

/-- `Duration.String` on durations of whole seconds. -/
def durationString (d : Int) : String :=
  let secs := d / second
  (if 0 < secs / 3600 then toString (secs / 3600) ++ "h" else "") ++
    (if 0 < secs / 60 then toString (secs / 60 % 60) ++ "m" else "") ++ toString (secs % 60) ++ "s"

def setRateLimitHeaders (res : Reservation) : Headers :=
  (if 0 < res.limit then
    [("X-RateLimit-Limit-Requests", toString res.limit),
      ("X-RateLimit-Remaining-Requests", toString (clampNonNegative res.remaining)),
      ("X-RateLimit-Reset-Requests", durationString (roundDurationToSecond res.reset))]
  else []) ++
  if 0 < res.tpmLimit then
    [("X-RateLimit-Limit-Tokens", toString res.tpmLimit),
      ("X-RateLimit-Remaining-Tokens", toString (clampNonNegative res.tpmRemaining)),
      ("X-RateLimit-Reset-Tokens", durationString (roundDurationToSecond res.tpmReset))]
  else []

/-- `math.Ceil(retryAfter.Seconds())`, at least one. The seconds are taken as the
exact quotient. -/
def retrySeconds (retryAfter : Int) : Int :=
  let secs := ceilDiv retryAfter second
  if secs < 1 then 1 else secs

/-- `apierr.WriteRateLimit`: the header it sets and the error it writes. -/
def writeRateLimit (retryAfter : Int) (message : String) : Headers × APIErr :=
  let secs := retrySeconds retryAfter
  ([("Retry-After", toString secs)],
    ⟨429, "rate_limit_error", "rate_limit_exceeded",
      if message = "" then "Rate limit exceeded. Try again in " ++ toString secs ++ "s." else message⟩)

/-- What `serve` makes of a request. -/
inductive Served where
  | passed (w : ResponseWriter)
  | failOpen (err : String) (w : ResponseWriter)
  | throttled (headers : Headers) (w : ResponseWriter)
  | allowed (headers : Headers) (finished : Finished)

/-- The parts of the server that `serve` calls: the encoder of errors, the decoder
of a body's usage and the limiter. -/
structure Serving where
  encode : APIErr → List UInt8
  usage : List UInt8 → Option Int
  reserve : KeyInfo → Except String Reservation
  recordTokens : KeyInfo → Int → Except String Unit

/-- `rateLimitState.serve`. The handler behind it makes the given calls. -/
def serve (parts : Serving) (info : Option KeyInfo) (handler : List HandlerCall) (w : ResponseWriter) : Served :=
  match info with
  | none => .passed (handler.foldl ResponseWriter.call w)
  | some key =>
    match parts.reserve key with
    | .error err => .failOpen err (handler.foldl ResponseWriter.call w)
    | .ok res =>
      let headers := setRateLimitHeaders res
      if !res.allowed then
        let (retry, err) := writeRateLimit res.retryAfter ""
        .throttled (headers ++ retry) (err.write parts.encode w)
      else
        let cw := handler.foldl UsageCaptureWriter.call (UsageCaptureWriter.wrap w)
        .allowed headers (cw.finish parts.usage (parts.recordTokens key))

theorem isLeast_retrySeconds (retryAfter : Int) :
    IsLeast {k : Int | max retryAfter second ≤ k * second} (retrySeconds retryAfter) := by
  have unit : second = 1000000000 := rfl
  simp only [retrySeconds, ceilDiv, unit]
  constructor
  · change max retryAfter 1000000000 ≤ _ * 1000000000
    split <;> omega
  · intro k enough
    change max retryAfter 1000000000 ≤ k * 1000000000 at enough
    split <;> omega

/-- The two ways of rounding up agree on what is left to wait for. -/
theorem roundDurationToSecond_eq {d : Int} (positive : 0 < d) : roundDurationToSecond d = retrySeconds d * second := by
  have unit : second = 1000000000 := rfl
  simp only [roundDurationToSecond, retrySeconds, ceilDiv, unit]
  rw [if_neg (by omega)]
  split <;> split <;> omega

section Throttled

variable {parts : Serving} {key : KeyInfo} {res : Reservation}

theorem serve_throttled (reserved : parts.reserve key = .ok res) (rejected : res.allowed = false)
    (handler : List HandlerCall) (w : ResponseWriter) :
    ∃ w', serve parts (some key) handler w =
      .throttled (setRateLimitHeaders res ++ [("Retry-After", toString (retrySeconds res.retryAfter))]) w' := by
  simp only [serve, reserved, rejected, Bool.not_false, if_true]
  exact ⟨_, rfl⟩

theorem lookup_retryAfter (res : Reservation) (value : String) :
    (setRateLimitHeaders res ++ [("Retry-After", value)]).lookup "Retry-After" = some value := by
  unfold setRateLimitHeaders
  split <;> split <;> rfl

theorem lookup_resetRequests (limited : 0 < res.limit) (rest : Headers) :
    (setRateLimitHeaders res ++ rest).lookup "X-RateLimit-Reset-Requests" =
      some (durationString (roundDurationToSecond res.reset)) := by
  rw [setRateLimitHeaders, if_pos limited]
  rfl

end Throttled

end LlmGateway
