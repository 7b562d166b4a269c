import LlmGateway.Lib.Transition
import LlmGateway.Lib.Numeral
import LlmGateway.Lib.Slice
import LlmGateway.RateLimit.WindowSafety
import LlmGateway.RateLimit.Reference
import LlmGateway.RateLimit.Tenants
import LlmGateway.RateLimit.Redelivery
import LlmGateway.Auth.Revocation
import LlmGateway.Auth.Soundness
import LlmGateway.Provider.Cancellation
import LlmGateway.Provider.Results
import LlmGateway.Router.ModelNames
import LlmGateway.Router.Pairs
import LlmGateway.Router.HalfOpen
import LlmGateway.Middleware.UsageCapture
import LlmGateway.Provider.Consistency
import LlmGateway.Router.Restarts
import LlmGateway.Provider.OpenAI
import LlmGateway.Provider.Google
import LlmGateway.Handler.Stream
import LlmGateway.Provider.Anthropic
import LlmGateway.Provider.ErrorFrames
import LlmGateway.Provider.TrackStream
import LlmGateway.Provider.Gauge
import LlmGateway.RateLimit.MintedLimits
import LlmGateway.Provider.AnthropicMessage
import LlmGateway.Provider.Candidates
import LlmGateway.RateLimit.Remaining
import LlmGateway.RateLimit.Expiry
import LlmGateway.Provider.Retries
import LlmGateway.Provider.Breaker
import LlmGateway.Middleware.Accounting
import LlmGateway.Provider.Backoff
import LlmGateway.Handler.Failures
import LlmGateway.Middleware.DebugBodies
import LlmGateway.Middleware.FailOpen
import LlmGateway.Router.Weighted
import LlmGateway.Router.Ranked
import LlmGateway.Router.Fairness
import LlmGateway.Router.Poller
import LlmGateway.Handler.WindDown
import LlmGateway.RateLimit.Overshoot
import LlmGateway.Router.WarnOnce
import LlmGateway.Router.Objects
import LlmGateway.Router.Isolation
import LlmGateway.Router.LatencyFeedback
import LlmGateway.Provider.Translate
import LlmGateway.Auth.Touch
import LlmGateway.Auth.Staleness
import LlmGateway.Server.Server
import LlmGateway.Server.Shutdown
import LlmGateway.Handler.KeySampling
import LlmGateway.Handler.Models
import LlmGateway.Handler.Health
import LlmGateway.Config.EnvKeys
