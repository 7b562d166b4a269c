import LlmGateway.Middleware.UsageCapture
import LlmGateway.Provider.Decorator

namespace LlmGateway

/-- An error response as `apierr.Write` renders it. -/
structure APIErr where
  status : Nat
  type : String
  code : String
  message : String
deriving DecidableEq, Repr

/-- `apierr.Write`. The JSON body is that of the encoder. -/
def APIErr.write (encode : APIErr → List UInt8) (w : ResponseWriter) (err : APIErr) : ResponseWriter :=
  ({ w with contentType := "application/json" }.writeHeader err.status).write (encode err)

/-- `handleProviderError`. The status of the provider is forwarded, but for one
that speaks of the server. -/
def handleProviderError : CallError → APIErr
  | .provider _ pe =>
    ⟨if 500 ≤ pe.statusCode then 502 else pe.statusCode.toNat, pe.type, "provider_error", pe.message⟩
  | _ => ⟨502, "upstream_error", "provider_error", "upstream provider error"⟩

end LlmGateway
