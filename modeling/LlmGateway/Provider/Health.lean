import LlmGateway.Config.Config

namespace LlmGateway

/-- `ProviderHealth`, the breaker of one provider. The threshold and the
cooldown are positive, as `newProviderHealth` makes them. -/
structure ProviderHealth where
  consecutiveFails : Int
  lastSuccess : Option Int
  lastFailure : Option Int
  lastError : String
  healthy : Bool
  failureThreshold : Int
  cooldownPeriod : Int
  threshold_pos : 0 < failureThreshold
  cooldown_pos : 0 < cooldownPeriod

def newProviderHealth (cfg : HealthConfig) : ProviderHealth where
  consecutiveFails := 0
  lastSuccess := none
  lastFailure := none
  lastError := ""
  healthy := true
  failureThreshold := if cfg.failureThreshold ≤ 0 then 5 else cfg.failureThreshold
  cooldownPeriod := if cfg.cooldownPeriod ≤ 0 then 30 * 1000000000 else cfg.cooldownPeriod
  threshold_pos := by split <;> omega
  cooldown_pos := by split <;> omega

namespace ProviderHealth

def recordSuccess (h : ProviderHealth) (now : Int) : ProviderHealth :=
  { h with consecutiveFails := 0, lastSuccess := some now, healthy := true }

/-- `RecordFailure` returns the strict flag it leaves behind. -/
def recordFailure (h : ProviderHealth) (now : Int) (err : Option String) : Bool × ProviderHealth :=
  let fails := h.consecutiveFails + 1
  let healthy := if h.failureThreshold ≤ fails then false else h.healthy
  (healthy, { h with
    consecutiveFails := fails, lastFailure := some now, lastError := err.getD h.lastError, healthy := healthy })

/-- The zero time lies further back than any cooldown. -/
def cooledDown (h : ProviderHealth) (now : Int) : Bool := h.lastFailure.all fun t => h.cooldownPeriod ≤ now - t

def isHealthy (h : ProviderHealth) (now : Int) : Bool := h.healthy || h.cooledDown now

def healthyStrict (h : ProviderHealth) : Bool := h.healthy

/-- The flag is off and the cooldown is over: `IsHealthy` lets calls through. -/
def halfOpen (h : ProviderHealth) (now : Int) : Bool := !h.healthy && h.cooledDown now

end ProviderHealth

/-- `HealthStatus`. -/
structure HealthStatus where
  healthy : Bool
  consecutiveFails : Int
  lastSuccess : Option Int
  lastFailure : Option Int
  lastError : String
deriving DecidableEq, Repr

/-- `Status` has its own copy of the cooldown rule. -/
def ProviderHealth.status (h : ProviderHealth) (now : Int) : HealthStatus where
  healthy := if !h.healthy && h.cooledDown now then true else h.healthy
  consecutiveFails := h.consecutiveFails
  lastSuccess := h.lastSuccess
  lastFailure := h.lastFailure
  lastError := h.lastError

end LlmGateway
