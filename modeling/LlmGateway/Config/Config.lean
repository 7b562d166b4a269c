import Mathlib.Data.List.AList
import Mathlib.Data.Rat.Defs

namespace LlmGateway

/-- A Go map with string keys. The order of the entries stands for the order of
one iteration over the map. -/
abbrev StringMap (α : Type) := AList fun _ : String => α

/-- The map with every value replaced. -/
def StringMap.mapValues {α β : Type} (f : α → β) (m : StringMap α) : StringMap β where
  entries := m.entries.map fun e => ⟨e.1, f e.2⟩
  nodupKeys := by
    rw [List.NodupKeys, List.keys, List.map_map]
    exact m.nodupKeys

theorem StringMap.lookup_mapValues {α β : Type} (f : α → β) (m : StringMap α) (name : String) :
    (StringMap.mapValues f m).lookup name = (m.lookup name).map f := by
  have mapped : (m.entries.map (Sigma.map id fun _ => f) : List (Sigma fun _ : String => β)).dlookup name = _ :=
    List.dlookup_map₂ name
  exact mapped

structure ServerConfig where
  port : Int
  readTimeout : Int
  writeTimeout : Int

/-- Durations are nanoseconds throughout. -/
structure ProviderConfig where
  apiKey : String
  baseURL : String
  timeout : Int
  models : List String
  maxRetries : Int
  retryBackoff : Int

structure HealthConfig where
  failureThreshold : Int
  cooldownPeriod : Int

structure LogConfig where
  level : String
  format : String
  debugBodies : Bool

structure PostgresConfig where
  dsn : String
  autoMigrate : Bool
  maxConnections : Int

structure RedisConfig where
  dsn : String

structure DatabaseConfig where
  postgres : PostgresConfig
  redis : RedisConfig

structure AuthConfig where
  enabled : Bool
  adminToken : String
  cacheTTL : Int
  cacheSize : Int

structure RateLimitConfig where
  enabled : Bool
  defaultRPM : Int
  defaultTPM : Int
deriving DecidableEq, Repr

structure MetricsConfig where
  enabled : Bool
  port : Int

/-- One (provider, model) entry of a model group. Prices are exact rationals. -/
structure CandidateConfig where
  provider : String
  model : String
  costPer1kInputUSD : ℚ
  costPer1kOutputUSD : ℚ
  priority : Int
  weight : Int
deriving DecidableEq

structure ModelGroupConfig where
  strategy : String
  candidates : List CandidateConfig
deriving DecidableEq

structure CandidatePricing where
  costPer1kInputUSD : ℚ
  costPer1kOutputUSD : ℚ
deriving DecidableEq

structure RoutingConfig where
  defaultStrategy : String
  maxAttempts : Int
  modelGroups : StringMap ModelGroupConfig
  pricing : StringMap CandidatePricing

structure Config where
  server : ServerConfig
  providers : StringMap ProviderConfig
  modelAliases : StringMap String
  health : HealthConfig
  log : LogConfig
  database : DatabaseConfig
  auth : AuthConfig
  rateLimit : RateLimitConfig
  metrics : MetricsConfig
  routing : RoutingConfig

/-- The zero value that `Load` unmarshals into. -/
def Config.zero : Config where
  server := ⟨0, 0, 0⟩
  providers := ∅
  modelAliases := ∅
  health := ⟨0, 0⟩
  log := ⟨"", "", false⟩
  database := ⟨⟨"", false, 0⟩, ⟨""⟩⟩
  auth := ⟨false, "", 0, 0⟩
  rateLimit := ⟨false, 0, 0⟩
  metrics := ⟨false, 0⟩
  routing := ⟨"", 0, ∅, ∅⟩

end LlmGateway
