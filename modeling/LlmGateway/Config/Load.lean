import LlmGateway.Config.Config

namespace LlmGateway

/-- A value or its default where it is zero. -/
def orDefault {α : Type} [DecidableEq α] (zero default value : α) : α := if value = zero then default else value

def second : Int := 1000000000

def ProviderConfig.applyDefaults (p : ProviderConfig) : ProviderConfig :=
  { p with timeout := orDefault 0 (30 * second) p.timeout }

def applyDefaults (cfg : Config) : Config :=
  { cfg with
    server :=
      { port := orDefault 0 8080 cfg.server.port
        readTimeout := orDefault 0 (30 * second) cfg.server.readTimeout
        writeTimeout := orDefault 0 (120 * second) cfg.server.writeTimeout }
    log := { cfg.log with
      level := orDefault "" "info" cfg.log.level
      format := orDefault "" "json" cfg.log.format }
    database := { cfg.database with
      postgres := { cfg.database.postgres with
        maxConnections := orDefault 0 20 cfg.database.postgres.maxConnections } }
    auth := { cfg.auth with
      cacheTTL := orDefault 0 (5 * 60 * second) cfg.auth.cacheTTL
      cacheSize := orDefault 0 10000 cfg.auth.cacheSize }
    rateLimit := { cfg.rateLimit with
      defaultRPM := orDefault 0 60 cfg.rateLimit.defaultRPM
      defaultTPM := orDefault 0 100000 cfg.rateLimit.defaultTPM }
    metrics := { cfg.metrics with port := orDefault 0 9090 cfg.metrics.port }
    routing := { cfg.routing with
      defaultStrategy := orDefault "" "priority" cfg.routing.defaultStrategy
      maxAttempts := orDefault 0 3 cfg.routing.maxAttempts }
    providers := StringMap.mapValues ProviderConfig.applyDefaults cfg.providers }

def validate (cfg : Config) : Except String Unit :=
  if !cfg.providers.entries.any (fun e => e.2.apiKey ≠ "") then
    .error "at least one provider must be configured with an API key"
  else if cfg.auth.enabled ∧ cfg.database.postgres.dsn = "" then
    .error ("auth is enabled but database.postgres.dsn is empty " ++
      "(set GATEWAY_DATABASE__POSTGRES__DSN)")
  else if cfg.auth.enabled ∧ cfg.auth.adminToken = "" then
    .error "auth is enabled but auth.admin_token is empty (set GATEWAY_AUTH__ADMIN_TOKEN)"
  else if cfg.rateLimit.enabled ∧ cfg.database.redis.dsn = "" then
    .error ("rate_limit is enabled but database.redis.dsn is empty " ++
      "(set GATEWAY_DATABASE__REDIS__DSN)")
  else .ok ()

/-- `Load` from what the file and the environment unmarshal to, or from the error
of reading them. -/
def load (sources : Except String Config) : Except String Config :=
  match sources with
  | .error e => .error e
  | .ok raw =>
    match validate (applyDefaults raw) with
    | .error e => .error ("invalid config: " ++ e)
    | .ok () => .ok (applyDefaults raw)

/-- A loaded configuration is what was read with its defaults, and nothing else. -/
theorem eq_applyDefaults_of_load {raw cfg : Config} (loaded : load (.ok raw) = .ok cfg) :
    cfg = applyDefaults raw := by
  simp only [load] at loaded
  split at loaded
  · cases loaded
  · exact (Except.ok.inj loaded).symm

theorem orDefault_idem {α : Type} [DecidableEq α] (zero default value : α) :
    orDefault zero default (orDefault zero default value) = orDefault zero default value := by
  unfold orDefault
  split
  · split <;> rfl
  · rfl

/-- The defaults only fill in zero values, so they change nothing the second
time. -/
theorem applyDefaults_idem (cfg : Config) : applyDefaults (applyDefaults cfg) = applyDefaults cfg := by
  have timeouts : StringMap.mapValues ProviderConfig.applyDefaults
      (StringMap.mapValues ProviderConfig.applyDefaults cfg.providers) =
        StringMap.mapValues ProviderConfig.applyDefaults cfg.providers := by
    refine AList.ext ?_
    simp only [StringMap.mapValues, List.map_map]
    refine List.map_congr_left fun e _ => ?_
    simp [ProviderConfig.applyDefaults, orDefault_idem]
  unfold applyDefaults
  simp only [orDefault_idem, timeouts]

theorem load_loaded {raw cfg : Config} (loaded : load (.ok raw) = .ok cfg) : load (.ok cfg) = .ok cfg := by
  have filled := eq_applyDefaults_of_load loaded
  subst filled
  simpa only [load, applyDefaults_idem] using loaded

end LlmGateway
