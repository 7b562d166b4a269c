import LlmGateway.Provider.Health
import LlmGateway.Router.Strategy

namespace LlmGateway

/-- `defaultRouter` without its log-once table. -/
structure Router where
  registry : Registry
  groups : StringMap ModelGroupConfig
  pricing : StringMap CandidatePricing
  defaultStrategy : StrategyKind
  groupStrategies : StringMap StrategyKind

/-- The checks of `NewRouter` on the candidates of one group. -/
def checkCandidates (groupName : String) (providers : StringMap ProviderConfig) :
    Nat → List CandidateConfig → Except String Unit
  | _, [] => .ok ()
  | i, c :: rest =>
    let place := "router: model_groups[" ++ groupName.quote ++ "].candidates[" ++ toString i ++ "]: "
    if c.provider = "" then .error (place ++ "provider is empty")
    else if c.model = "" then .error (place ++ "model is empty")
    else if c.provider ∉ providers then .error (place ++ "provider " ++ c.provider.quote ++ " is not configured")
    else checkCandidates groupName providers (i + 1) rest

/-- The loop of `NewRouter` over the model groups. -/
def buildGroups (providers : StringMap ProviderConfig) :
    List (Sigma fun _ : String => ModelGroupConfig) → StringMap StrategyKind → Except String (StringMap StrategyKind)
  | [], built => .ok built
  | ⟨groupName, g⟩ :: rest, built =>
    match checkCandidates groupName providers 0 g.candidates with
    | .error e => .error e
    | .ok _ =>
      if g.strategy = "" then buildGroups providers rest built
      else match StrategyKind.build g.strategy with
        | .error e => .error ("router: model_groups[" ++ groupName.quote ++ "]: " ++ e)
        | .ok s => buildGroups providers rest (built.insert groupName s)

def newRouter (registry : Registry) (cfg : RoutingConfig) (providers : StringMap ProviderConfig) :
    Except String Router :=
  match StrategyKind.build cfg.defaultStrategy with
  | .error e => .error ("router: " ++ e)
  | .ok defaultStrategy =>
    match buildGroups providers cfg.modelGroups.entries ∅ with
    | .error e => .error e
    | .ok groupStrategies => .ok ⟨registry, cfg.modelGroups, cfg.pricing, defaultStrategy, groupStrategies⟩

inductive RouteError where
  | nilRequest
  | unknownModel
  | noHealthyProviders
  | strategy (name err : String)
deriving DecidableEq, Repr

/-- `Decision`. Its experiment fields are not set anywhere yet. -/
structure Decision where
  provider : String
  model : String
  strategy : String
  group : String
deriving DecidableEq, Repr

/-- The breakers by address. -/
abbrev Breakers := Nat → ProviderHealth

/-- The provider is untracked or its breaker lets the call through. -/
def Breakers.admits (hs : Breakers) (now : Int) (p : Provider) : Bool :=
  (healthFor p).all fun h => (hs h).isHealthy now

def filterHealthy (hs : Breakers) (now : Int) (candidates : List Candidate) : List Candidate :=
  Slice.filterInPlace (fun c => hs.admits now c.provider) candidates

namespace Router

def expandGroup (r : Router) (g : ModelGroupConfig) : List Candidate :=
  g.candidates.filterMap fun c =>
    match r.registry.resolve c.model with
    | .error _ => none
    | .ok p => some ⟨p, c.model, c.costPer1kInputUSD, c.costPer1kOutputUSD, c.priority, c.weight⟩

def resolveCandidates (r : Router) (modelName : String) : Except RouteError (String × List Candidate) :=
  match r.groups.lookup modelName with
  | some group => .ok (modelName, r.expandGroup group)
  | none =>
    match r.registry.resolve modelName with
    | .error _ => .error .unknownModel
    | .ok p =>
      let canonical := r.registry.canonicalModel modelName
      let price := (r.pricing.lookup canonical).getD ⟨0, 0⟩
      .ok ("", [⟨p, canonical, price.costPer1kInputUSD, price.costPer1kOutputUSD, 0, 1⟩])

def strategyFor (r : Router) (group : String) : StrategyKind :=
  if group ≠ "" then (r.groupStrategies.lookup group).getD r.defaultStrategy else r.defaultStrategy

def route (r : Router) (hs : Breakers) (now : Int) (st : StrategyState) (draw : ℚ)
    (req : Option ChatCompletionRequest) : Except RouteError (Provider × Decision) × StrategyState :=
  match req with
  | none => (.error .nilRequest, st)
  | some req =>
    match r.resolveCandidates req.model with
    | .error e => (.error e, st)
    | .ok (group, candidates) =>
      let candidates := filterHealthy hs now candidates
      if candidates.length = 0 then (.error .noHealthyProviders, st)
      else
        let strategy := r.strategyFor group
        match strategy.select st draw candidates req group with
        | (.error e, st) => (.error (.strategy strategy.name e), st)
        | (.ok picked, st) =>
          (.ok (picked.provider, ⟨picked.provider.name, picked.model, strategy.name, group⟩), st)

end Router

section NewRouter

variable {registry : Registry} {cfg : RoutingConfig} {providers : StringMap ProviderConfig} {r : Router}

/-- The candidate passes the checks of `NewRouter`. -/
def CandidateConfig.Accepted (providers : StringMap ProviderConfig) (c : CandidateConfig) : Prop :=
  c.provider ≠ "" ∧ c.model ≠ "" ∧ c.provider ∈ providers

theorem checkCandidates_ok {groupName : String} {i : Nat} {cs : List CandidateConfig} :
    checkCandidates groupName providers i cs = .ok () ↔ ∀ c ∈ cs, c.Accepted providers := by
  induction cs generalizing i with
  | nil => simp [checkCandidates]
  | cons c cs ih =>
    simp only [checkCandidates, List.forall_mem_cons, CandidateConfig.Accepted]
    split
    · simp_all
    · split
      · simp_all
      · split
        · simp_all
        · rw [ih]
          simp_all [CandidateConfig.Accepted]

/-- The group passes the checks of `NewRouter`. -/
def ModelGroupConfig.Accepted (providers : StringMap ProviderConfig) (g : ModelGroupConfig) : Prop :=
  (∀ c ∈ g.candidates, c.Accepted providers) ∧ (g.strategy = "" ∨ ∃ kind, StrategyKind.build g.strategy = .ok kind)

theorem buildGroups_ok {entries : List (Sigma fun _ : String => ModelGroupConfig)} {built : StringMap StrategyKind} :
    (∃ s, buildGroups providers entries built = .ok s) ↔ ∀ e ∈ entries, e.2.Accepted providers := by
  induction entries generalizing built with
  | nil => simp [buildGroups]
  | cons e entries ih =>
    obtain ⟨groupName, g⟩ := e
    have checked : checkCandidates groupName providers 0 g.candidates = .ok () ↔ _ := checkCandidates_ok
    simp only [List.forall_mem_cons, ModelGroupConfig.Accepted]
    rw [← checked, buildGroups]
    cases checkCandidates groupName providers 0 g.candidates with
    | error err => simp
    | ok =>
      by_cases unset : g.strategy = ""
      · simp [unset, ih, ModelGroupConfig.Accepted]
      · cases StrategyKind.build g.strategy with
        | error err => simp [unset]
        | ok kind => simp [unset, ih, ModelGroupConfig.Accepted]

/-- The strategies a group's override is built into: a group without an override
has no entry. -/
theorem lookup_buildGroups {entries : List (Sigma fun _ : String => ModelGroupConfig)}
    {built s : StringMap StrategyKind} (ok : buildGroups providers entries built = .ok s)
    (distinct : entries.NodupKeys) (name : String) :
    s.lookup name = match entries.dlookup name with
      | some g => if g.strategy = "" then built.lookup name else (StrategyKind.build g.strategy).toOption
      | none => built.lookup name := by
  induction entries generalizing built with
  | nil =>
    cases ok
    rfl
  | cons e entries ih =>
    obtain ⟨groupName, g⟩ := e
    obtain ⟨fresh, later⟩ := List.nodupKeys_cons.mp distinct
    rw [buildGroups] at ok
    split at ok
    · cases ok
    · by_cases same : name = groupName
      · subst same
        have missing : entries.dlookup name = none := List.dlookup_eq_none.mpr fresh
        rw [List.dlookup_cons_eq]
        split at ok
        · rename_i unset
          rw [ih ok later, missing]
          simp [unset]
        · rename_i set
          split at ok
          · cases ok
          · rename_i kind found
            rw [ih ok later, missing]
            simp [set, found, AList.lookup_insert, Except.toOption]
      · have apart : (⟨groupName, g⟩ :: entries).dlookup name = entries.dlookup name :=
          List.dlookup_cons_ne entries (⟨groupName, g⟩ : Sigma fun _ : String => ModelGroupConfig) same
        rw [apart]
        split at ok
        · exact ih ok later
        · split at ok
          · cases ok
          · rw [ih ok later, AList.lookup_insert_ne same]

theorem newRouter_ok : (∃ r, newRouter registry cfg providers = .ok r) ↔
    (∃ kind, StrategyKind.build cfg.defaultStrategy = .ok kind) ∧
      ∀ e ∈ cfg.modelGroups.entries, e.2.Accepted providers := by
  rw [← buildGroups_ok, newRouter]
  cases StrategyKind.build cfg.defaultStrategy with
  | error err => simp
  | ok kind =>
    cases buildGroups providers cfg.modelGroups.entries ∅ with
    | error err => simp
    | ok s => simp

/-- An accepted router holds its configuration. -/
structure Router.Holds (r : Router) (registry : Registry) (cfg : RoutingConfig) : Prop where
  registry : r.registry = registry
  groups : r.groups = cfg.modelGroups
  pricing : r.pricing = cfg.pricing
  strategy : r.defaultStrategy.name = cfg.defaultStrategy
  overridden : ∀ name g, cfg.modelGroups.lookup name = some g → name ≠ "" →
    (r.strategyFor name).name = if g.strategy = "" then cfg.defaultStrategy else g.strategy

theorem Router.holds_of_newRouter (accepted : newRouter registry cfg providers = .ok r) :
    r.Holds registry cfg := by
  rw [newRouter] at accepted
  split at accepted
  · cases accepted
  · rename_i kind built
    split at accepted
    · cases accepted
    · rename_i overrides ok
      cases accepted
      have named := StrategyKind.name_of_build built
      refine ⟨rfl, rfl, rfl, named, fun name g found filled => ?_⟩
      have entry := lookup_buildGroups ok cfg.modelGroups.nodupKeys name
      rw [show cfg.modelGroups.entries.dlookup name = some g from found] at entry
      simp only [AList.lookup_empty] at entry
      rw [Router.strategyFor, if_pos filled, entry]
      by_cases unset : g.strategy = ""
      · simpa [unset] using named
      · have group : g.Accepted providers :=
          buildGroups_ok.mp ⟨_, ok⟩ ⟨name, g⟩ (AList.mem_lookup_iff.mp found)
        rcases group.2 with empty | ⟨kind', built'⟩
        · exact absurd empty unset
        · simpa [unset, built', Except.toOption] using StrategyKind.name_of_build built'

end NewRouter

end LlmGateway
