import LlmGateway.Provider.Orders
import LlmGateway.Router.Exact

namespace LlmGateway

def Candidate.bare (c : Candidate) : Candidate := { c with provider := c.provider.bare }

section Strategies

variable (candidates : List Candidate)

theorem indexed_bare (i : Nat) :
    indexed (candidates.map Candidate.bare) i = (indexed candidates i).map Candidate.bare := by
  unfold indexed
  rw [List.getElem?_map]
  cases candidates[i]? <;> rfl

theorem selectRoundRobin_bare (counters : Counters) (group : String) :
    selectRoundRobin counters (candidates.map Candidate.bare) group =
      ((selectRoundRobin counters candidates group).1.map Candidate.bare,
        (selectRoundRobin counters candidates group).2) := by
  unfold selectRoundRobin
  rw [List.length_map]
  split
  · rfl
  · dsimp only
    rw [indexed_bare]

theorem pickWeighted_bare (pick cursor : ℚ) :
    pickWeighted pick cursor (candidates.map Candidate.bare) =
      (pickWeighted pick cursor candidates).map Candidate.bare := by
  induction candidates generalizing cursor with
  | nil => rfl
  | cons c rest ih =>
    simp only [List.map_cons, pickWeighted]
    rw [show c.bare.weight = c.weight from rfl, ih, ih]
    split
    · rfl
    · split <;> rfl

theorem totalWeight_bare : totalWeight (candidates.map Candidate.bare) = totalWeight candidates := by
  rw [totalWeight, List.foldl_map]
  rfl

theorem lastPositive_bare :
    lastPositive (candidates.map Candidate.bare) = (lastPositive candidates).map Candidate.bare := by
  rw [lastPositive, ← List.map_reverse, List.find?_map]
  rfl

theorem selectWeighted_bare (draw : ℚ) :
    selectWeighted draw (candidates.map Candidate.bare) = (selectWeighted draw candidates).map Candidate.bare := by
  unfold selectWeighted
  dsimp only
  rw [List.length_map, totalWeight_bare, pickWeighted_bare, lastPositive_bare, indexed_bare, indexed_bare]
  split
  · rfl
  · split
    · rfl
    · cases pickWeighted (draw * totalWeight candidates) 0 candidates with
      | some c => rfl
      | none =>
        cases lastPositive candidates with
        | some c => rfl
        | none => rfl

theorem selectPriority_bare :
    selectPriority (candidates.map Candidate.bare) = (selectPriority candidates).map Candidate.bare := by
  cases candidates with
  | nil => rfl
  | cons first rest =>
    have same : ∀ c : Candidate, c.bare.priority = c.priority := fun _ => rfl
    simp only [List.map_cons, selectPriority, Slice.scanMin_map, same]
    cases Slice.scanMin (fun c : Candidate => some c.priority) (some (0, first.priority)) 1 rest with
    | none => rfl
    | some best => exact indexed_bare (first :: rest) best.1

/-- A score that ignores the breaker picks the same candidate. -/
theorem selectScored_bare {score : Candidate → Option ℚ} (blind : ∀ c, score c.bare = score c) (fallback : Counters)
    (group : String) :
    selectScored score fallback (candidates.map Candidate.bare) group =
      ((selectScored score fallback candidates group).1.map Candidate.bare,
        (selectScored score fallback candidates group).2) := by
  unfold selectScored
  rw [Slice.scanMin_map, funext blind]
  cases Slice.scanMin score none 0 candidates with
  | none => exact selectRoundRobin_bare candidates fallback group
  | some best =>
    dsimp only
    rw [indexed_bare]

/-- No strategy looks at the breakers of the candidates. -/
theorem StrategyKind.select_bare (kind : StrategyKind) (st : StrategyState) (draw : ℚ)
    (req : ChatCompletionRequest) (group : String) :
    kind.select st draw (candidates.map Candidate.bare) req group =
      ((kind.select st draw candidates req group).1.map Candidate.bare,
        (kind.select st draw candidates req group).2) := by
  cases kind with
  | costOptimized =>
    simp only [select, selectCostOptimized, List.length_map]
    split
    · rfl
    · rw [selectScored_bare candidates fun _ => rfl]
  | latencyOptimized =>
    simp only [select, selectLatencyOptimized, List.length_map]
    split
    · rfl
    · rw [selectScored_bare candidates fun _ => rfl]
  | roundRobin => simp only [select, selectRoundRobin_bare]
  | weighted => simp only [select, selectWeighted_bare]
  | priority => simp only [select, selectPriority_bare]

end Strategies

/-- What routing sees of a provider: everything but the address of its breaker. -/
def Provider.seen (hs : Breakers) (p : Provider) : Provider × Option ProviderHealth := (p.bare, (healthFor p).map hs)

def Candidate.seen (hs : Breakers) (c : Candidate) : Candidate × Option ProviderHealth :=
  (c.bare, (healthFor c.provider).map hs)

section Route

variable {hs hs' : Breakers} {r r' : Router}

/-- The routers are configured the same, and their registries look the same. -/
structure Router.Alike (hs hs' : Breakers) (r r' : Router) : Prop where
  registry : Registry.Alike (Provider.seen hs) (Provider.seen hs') r.registry r'.registry
  groups : r.groups = r'.groups
  pricing : r.pricing = r'.pricing
  defaultStrategy : r.defaultStrategy = r'.defaultStrategy
  groupStrategies : r.groupStrategies = r'.groupStrategies

/-- Both registries know the name, under providers that look the same, or
neither does. -/
theorem Router.Alike.resolve (alike : Router.Alike hs hs' r r') (name : String) :
    (∃ p p', r.registry.resolve name = .ok p ∧ r'.registry.resolve name = .ok p' ∧ p.seen hs = p'.seen hs') ∨
      ∃ e e', r.registry.resolve name = .error e ∧ r'.registry.resolve name = .error e' := by
  have both := alike.registry.models name
  unfold Registry.resolve
  cases found : r.registry.models.lookup name with
  | none =>
    rw [found] at both
    rw [Option.map_eq_none_iff.mp both.symm]
    exact Or.inr ⟨_, _, rfl, rfl⟩
  | some p =>
    rw [found] at both
    obtain ⟨p', found', same⟩ := Option.map_eq_some_iff.mp both.symm
    rw [found']
    exact Or.inl ⟨p, p', rfl, rfl, same.symm⟩

theorem Candidate.seen_eq {p p' : Provider} (same : p.seen hs = p'.seen hs') (model : String) (input output : ℚ)
    (priority weight : Int) : Candidate.seen hs ⟨p, model, input, output, priority, weight⟩ =
      Candidate.seen hs' ⟨p', model, input, output, priority, weight⟩ := by
  obtain ⟨bare, state⟩ := Prod.mk.inj same
  simp only [Candidate.seen, Candidate.bare, bare, state]

theorem Router.Alike.expandGroup (alike : Router.Alike hs hs' r r') (g : ModelGroupConfig) :
    (r.expandGroup g).map (Candidate.seen hs) = (r'.expandGroup g).map (Candidate.seen hs') := by
  rw [Router.expandGroup, Router.expandGroup, List.map_filterMap, List.map_filterMap]
  refine List.filterMap_congr fun c _ => ?_
  rcases alike.resolve c.model with ⟨p, p', found, found', same⟩ | ⟨e, e', missing, missing'⟩
  · rw [found, found', Option.map_some, Option.map_some, Candidate.seen_eq same]
  · rw [missing, missing']
    rfl

theorem Router.Alike.resolveCandidates (alike : Router.Alike hs hs' r r') (name : String) :
    (∃ group cs cs', r.resolveCandidates name = .ok (group, cs) ∧ r'.resolveCandidates name = .ok (group, cs') ∧
      cs.map (Candidate.seen hs) = cs'.map (Candidate.seen hs')) ∨
      ∃ e, r.resolveCandidates name = .error e ∧ r'.resolveCandidates name = .error e := by
  unfold Router.resolveCandidates
  rw [← alike.groups]
  cases r.groups.lookup name with
  | some g => exact Or.inl ⟨_, _, _, rfl, rfl, alike.expandGroup g⟩
  | none =>
    have canonical : r.registry.canonicalModel name = r'.registry.canonicalModel name := by
      rw [Registry.canonicalModel, Registry.canonicalModel, alike.registry.aliases]
    rcases alike.resolve name with ⟨p, p', found, found', same⟩ | ⟨e, e', missing, missing'⟩
    · rw [found, found', canonical, alike.pricing]
      refine Or.inl ⟨_, _, _, rfl, rfl, ?_⟩
      rw [List.map_singleton, List.map_singleton, Candidate.seen_eq same]
    · rw [missing, missing']
      exact Or.inr ⟨_, rfl, rfl⟩

theorem filterHealthy_seen (hs : Breakers) (now : Int) (cs : List Candidate) :
    (filterHealthy hs now cs).map (Candidate.seen hs) =
      (cs.map (Candidate.seen hs)).filter fun x => x.2.all fun h => h.isHealthy now := by
  rw [filterHealthy_eq, List.filter_map]
  congr 1
  refine List.filter_congr fun c _ => ?_
  simp only [Breakers.admits, Candidate.seen, Function.comp_apply, Option.all_map]

/-- Routers that look the same decide the same. -/
theorem Router.Alike.route (alike : Router.Alike hs hs' r r') (now : Int) (st : StrategyState) (draw : ℚ)
    (req : Option ChatCompletionRequest) :
    (r.route hs now st draw req).1.map Prod.snd = (r'.route hs' now st draw req).1.map Prod.snd ∧
      (r.route hs now st draw req).2 = (r'.route hs' now st draw req).2 := by
  unfold Router.route
  cases req with
  | none => exact ⟨rfl, rfl⟩
  | some req =>
    dsimp only
    rcases alike.resolveCandidates req.model with ⟨group, cs, cs', found, found', same⟩ | ⟨e, failed, failed'⟩
    · have kept : (filterHealthy hs now cs).map (Candidate.seen hs) =
          (filterHealthy hs' now cs').map (Candidate.seen hs') := by
        rw [filterHealthy_seen, filterHealthy_seen, same]
      have bare : (filterHealthy hs now cs).map Candidate.bare = (filterHealthy hs' now cs').map Candidate.bare := by
        simpa [List.map_map, Function.comp_def, Candidate.seen] using congrArg (List.map Prod.fst) kept
      have strategy : r'.strategyFor group = r.strategyFor group := by
        unfold Router.strategyFor
        rw [alike.groupStrategies, alike.defaultStrategy]
      have length : (filterHealthy hs now cs).length = (filterHealthy hs' now cs').length := by
        simpa using congrArg List.length bare
      have picks := StrategyKind.select_bare (filterHealthy hs now cs) (r.strategyFor group) st draw req group
      rw [bare, StrategyKind.select_bare] at picks
      obtain ⟨pick, state⟩ := Prod.mk.inj picks
      rw [found, found']
      dsimp only
      rw [length, strategy]
      split
      · exact ⟨rfl, rfl⟩
      · generalize (r.strategyFor group).select st draw (filterHealthy hs now cs) req group = out at pick state ⊢
        generalize (r.strategyFor group).select st draw (filterHealthy hs' now cs') req group = out' at pick state ⊢
        obtain ⟨result, after⟩ := out
        obtain ⟨result', after'⟩ := out'
        cases result with
        | error e =>
          cases result' with
          | error e' =>
            cases pick
            exact ⟨rfl, state.symm⟩
          | ok c' => cases pick
        | ok c =>
          cases result' with
          | error e' => cases pick
          | ok c' =>
            have same : c'.bare = c.bare := Except.ok.inj pick
            have name : c'.provider.name = c.provider.name := by
              change c'.bare.provider.name = c.bare.provider.name
              rw [same]
            have model : c'.model = c.model := by
              change c'.bare.model = c.bare.model
              rw [same]
            simp only [Except.map, name, model, true_and]
            exact state.symm
    · rw [failed, failed']
      exact ⟨rfl, rfl⟩

end Route

/-- The providers of each name have breakers in the same state. -/
def BuiltProviders.SameBreakers (built built' : BuiltProviders) (hs hs' : Breakers) : Prop :=
  ∀ name, ((built.healthProviders.lookup name).bind healthFor).map hs =
    ((built'.healthProviders.lookup name).bind healthFor).map hs'

/-- The registries resolve every name to the same provider name and the same
canonical model. -/
def Registry.SameTable (r r' : Registry) : Prop :=
  ∀ name, (r.resolve name).toOption.map Provider.name = (r'.resolve name).toOption.map Provider.name ∧
    r.canonicalModel name = r'.canonicalModel name

/-- Every start of the process, in whatever order it sees the providers, comes to
the same routing table; and where one start accepts the routing configuration
the other does, and both route every request alike while the strategies and the
breakers of the providers are in the same state. -/
def Config.Settled (cfg : Config) : Prop :=
  ∀ m m' : StringMap ProviderConfig, cfg.Reordered m → cfg.Reordered m' →
    Registry.SameTable (buildProviders { cfg with providers := m }).registry
        (buildProviders { cfg with providers := m' }).registry ∧
      ∀ r, newRouter (buildProviders { cfg with providers := m }).registry cfg.routing m = .ok r →
        ∃ r', newRouter (buildProviders { cfg with providers := m' }).registry cfg.routing m' = .ok r' ∧
          ∀ hs hs', (buildProviders { cfg with providers := m }).SameBreakers
              (buildProviders { cfg with providers := m' }) hs hs' →
            ∀ now st draw req,
              (r.route hs now st draw req).1.map Prod.snd = (r'.route hs' now st draw req).1.map Prod.snd ∧
                (r.route hs now st draw req).2 = (r'.route hs' now st draw req).2

section Restart

variable {m m' : StringMap ProviderConfig}

theorem checkCandidates_congr (same : ∀ key, key ∈ m ↔ key ∈ m') (groupName : String) (i : Nat)
    (cs : List CandidateConfig) : checkCandidates groupName m i cs = checkCandidates groupName m' i cs := by
  induction cs generalizing i with
  | nil => rfl
  | cons c cs ih => simp only [checkCandidates, same, ih]

theorem buildGroups_congr (same : ∀ key, key ∈ m ↔ key ∈ m')
    (entries : List (Sigma fun _ : String => ModelGroupConfig)) (built : StringMap StrategyKind) :
    buildGroups m entries built = buildGroups m' entries built := by
  induction entries generalizing built with
  | nil => rfl
  | cons e entries ih =>
    obtain ⟨groupName, g⟩ := e
    simp only [buildGroups, checkCandidates_congr same, ih]

/-- `NewRouter` asks only which providers are configured. -/
theorem newRouter_congr (same : ∀ key, key ∈ m ↔ key ∈ m') {registry : Registry} (registry' : Registry)
    {cfg : RoutingConfig} {r : Router} (accepted : newRouter registry cfg m = .ok r) :
    newRouter registry' cfg m' = .ok { r with registry := registry' } ∧ r.registry = registry := by
  unfold newRouter at accepted ⊢
  rw [← buildGroups_congr same]
  split at accepted
  · cases accepted
  · split at accepted
    · cases accepted
    · cases accepted
      exact ⟨rfl, rfl⟩

theorem Config.Reordered.mem_keys {cfg : Config} (order : cfg.Reordered m) (order' : cfg.Reordered m') (key : String) :
    key ∈ m ↔ key ∈ m' := by
  have keys : (m.entries.map Sigma.fst).Perm (m'.entries.map Sigma.fst) :=
    (List.Perm.trans order (List.Perm.symm order')).map Sigma.fst
  exact keys.mem_iff

/-- The routing table is a function of the configuration exactly when no model
is listed by two providers that are enabled. -/
theorem routing_table_settled_iff (cfg : Config) : cfg.Settled ↔ cfg.Unshared := by
  constructor
  · intro settled e member e' member' enabled enabled' name listed listed'
    obtain ⟨m, others, order, last⟩ := Config.exists_last member
    obtain ⟨m', others', order', last'⟩ := Config.exists_last member'
    obtain ⟨p, found, named⟩ := lookup_of_last cfg last enabled listed
    obtain ⟨p', found', named'⟩ := lookup_of_last cfg last' enabled' listed'
    have same := ((settled m m' order order').1 name).1
    rw [Registry.resolve_eq, Registry.resolve_eq, found, found', Option.map_some, Option.map_some, named,
      named'] at same
    exact Option.some.inj same
  · intro unshared m m' order order'
    refine ⟨fun name => ?_, fun r accepted => ?_⟩
    · have alike : Registry.Alike Provider.name Provider.name _ _ := unshared.alike order order'
        fun p p' bare _ _ => (congrArg Provider.name bare).symm
      rw [Registry.resolve_eq, Registry.resolve_eq, Registry.canonicalModel, Registry.canonicalModel, alike.aliases]
      exact ⟨alike.models name, rfl⟩
    · obtain ⟨accepted', held⟩ := newRouter_congr (order.mem_keys order')
        (buildProviders { cfg with providers := m' }).registry accepted
      refine ⟨_, accepted', fun hs hs' breakers now st draw req => ?_⟩
      have alike : Registry.Alike (Provider.seen hs) (Provider.seen hs') r.registry
          (buildProviders { cfg with providers := m' }).registry := by
        rw [held]
        refine unshared.alike order order' fun p p' bare known known' => ?_
        have state : (((buildAll m.entries).healthProviders.lookup p.name).bind healthFor).map hs =
          (((buildAll m'.entries).healthProviders.lookup p.name).bind healthFor).map hs' := breakers p.name
        rw [known, known'] at state
        exact Prod.ext bare.symm state
      have routers : Router.Alike hs hs' r { r with
        registry := (buildProviders { cfg with providers := m' }).registry } := ⟨alike, rfl, rfl, rfl, rfl⟩
      exact routers.route now st draw req

/-- Two providers are configured with the model `shared`. -/
def sharedTwice : Config :=
  { Config.zero with
    providers := (AList.singleton "openai" ⟨"sk", "", 0, ["shared"], 0, 0⟩).insert "google"
      ⟨"sk", "", 0, ["shared"], 0, 0⟩ }

/-- One start resolves it to one of them, another start to the other. -/
theorem shared_model_unsettled :
    ∃ m, sharedTwice.Reordered m ∧
      ((buildProviders sharedTwice).registry.resolve "shared").toOption.map Provider.name = some "openai" ∧
      ((buildProviders { sharedTwice with providers := m }).registry.resolve "shared").toOption.map Provider.name =
        some "google" := by
  refine ⟨(AList.singleton "google" ⟨"sk", "", 0, ["shared"], 0, 0⟩).insert "openai"
    ⟨"sk", "", 0, ["shared"], 0, 0⟩, ?_, rfl, rfl⟩
  exact List.Perm.swap _ _ []

end Restart

end LlmGateway
