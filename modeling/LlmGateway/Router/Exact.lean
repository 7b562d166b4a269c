import LlmGateway.Router.Router

namespace LlmGateway

/-- What a requested name stands for: the (provider, model) pairs of its group
that resolve, in the order of the configuration, or the one pair of a registered
name. -/
def resolution (registry : Registry) (cfg : RoutingConfig) (name : String) : Option (List (Provider × String)) :=
  match cfg.modelGroups.lookup name with
  | some g => some (g.candidates.filterMap fun c => (registry.models.lookup c.model).map fun p => (p, c.model))
  | none => (registry.models.lookup name).map fun p => [(p, registry.canonicalModel name)]

/-- The strategy a request is routed with. A group with an empty name has no
override: the empty name marks a request that names no group. -/
def strategyName (cfg : RoutingConfig) (name : String) : String :=
  match cfg.modelGroups.lookup name with
  | some g => if name ≠ "" ∧ g.strategy ≠ "" then g.strategy else cfg.defaultStrategy
  | none => cfg.defaultStrategy

section Route

variable {registry : Registry} {cfg : RoutingConfig} {r : Router} {name : String}

theorem Registry.resolve_eq (registry : Registry) (name : String) :
    (registry.resolve name).toOption = registry.models.lookup name := by
  unfold resolve
  split
  · rename_i p found
    rw [found]
    rfl
  · rename_i missing
    rw [missing]
    rfl

theorem resolution_eq_none :
    resolution registry cfg name = none ↔ name ∉ cfg.modelGroups ∧ name ∉ registry.models := by
  rw [resolution]
  split
  · rename_i g found
    have member : name ∈ cfg.modelGroups := AList.lookup_isSome.mp (by rw [found]; rfl)
    simp [member]
  · rename_i missing
    have outside : name ∉ cfg.modelGroups := AList.lookup_eq_none.mp missing
    rw [Option.map_eq_none_iff, AList.lookup_eq_none]
    exact ⟨fun unregistered => ⟨outside, unregistered⟩, fun both => both.2⟩

theorem expandGroup_pairs (holds : r.Holds registry cfg) (g : ModelGroupConfig) :
    (r.expandGroup g).map (fun c => (c.provider, c.model)) =
      g.candidates.filterMap fun c => (registry.models.lookup c.model).map fun p => (p, c.model) := by
  rw [Router.expandGroup, List.map_filterMap]
  refine List.filterMap_congr fun c _ => ?_
  rw [← registry.resolve_eq c.model, holds.registry]
  cases registry.resolve c.model <;> rfl

/-- `resolveCandidates` finds what the name stands for. -/
theorem resolveCandidates_pairs (holds : r.Holds registry cfg) (name : String) :
    (resolution registry cfg name = none ∧ r.resolveCandidates name = .error .unknownModel) ∨
      ∃ cs, resolution registry cfg name = some (cs.map fun c => (c.provider, c.model)) ∧
        r.resolveCandidates name = .ok (if name ∈ cfg.modelGroups then name else "", cs) := by
  rw [resolution, Router.resolveCandidates, holds.groups]
  cases found : cfg.modelGroups.lookup name with
  | some g =>
    have member : name ∈ cfg.modelGroups := AList.lookup_isSome.mp (by rw [found]; rfl)
    exact Or.inr ⟨r.expandGroup g, by rw [expandGroup_pairs holds], by rw [if_pos member]⟩
  | none =>
    have member : name ∉ cfg.modelGroups := AList.lookup_eq_none.mp found
    rw [if_neg member, ← registry.resolve_eq name, holds.registry]
    cases registry.resolve name with
    | error err => exact Or.inl ⟨rfl, rfl⟩
    | ok p => exact Or.inr ⟨[_], rfl, rfl⟩

theorem strategyFor_name (holds : r.Holds registry cfg) (name : String) :
    (r.strategyFor (if name ∈ cfg.modelGroups then name else "")).name = strategyName cfg name := by
  rw [strategyName]
  cases found : cfg.modelGroups.lookup name with
  | some g =>
    have member : name ∈ cfg.modelGroups := AList.lookup_isSome.mp (by rw [found]; rfl)
    rw [if_pos member]
    by_cases filled : name = ""
    · simp [filled, Router.strategyFor, holds.strategy]
    · rw [holds.overridden name g found filled]
      by_cases unset : g.strategy = "" <;> simp [filled, unset]
  | none =>
    rw [if_neg (AList.lookup_eq_none.mp found)]
    simp [Router.strategyFor, holds.strategy]

theorem filterHealthy_eq (hs : Breakers) (now : Int) (cs : List Candidate) :
    filterHealthy hs now cs = cs.filter fun c => hs.admits now c.provider :=
  Slice.filterInPlace_eq_filter _ _

variable (hs : Breakers) (now : Int) (st : StrategyState) (draw : ℚ) (req : ChatCompletionRequest)

/-- Once a candidate is admitted, `Route` returns what the strategy picks among
the admitted ones. -/
theorem route_of_admitted {group : String} {cs : List Candidate}
    (resolved : r.resolveCandidates req.model = .ok (group, cs))
    (filled : (cs.filter fun c => hs.admits now c.provider) ≠ []) :
    ∃ c ∈ cs, hs.admits now c.provider = true ∧
      ((r.strategyFor group).select st draw (cs.filter fun c => hs.admits now c.provider) req group).1 = .ok c ∧
      (r.route hs now st draw (some req)).1 =
        .ok (c.provider, ⟨c.provider.name, c.model, (r.strategyFor group).name, group⟩) := by
  obtain ⟨c, kept, picked⟩ := StrategyKind.select_mem filled (r.strategyFor group) st draw req group
  obtain ⟨inside, admitted⟩ := List.mem_filter.mp kept
  refine ⟨c, inside, admitted, picked, ?_⟩
  simp only [Router.route, resolved, filterHealthy_eq]
  rw [if_neg (by simpa using filled)]
  split
  · rename_i failed
    rw [failed] at picked
    cases picked
  · rename_i chosen
    rw [chosen] at picked
    cases picked
    rfl

theorem route_of_none_admitted {group : String} {cs : List Candidate}
    (resolved : r.resolveCandidates req.model = .ok (group, cs))
    (empty : (cs.filter fun c => hs.admits now c.provider) = []) :
    (r.route hs now st draw (some req)).1 = .error .noHealthyProviders := by
  simp [Router.route, resolved, filterHealthy_eq, empty]

/-- The three outcomes of `Route`. -/
theorem route_outcome (holds : r.Holds registry cfg) :
    (resolution registry cfg req.model = none ∧
      (r.route hs now st draw (some req)).1 = .error .unknownModel) ∨
    (∃ pairs, resolution registry cfg req.model = some pairs ∧ (∀ x ∈ pairs, hs.admits now x.1 = false) ∧
      (r.route hs now st draw (some req)).1 = .error .noHealthyProviders) ∨
    (∃ pairs p model, resolution registry cfg req.model = some pairs ∧ (p, model) ∈ pairs ∧
      hs.admits now p = true ∧ (r.route hs now st draw (some req)).1 = .ok (p, ⟨p.name, model,
        strategyName cfg req.model, if req.model ∈ cfg.modelGroups then req.model else ""⟩)) := by
  rcases resolveCandidates_pairs holds req.model with ⟨unknown, failed⟩ | ⟨cs, pairs, resolved⟩
  · exact Or.inl ⟨unknown, by simp only [Router.route, failed]⟩
  · by_cases empty : (cs.filter fun c => hs.admits now c.provider) = []
    · refine Or.inr (Or.inl ⟨_, pairs, ?_, route_of_none_admitted hs now st draw req resolved empty⟩)
      intro x member
      obtain ⟨c, inside, rfl⟩ := List.mem_map.mp member
      simpa using List.filter_eq_nil_iff.mp empty c inside
    · obtain ⟨c, inside, admitted, _, out⟩ := route_of_admitted hs now st draw req resolved empty
      rw [strategyFor_name holds] at out
      exact Or.inr (Or.inr ⟨_, c.provider, c.model, pairs, List.mem_map.mpr ⟨c, inside, rfl⟩, admitted, out⟩)

/-- What `Route` returns is a pair that the name stands for, with an admitted
provider. -/
theorem route_ok (holds : r.Holds registry cfg) {p : Provider} {d : Decision}
    (out : (r.route hs now st draw (some req)).1 = .ok (p, d)) :
    ∃ pairs, resolution registry cfg req.model = some pairs ∧ (p, d.model) ∈ pairs ∧ hs.admits now p = true ∧
      d.provider = p.name := by
  rcases route_outcome hs now st draw req holds with
    ⟨_, failed⟩ | ⟨_, _, _, failed⟩ | ⟨pairs, q, model, resolved, member, admitted, success⟩
  · cases failed.symm.trans out
  · cases failed.symm.trans out
  · cases success.symm.trans out
    exact ⟨pairs, resolved, member, admitted, rfl⟩

/-- `Route` is exact: which error it returns and when, and what it returns
otherwise. No strategy fails, and the in-place filter hands the strategy the
admitted candidates in the order of the configuration. -/
theorem route_exact {providers : StringMap ProviderConfig} (accepted : newRouter registry cfg providers = .ok r) :
    ((r.route hs now st draw (some req)).1 = .error .unknownModel ↔
      req.model ∉ cfg.modelGroups ∧ req.model ∉ registry.models) ∧
    ((r.route hs now st draw (some req)).1 = .error .noHealthyProviders ↔
      ∃ pairs, resolution registry cfg req.model = some pairs ∧ ∀ x ∈ pairs, hs.admits now x.1 = false) ∧
    (∀ pairs, resolution registry cfg req.model = some pairs → (∃ x ∈ pairs, hs.admits now x.1 = true) →
      ∃ p d, (r.route hs now st draw (some req)).1 = .ok (p, d) ∧ (p, d.model) ∈ pairs ∧
        hs.admits now p = true ∧ d.provider = p.name ∧
        d.group = (if req.model ∈ cfg.modelGroups then req.model else "") ∧
        d.strategy = strategyName cfg req.model) ∧
    (∀ group cs, r.resolveCandidates req.model = .ok (group, cs) →
      resolution registry cfg req.model = some (cs.map fun c => (c.provider, c.model)) ∧
        filterHealthy hs now cs = cs.filter fun c => hs.admits now c.provider) := by
  have holds := Router.holds_of_newRouter accepted
  refine ⟨?_, ?_, ?_, ?_⟩
  · rw [← resolution_eq_none]
    rcases route_outcome hs now st draw req holds with
      ⟨unknown, out⟩ | ⟨_, found, _, out⟩ | ⟨_, _, _, found, _, _, out⟩
    · simp [unknown, out]
    · simp [found, out]
    · simp [found, out]
  · rcases route_outcome hs now st draw req holds with
      ⟨unknown, out⟩ | ⟨pairs, found, down, out⟩ | ⟨pairs, p, model, found, member, admitted, out⟩
    · simp [unknown, out]
    · exact ⟨fun _ => ⟨pairs, found, down⟩, fun _ => out⟩
    · rw [out]
      refine ⟨nofun, ?_⟩
      rintro ⟨others, same, down⟩
      rw [found] at same
      cases same
      rw [down (p, model) member] at admitted
      cases admitted
  · rintro pairs resolved ⟨x, member, up⟩
    rcases route_outcome hs now st draw req holds with
      ⟨unknown, _⟩ | ⟨others, found, down, _⟩ | ⟨others, p, model, found, inside, admitted, out⟩
    · rw [resolved] at unknown
      cases unknown
    · rw [resolved] at found
      cases found
      rw [down x member] at up
      cases up
    · rw [resolved] at found
      cases found
      exact ⟨p, _, out, inside, admitted, rfl, rfl, rfl⟩
  · intro group cs resolved
    refine ⟨?_, filterHealthy_eq hs now cs⟩
    rcases resolveCandidates_pairs holds req.model with ⟨_, failed⟩ | ⟨cs', pairs, same⟩
    · rw [failed] at resolved
      cases resolved
    · rw [same] at resolved
      cases resolved
      exact pairs

end Route

/-- Two tracked providers. -/
def pairProviders : List Provider :=
  [⟨"openai", ["gpt-4o"], some ⟨0, 2, 1⟩⟩, ⟨"anthropic", ["claude"], some ⟨1, 2, 1⟩⟩]

def pairRegistry : Registry := pairProviders.foldl (fun reg p => reg.register p p.models) .empty

def pairConfig : StringMap ProviderConfig :=
  (AList.singleton "openai" ⟨"sk", "", 0, ["gpt-4o"], 0, 0⟩).insert "anthropic" ⟨"sk", "", 0, ["claude"], 0, 0⟩

/-- One group of a candidate each, with an override. -/
def pairRouting : RoutingConfig where
  defaultStrategy := "priority"
  maxAttempts := 3
  modelGroups := AList.singleton "fast"
    ⟨"round_robin", [⟨"openai", "gpt-4o", 0, 0, 0, 1⟩, ⟨"anthropic", "claude", 0, 0, 0, 1⟩]⟩
  pricing := ∅

/-- The breaker of the first provider has opened at 0, for ten nanoseconds. -/
def firstDown : Breakers := fun breaker =>
  if breaker = 0 then ((newProviderHealth ⟨1, 10⟩).recordFailure 0 none).2 else newProviderHealth ⟨1, 10⟩

/-- The second provider stands in for the first while that one is down, and nobody
does when the second fails as well. -/
theorem route_exact_fallback :
    ∃ r, newRouter pairRegistry pairRouting pairConfig = .ok r ∧
      (∃ p d, (r.route firstDown 5 .fresh 0 (some ⟨"fast", [], none⟩)).1 = .ok (p, d) ∧
        firstDown.admits 5 p = true ∧ d.group = "fast" ∧ d.strategy = "round_robin") ∧
      (r.route (fun _ => firstDown 0) 5 .fresh 0 (some ⟨"fast", [], none⟩)).1 = .error .noHealthyProviders := by
  have accepted : newRouter pairRegistry pairRouting pairConfig = .ok _ := rfl
  have resolved : resolution pairRegistry pairRouting "fast" = some (pairProviders.zip ["gpt-4o", "claude"]) := rfl
  obtain ⟨_, _, success, _⟩ := route_exact firstDown 5 .fresh 0 ⟨"fast", [], none⟩ accepted
  obtain ⟨p, d, out, _, admitted, _, group, strategy⟩ := success _ resolved
    ⟨_, List.mem_cons_of_mem _ List.mem_cons_self, rfl⟩
  obtain ⟨_, nobody, _, _⟩ := route_exact (fun _ => firstDown 0) 5 .fresh 0 ⟨"fast", [], none⟩ accepted
  exact ⟨_, accepted, ⟨p, d, out, admitted, group, strategy⟩, nobody.mpr ⟨_, resolved, by decide⟩⟩

def soloProvider : Provider := ⟨"openai", ["gpt-4o"], none⟩

def soloProviders : StringMap ProviderConfig := AList.singleton "openai" ⟨"sk", "", 0, ["gpt-4o"], 0, 0⟩

/-- One group of one candidate, with an override. -/
def soloRouting (groupName : String) : RoutingConfig where
  defaultStrategy := "priority"
  maxAttempts := 3
  modelGroups := AList.singleton groupName ⟨"round_robin", [⟨"openai", "gpt-4o", 0, 0, 0, 1⟩]⟩
  pricing := ∅

/-- The override of a group named `""` is never used. -/
theorem unnamed_group_override_unused :
    (soloRouting "").modelGroups.lookup "" = some ⟨"round_robin", [⟨"openai", "gpt-4o", 0, 0, 0, 1⟩]⟩ ∧
      ∃ r, newRouter (Registry.empty.register soloProvider ["gpt-4o"]) (soloRouting "") soloProviders = .ok r ∧
        (r.route (fun _ => newProviderHealth ⟨0, 0⟩) 0 .fresh 0 (some ⟨"", [], none⟩)).1 =
          .ok (soloProvider, ⟨"openai", "gpt-4o", "priority", ""⟩) :=
  ⟨rfl, _, rfl, rfl⟩

end LlmGateway
