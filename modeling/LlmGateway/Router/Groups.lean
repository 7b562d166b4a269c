import LlmGateway.Router.Exact

namespace LlmGateway

def ModelGroupConfig.pairs (g : ModelGroupConfig) : List (String × String) :=
  g.candidates.map fun c => (c.provider, c.model)

/-- The configurations define the same groups of (provider, model) pairs. They
may differ in strategies, prices, priorities and weights. -/
def RoutingConfig.SameGroups (cfg cfg' : RoutingConfig) : Prop :=
  ∀ name, (cfg'.modelGroups.lookup name).map ModelGroupConfig.pairs =
    (cfg.modelGroups.lookup name).map ModelGroupConfig.pairs

/-- The group without an override and with the candidates of one model before
all others. -/
def ModelGroupConfig.prefer (model : String) (g : ModelGroupConfig) : ModelGroupConfig where
  strategy := ""
  candidates := g.candidates.map fun c => { c with priority := if c.model = model then 0 else 1 }

def RoutingConfig.prefer (cfg : RoutingConfig) (model : String) : RoutingConfig where
  defaultStrategy := "priority"
  maxAttempts := cfg.maxAttempts
  modelGroups := StringMap.mapValues (ModelGroupConfig.prefer model) cfg.modelGroups
  pricing := cfg.pricing

variable {registry : Registry} {cfg : RoutingConfig} {providers : StringMap ProviderConfig} {r : Router}
  {name model : String} {g : ModelGroupConfig}

theorem lookup_prefer (cfg : RoutingConfig) (model name : String) :
    (cfg.prefer model).modelGroups.lookup name = (cfg.modelGroups.lookup name).map (ModelGroupConfig.prefer model) :=
  StringMap.lookup_mapValues _ _ _

theorem sameGroups_prefer (cfg : RoutingConfig) (model : String) : cfg.SameGroups (cfg.prefer model) := by
  intro name
  rw [lookup_prefer, Option.map_map]
  congr 1
  funext g
  simp [ModelGroupConfig.pairs, ModelGroupConfig.prefer, Function.comp_def]

theorem newRouter_prefer (accepted : newRouter registry cfg providers = .ok r) (model : String) :
    ∃ r', newRouter registry (cfg.prefer model) providers = .ok r' := by
  obtain ⟨_, groups⟩ := newRouter_ok.mp ⟨r, accepted⟩
  refine newRouter_ok.mpr ⟨⟨.priority, rfl⟩, fun e member => ?_⟩
  obtain ⟨old, inside, rfl⟩ := List.mem_map.mp member
  refine ⟨fun c picked => ?_, Or.inl rfl⟩
  obtain ⟨c, original, rfl⟩ := List.mem_map.mp picked
  exact (groups old inside).1 c original

theorem mem_expandGroup {c : Candidate} : c ∈ r.expandGroup g ↔
    ∃ entry ∈ g.candidates, ∃ p, r.registry.models.lookup entry.model = some p ∧
      c = ⟨p, entry.model, entry.costPer1kInputUSD, entry.costPer1kOutputUSD, entry.priority, entry.weight⟩ := by
  simp only [Router.expandGroup, List.mem_filterMap]
  refine exists_congr fun entry => and_congr_right fun _ => ?_
  rw [← r.registry.resolve_eq entry.model]
  cases r.registry.resolve entry.model with
  | error err => simp [Except.toOption]
  | ok p => simp [Except.toOption, eq_comm]

/-- Breakers that have recorded nothing admit every provider. -/
theorem admits_fresh (cfg : HealthConfig) (now : Int) (p : Provider) :
    Breakers.admits (fun _ => newProviderHealth cfg) now p = true := by
  unfold Breakers.admits
  cases healthFor p <;> rfl

/-- A registered name that is no group is routed to its provider under the name
it stands for. -/
theorem route_registered (accepted : newRouter registry cfg providers = .ok r)
    (ungrouped : cfg.modelGroups.lookup name = none) {p : Provider}
    (registered : registry.models.lookup name = some p) :
    ∃ d, (r.route (fun _ => newProviderHealth ⟨0, 0⟩) 0 .fresh 0 (some ⟨name, [], none⟩)).1 = .ok (p, d) ∧
      d.model = registry.canonicalModel name := by
  have holds := Router.holds_of_newRouter accepted
  have resolved : resolution registry cfg name = some [(p, registry.canonicalModel name)] := by
    rw [resolution, ungrouped, registered]
    rfl
  rcases route_outcome (fun _ => newProviderHealth ⟨0, 0⟩) 0 .fresh 0 ⟨name, [], none⟩ holds with
    ⟨unknown, _⟩ | ⟨pairs, same, down, _⟩ | ⟨pairs, q, model, same, member, _, out⟩
  · cases unknown.symm.trans resolved
  · cases same.symm.trans resolved
    have up := down _ (List.mem_singleton_self _)
    rw [admits_fresh] at up
    cases up
  · cases same.symm.trans resolved
    cases List.mem_singleton.mp member
    exact ⟨_, out, rfl⟩

/-- Every candidate of a group that resolves is returned by some router with the
same groups. -/
theorem route_prefer (accepted : newRouter registry (cfg.prefer model) providers = .ok r)
    (found : cfg.modelGroups.lookup name = some g) {entry : CandidateConfig} (member : entry ∈ g.candidates)
    (named : entry.model = model) {p : Provider} (registered : registry.models.lookup model = some p) :
    ∃ d, (r.route (fun _ => newProviderHealth ⟨0, 0⟩) 0 .fresh 0 (some ⟨name, [], none⟩)).1 = .ok (p, d) ∧
      d.provider = p.name ∧ d.model = model := by
  have holds := Router.holds_of_newRouter accepted
  have grouped : (cfg.prefer model).modelGroups.lookup name = some (g.prefer model) := by
    rw [lookup_prefer, found]
    rfl
  have inside : name ∈ (cfg.prefer model).modelGroups := AList.lookup_isSome.mp (by rw [grouped]; rfl)
  have resolved : r.resolveCandidates name = .ok (name, r.expandGroup (g.prefer model)) := by
    rw [Router.resolveCandidates, holds.groups, grouped]
  have kind : r.strategyFor name = .priority := by
    have text := strategyFor_name holds name
    rw [if_pos inside, strategyName, grouped] at text
    revert text
    cases r.strategyFor name <;> simp [StrategyKind.name, ModelGroupConfig.prefer, RoutingConfig.prefer]
  have everyone : (r.expandGroup (g.prefer model)).filter (fun c => Breakers.admits
      (fun _ => newProviderHealth ⟨0, 0⟩) 0 c.provider) = r.expandGroup (g.prefer model) :=
    List.filter_eq_self.mpr fun c _ => admits_fresh _ _ _
  have target : ⟨p, entry.model, entry.costPer1kInputUSD, entry.costPer1kOutputUSD, 0, entry.weight⟩ ∈
      r.expandGroup (g.prefer model) := by
    refine mem_expandGroup.mpr ⟨_, List.mem_map.mpr ⟨entry, member, rfl⟩, p, ?_, ?_⟩
    · rw [holds.registry, named, registered]
    · simp [named]
  have filled : r.expandGroup (g.prefer model) ≠ [] := List.ne_nil_of_mem target
  obtain ⟨c, picked, _, selected, out⟩ := route_of_admitted (fun _ => newProviderHealth ⟨0, 0⟩) 0 .fresh 0
    ⟨name, [], none⟩ resolved (by rw [everyone]; exact filled)
  rw [everyone, kind] at selected
  obtain ⟨best, _, chosen, least⟩ := selectPriority_min filled
  cases selected.symm.trans chosen
  obtain ⟨other, otherMember, q, atOther, same⟩ := mem_expandGroup.mp picked
  obtain ⟨original, _, rfl⟩ := List.mem_map.mp otherMember
  have lowest := least _ target
  have modelled : original.model = model := by
    by_contra differs
    rw [same] at lowest
    simp [differs] at lowest
  have sameProvider : q = p := by
    rw [holds.registry, show ({ original with priority := _ } : CandidateConfig).model = model from modelled,
      registered] at atOther
    exact (Option.some.inj atOther).symm
  rw [same, sameProvider] at out
  exact ⟨_, out, rfl, modelled⟩

end LlmGateway
