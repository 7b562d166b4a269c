import LlmGateway.Provider.Build
import LlmGateway.Router.Groups

namespace LlmGateway

/-- Whenever a request for the name is routed, the model sent upstream is one
that the chosen provider serves, and no alias. -/
def ServesModel (cfg : Config) (routing : RoutingConfig) (name : String) : Prop :=
  ∀ r hs now st draw req p d, newRouter (buildProviders cfg).registry routing cfg.providers = .ok r →
    req.model = name → (r.route hs now st draw (some req)).1 = .ok (p, d) →
    d.model ∈ p.models ∧ d.model ∉ (buildProviders cfg).registry.aliases

/-- No candidate of the group is an alias, or the name is no alias of an alias. -/
def NoAliasSent (registry : Registry) (routing : RoutingConfig) (name : String) : Prop :=
  match routing.modelGroups.lookup name with
  | some g => ∀ c ∈ g.candidates, c.model ∉ registry.aliases
  | none => registry.canonicalModel name ∉ registry.aliases

variable {registry : Registry} {cfg routing : RoutingConfig} {name : String}

theorem NoAliasSent.sameGroups (none : NoAliasSent registry cfg name) (same : cfg.SameGroups routing) :
    NoAliasSent registry routing name := by
  have pairs := same name
  unfold NoAliasSent at none ⊢
  cases here : routing.modelGroups.lookup name with
  | none =>
    rw [here, Option.map_none] at pairs
    rw [Option.map_eq_none_iff.mp pairs.symm] at none
    exact none
  | some g' =>
    rw [here, Option.map_some] at pairs
    obtain ⟨g, there, equal⟩ := Option.map_eq_some_iff.mp pairs.symm
    rw [there] at none
    intro c member
    have listed : (c.provider, c.model) ∈ g.pairs := equal ▸ List.mem_map.mpr ⟨c, member, rfl⟩
    obtain ⟨c', member', both⟩ := List.mem_map.mp listed
    have model : c'.model = c.model := congrArg Prod.snd both
    exact model ▸ none c' member'

/-- What resolves without an alias is served by its provider. -/
theorem Registry.Sound.served_of_resolution (sound : registry.Sound) (none : NoAliasSent registry routing name)
    {pairs : List (Provider × String)} (resolved : resolution registry routing name = some pairs) {p : Provider}
    {model : String} (member : (p, model) ∈ pairs) : model ∈ p.models ∧ model ∉ registry.aliases := by
  unfold resolution at resolved
  unfold NoAliasSent at none
  split at resolved
  · rename_i g found
    rw [found] at none
    cases resolved
    obtain ⟨c, inside, shown⟩ := List.mem_filterMap.mp member
    obtain ⟨q, registered, both⟩ := Option.map_eq_some_iff.mp shown
    cases both
    exact ⟨sound.served _ _ registered (none c inside), none c inside⟩
  · rename_i missing
    rw [missing] at none
    obtain ⟨q, registered, rfl⟩ := Option.map_eq_some_iff.mp resolved
    cases List.mem_singleton.mp member
    refine ⟨?_, none⟩
    unfold Registry.canonicalModel at none ⊢
    cases aliased : registry.aliases.lookup name with
    | none =>
      rw [aliased] at none
      exact sound.served name p registered none
    | some target =>
      rw [aliased] at none
      obtain ⟨q, atTarget, atName⟩ := sound.targets name target aliased
      rw [registered] at atName
      cases atName
      exact sound.served target p atTarget none

/-- A name that stands for an alias is an alias itself, so it is registered. -/
theorem Registry.Sound.registered_of_canonical (sound : registry.Sound)
    (aliased : registry.canonicalModel name ∈ registry.aliases) : ∃ p, registry.models.lookup name = some p := by
  cases atName : registry.aliases.lookup name with
  | some target =>
    obtain ⟨p, _, registered⟩ := sound.targets _ _ atName
    exact ⟨p, registered⟩
  | none =>
    rw [Registry.canonicalModel, atName] at aliased
    exact absurd aliased (AList.lookup_eq_none.mp atName)

/-- For fixed providers, aliases and groups, the model name that reaches the
provider is right under every strategy, price, breaker and strategy state if
and only if no alias is sent for the requested name. -/
theorem serves_model_iff (cfg : Config) (name : String) {r : Router}
    (accepted : newRouter (buildProviders cfg).registry cfg.routing cfg.providers = .ok r) :
    (∀ routing, cfg.routing.SameGroups routing → ServesModel cfg routing name) ↔
      NoAliasSent (buildProviders cfg).registry cfg.routing name := by
  have sound := buildProviders_sound cfg
  constructor
  · intro serves
    unfold NoAliasSent
    cases found : cfg.routing.modelGroups.lookup name with
    | some g =>
      intro entry member aliased
      obtain ⟨target, atAlias⟩ := Option.isSome_iff_exists.mp (AList.lookup_isSome.mpr aliased)
      obtain ⟨p, _, registered⟩ := sound.targets _ _ atAlias
      obtain ⟨r', accepted'⟩ := newRouter_prefer accepted entry.model
      obtain ⟨d, out, _, model⟩ := route_prefer accepted' found member rfl registered
      have served := serves _ (sameGroups_prefer _ entry.model) r' _ _ _ _ _ p d accepted' rfl out
      exact served.2 (model ▸ aliased)
    | none =>
      intro aliased
      obtain ⟨p, registered⟩ := sound.registered_of_canonical aliased
      obtain ⟨d, out, model⟩ := route_registered accepted found registered
      have served := serves cfg.routing (fun _ => rfl) r _ _ _ _ _ p d accepted rfl out
      exact served.2 (model ▸ aliased)
  · rintro none routing same r' hs now st draw req p d accepted' rfl out
    obtain ⟨pairs, resolved, member, _⟩ := route_ok _ _ _ _ _ (Router.holds_of_newRouter accepted') out
    exact sound.served_of_resolution (none.sameGroups same) resolved member

/-- `quick` is an alias of the alias `fast`. -/
def chainedAliases : Config :=
  { Config.zero with
    providers := AList.singleton "openai" ⟨"sk", "", 0, ["gpt-4o"], 0, 0⟩
    modelAliases := (AList.singleton "fast" "gpt-4o").insert "quick" "fast"
    routing := ⟨"priority", 3, ∅, ∅⟩ }

theorem serves_model_chainedAliases :
    (buildProviders chainedAliases).registry.canonicalModel "fast" ∉ (buildProviders chainedAliases).registry.aliases ∧
      ServesModel chainedAliases chainedAliases.routing "fast" := by
  have accepted : newRouter (buildProviders chainedAliases).registry chainedAliases.routing chainedAliases.providers =
      .ok _ := rfl
  have none : (buildProviders chainedAliases).registry.canonicalModel "fast" ∉
      (buildProviders chainedAliases).registry.aliases := by decide
  exact ⟨none, (serves_model_iff chainedAliases "fast" accepted).mpr none chainedAliases.routing fun _ => rfl⟩

/-- The router resolves one step of the chain and sends `fast` upstream. -/
theorem alias_of_alias_sent : ¬ServesModel chainedAliases chainedAliases.routing "quick" := by
  intro serves
  have out := serves _ (fun _ => newProviderHealth ⟨0, 0⟩) 0 .fresh 0 ⟨"quick", [], none⟩
    ⟨"openai", ["gpt-4o"], some ⟨0, 0, 0⟩⟩ ⟨"openai", "fast", "priority", ""⟩ rfl rfl rfl
  exact absurd out.1 (by decide)

end LlmGateway
