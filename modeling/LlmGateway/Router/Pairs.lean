import LlmGateway.Provider.Build
import LlmGateway.Router.Groups

namespace LlmGateway

/-- Whenever a request for the group is routed, the group has an entry for the
chosen provider and model, and that provider's breaker admitted the call. -/
def HonoursPairs (cfg : Config) (routing : RoutingConfig) (name : String) : Prop :=
  ∀ r hs now st draw req p d g, newRouter (buildProviders cfg).registry routing cfg.providers = .ok r →
    routing.modelGroups.lookup name = some g → req.model = name →
    (r.route hs now st draw (some req)).1 = .ok (p, d) →
    (∃ c ∈ g.candidates, c.provider = d.provider ∧ c.model = d.model) ∧ d.provider = p.name ∧
      hs.admits now p = true

/-- The provider that a candidate's model is registered for is one that the
group lists with that model. -/
def PairsResolve (registry : Registry) (g : ModelGroupConfig) : Prop :=
  ∀ c ∈ g.candidates, ∀ p, registry.models.lookup c.model = some p → (p.name, c.model) ∈ g.pairs

theorem ModelGroupConfig.mem_pairs {g : ModelGroupConfig} {x : String × String} :
    x ∈ g.pairs ↔ ∃ c ∈ g.candidates, c.provider = x.1 ∧ c.model = x.2 := by
  simp only [pairs, List.mem_map, Prod.ext_iff]

/-- For fixed providers and groups, a group's entries are honoured as (provider,
model) pairs under every strategy, price, breaker and strategy state if and only
if each entry's model is registered for a provider that the group lists with it. -/
theorem honours_pairs_iff (cfg : Config) {name : String} {r : Router} {g : ModelGroupConfig}
    (accepted : newRouter (buildProviders cfg).registry cfg.routing cfg.providers = .ok r)
    (found : cfg.routing.modelGroups.lookup name = some g) :
    (∀ routing, cfg.routing.SameGroups routing → HonoursPairs cfg routing name) ↔
      PairsResolve (buildProviders cfg).registry g := by
  constructor
  · intro honours entry member p registered
    obtain ⟨r', accepted'⟩ := newRouter_prefer accepted entry.model
    obtain ⟨d, out, provider, model⟩ := route_prefer accepted' found member rfl registered
    have grouped : (cfg.routing.prefer entry.model).modelGroups.lookup name = some (g.prefer entry.model) := by
      rw [lookup_prefer, found]
      rfl
    have same := sameGroups_prefer cfg.routing entry.model
    obtain ⟨listed, _⟩ := honours _ same r' _ _ _ _ _ p d _ accepted' grouped rfl out
    have pairs : (g.prefer entry.model).pairs = g.pairs := by
      have both := same name
      rw [grouped, found] at both
      exact Option.some.inj both
    have listedPair : (d.provider, d.model) ∈ (g.prefer entry.model).pairs := ModelGroupConfig.mem_pairs.mpr listed
    rwa [pairs, provider, model] at listedPair
  · rintro resolves routing same r' hs now st draw req p d g' accepted' here rfl out
    have pairs : g'.pairs = g.pairs := by
      have both := same req.model
      rw [here, found] at both
      exact Option.some.inj both
    have holds := Router.holds_of_newRouter accepted'
    obtain ⟨all, resolved, member, admitted, provider⟩ := route_ok _ _ _ _ _ holds out
    refine ⟨?_, provider, admitted⟩
    rw [resolution, here] at resolved
    cases resolved
    obtain ⟨c, inside, shown⟩ := List.mem_filterMap.mp member
    obtain ⟨q, registered, both⟩ := Option.map_eq_some_iff.mp shown
    obtain ⟨rfl, sent⟩ := Prod.mk.inj both
    have listed : (c.provider, c.model) ∈ g.pairs := pairs ▸ List.mem_map.mpr ⟨c, inside, rfl⟩
    obtain ⟨original, originalMember, _, model⟩ := ModelGroupConfig.mem_pairs.mp listed
    have own := resolves original originalMember q (model ▸ registered)
    rw [model, ← pairs] at own
    rw [provider, ← sent]
    exact ModelGroupConfig.mem_pairs.mp own

/-- Two providers serve `shared`; the registry keeps the one that came last. -/
def sharedModel : Config :=
  { Config.zero with
    providers := (AList.singleton "openai" ⟨"sk", "", 0, ["shared", "gpt-4o"], 0, 0⟩).insert "google"
      ⟨"sk", "", 0, ["shared"], 0, 0⟩
    routing := ⟨"priority", 3, (AList.singleton "pool" ⟨"", [⟨"google", "shared", 0, 0, 0, 1⟩]⟩).insert "own"
      ⟨"", [⟨"openai", "gpt-4o", 0, 0, 0, 1⟩]⟩, ∅⟩ }

theorem honours_pairs_sharedModel :
    sharedModel.routing.modelGroups.lookup "own" = some ⟨"", [⟨"openai", "gpt-4o", 0, 0, 0, 1⟩]⟩ ∧
      HonoursPairs sharedModel sharedModel.routing "own" := by
  have accepted : newRouter (buildProviders sharedModel).registry sharedModel.routing sharedModel.providers =
      .ok _ := rfl
  have found : sharedModel.routing.modelGroups.lookup "own" = some ⟨"", [⟨"openai", "gpt-4o", 0, 0, 0, 1⟩]⟩ := rfl
  refine ⟨found, (honours_pairs_iff sharedModel accepted found).mpr ?_ sharedModel.routing fun _ => rfl⟩
  rintro c member p registered
  cases List.mem_singleton.mp member
  cases registered
  exact List.mem_singleton_self _

/-- The entry asks for `google`, the request goes to `openai`. -/
theorem shared_model_misrouted : ¬HonoursPairs sharedModel sharedModel.routing "pool" := by
  intro honours
  have out := honours _ (fun _ => newProviderHealth ⟨0, 0⟩) 0 .fresh 0 ⟨"pool", [], none⟩
    ⟨"openai", ["shared", "gpt-4o"], some ⟨1, 0, 0⟩⟩ ⟨"openai", "shared", "priority", "pool"⟩ _ rfl rfl rfl rfl
  exact absurd out.1 (by decide)

end LlmGateway
