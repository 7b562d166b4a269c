import LlmGateway.Router.Exact

namespace LlmGateway

/-- `provider.ModelInfo`. -/
structure ModelInfo where
  modelName : String
  providerName : String
deriving DecidableEq, Repr

/-- `ListModelDetails`. The entries come in the order of the map, which means nothing. -/
def Registry.listModelDetails (r : Registry) : List ModelInfo :=
  (r.models.entries.map fun e => ⟨e.1, e.2.name⟩).insertionSort fun a b => a.modelName ≤ b.modelName

structure ModelObject where
  id : String
  object : String
  ownedBy : String
deriving DecidableEq, Repr

structure ModelsResponse where
  object : String
  data : List ModelObject
deriving DecidableEq, Repr

/-- `HandleListModels`. -/
def handleListModels (registry : Registry) : ModelsResponse :=
  ⟨"list", registry.listModelDetails.map fun d => ⟨d.modelName, "model", d.providerName⟩⟩

theorem mem_listModelDetails {registry : Registry} {info : ModelInfo} :
    info ∈ registry.listModelDetails ↔
      ∃ p, registry.models.lookup info.modelName = some p ∧ p.name = info.providerName := by
  rw [Registry.listModelDetails, List.mem_insertionSort, List.mem_map]
  constructor
  · rintro ⟨⟨name, p⟩, inside, rfl⟩
    exact ⟨p, AList.mem_lookup_iff.mpr inside, rfl⟩
  · rintro ⟨p, found, owner⟩
    exact ⟨⟨info.modelName, p⟩, AList.mem_lookup_iff.mp found, by rw [owner]⟩

/-- The listing is in order, and no name is there twice. -/
theorem listModelDetails_sorted (registry : Registry) :
    registry.listModelDetails.Pairwise fun a b => a.modelName < b.modelName := by
  have total : Std.Total fun a b : ModelInfo => a.modelName ≤ b.modelName := ⟨fun a b => le_total _ _⟩
  have trans : IsTrans ModelInfo fun a b => a.modelName ≤ b.modelName := ⟨fun a b c => le_trans⟩
  have ordered := List.pairwise_insertionSort (fun a b : ModelInfo => a.modelName ≤ b.modelName)
    (registry.models.entries.map fun e => ⟨e.1, e.2.name⟩)
  have distinct : registry.listModelDetails.Pairwise fun a b => a.modelName ≠ b.modelName := by
    have keys := List.nodupKeys_iff_pairwise.mp registry.models.nodupKeys
    refine ((List.perm_insertionSort _ _).pairwise_iff fun apart => apart.symm).mpr ?_
    exact List.pairwise_map.mpr keys
  exact (ordered.and distinct).imp fun both => lt_of_le_of_ne both.1 both.2

theorem mem_handleListModels {registry : Registry} {m : ModelObject} :
    m ∈ (handleListModels registry).data ↔
      m.object = "model" ∧ ∃ p, registry.models.lookup m.id = some p ∧ p.name = m.ownedBy := by
  rw [handleListModels, List.mem_map]
  constructor
  · rintro ⟨info, listed, rfl⟩
    exact ⟨rfl, mem_listModelDetails.mp listed⟩
  · rintro ⟨kind, found⟩
    exact ⟨⟨m.id, m.ownedBy⟩, mem_listModelDetails.mpr found, by rw [← kind]⟩

/-- A name that is no group stands for the pair of its entry. -/
theorem resolution_of_plain {registry : Registry} {cfg : RoutingConfig} {name : String}
    (plain : name ∉ cfg.modelGroups) :
    resolution registry cfg name = (registry.models.lookup name).map fun p => [(p, registry.canonicalModel name)] := by
  rw [resolution, AList.lookup_eq_none.mpr plain]

theorem listed_iff_resolution {registry : Registry} {cfg : RoutingConfig} {name : String}
    (plain : name ∉ cfg.modelGroups) :
    (∃ m ∈ (handleListModels registry).data, m.id = name) ↔ (resolution registry cfg name).isSome := by
  rw [resolution_of_plain plain, Option.isSome_map]
  constructor
  · rintro ⟨m, listed, rfl⟩
    obtain ⟨_, p, found, _⟩ := mem_handleListModels.mp listed
    rw [found]
    rfl
  · intro registered
    obtain ⟨p, found⟩ := Option.isSome_iff_exists.mp registered
    exact ⟨⟨name, "model", p.name⟩, mem_handleListModels.mpr ⟨rfl, p, found, rfl⟩, rfl⟩

/-- The listing is the table of the registry in order, and a name that is no group is
routed iff it is listed, to the provider that it is listed under. -/
theorem listing_matches_routing {registry : Registry} {cfg : RoutingConfig} {providers : StringMap ProviderConfig}
    {r : Router} (accepted : newRouter registry cfg providers = .ok r) (hs : Breakers) (now : Int)
    (st : StrategyState) (draw : ℚ) (req : ChatCompletionRequest) (plain : req.model ∉ cfg.modelGroups) :
    (handleListModels registry).data.Pairwise (fun a b => a.id < b.id) ∧
    ((∃ m ∈ (handleListModels registry).data, m.id = req.model) ↔
      (r.route hs now st draw (some req)).1 ≠ .error .unknownModel) ∧
    ∀ m ∈ (handleListModels registry).data, m.id = req.model →
      ∀ p d, (r.route hs now st draw (some req)).1 = .ok (p, d) → d.provider = m.ownedBy := by
  have holds := Router.holds_of_newRouter accepted
  have pairs : resolution registry cfg req.model = _ := resolution_of_plain plain
  refine ⟨List.pairwise_map.mpr (listModelDetails_sorted registry), ?_, ?_⟩
  · rw [listed_iff_resolution plain]
    rcases route_outcome hs now st draw req holds with
      ⟨unknown, out⟩ | ⟨_, found, _, out⟩ | ⟨_, _, _, found, _, _, out⟩
    · simp [unknown, out]
    · simp [found, out]
    · simp [found, out]
  · intro m listed same p d out
    obtain ⟨_, q, found, owner⟩ := mem_handleListModels.mp listed
    obtain ⟨_, resolved, member, _, name⟩ := route_ok hs now st draw req holds out
    rw [pairs, ← same, found] at resolved
    cases resolved
    obtain ⟨rfl, _⟩ := Prod.mk.inj (List.mem_singleton.mp member)
    rw [name, owner]

theorem listing_matches_routing_solo :
    ∃ r, newRouter (Registry.empty.register soloProvider ["gpt-4o"]) (soloRouting "fast") soloProviders = .ok r ∧
      (handleListModels (Registry.empty.register soloProvider ["gpt-4o"])).data = [⟨"gpt-4o", "model", "openai"⟩] ∧
        (r.route (fun _ => newProviderHealth ⟨0, 0⟩) 0 .fresh 0 (some ⟨"gpt-4o", [], none⟩)).1 ≠
          .error .unknownModel := by
  have accepted : newRouter (Registry.empty.register soloProvider ["gpt-4o"]) (soloRouting "fast") soloProviders =
      .ok _ := rfl
  have listing : (handleListModels (Registry.empty.register soloProvider ["gpt-4o"])).data =
      [⟨"gpt-4o", "model", "openai"⟩] := rfl
  obtain ⟨_, routed, _⟩ := listing_matches_routing accepted (fun _ => newProviderHealth ⟨0, 0⟩) 0 .fresh 0
    ⟨"gpt-4o", [], none⟩ (by decide)
  exact ⟨_, accepted, listing, routed.mp ⟨_, listing ▸ List.mem_singleton_self _, rfl⟩⟩

end LlmGateway
