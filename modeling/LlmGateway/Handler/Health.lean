import LlmGateway.Provider.Breaker
import LlmGateway.Provider.Build
import LlmGateway.Router.Exact

namespace LlmGateway

/-- `internalHealthResponse`. -/
structure InternalHealthResponse where
  status : String
  providers : String → Option HealthStatus

/-- `p.Health.Status()`. Every provider of the handler has a breaker. -/
def Provider.status (hs : Breakers) (now : Int) (p : Provider) : Option HealthStatus :=
  (healthFor p).map fun h => (hs h).status now

/-- `HandleInternalHealth`, at one reading of the clock. -/
def handleInternalHealth (providers : StringMap Provider) (hs : Breakers) (now : Int) : InternalHealthResponse :=
  let healthyCount := providers.entries.countP fun e => (e.2.status hs now).any HealthStatus.healthy
  { status :=
      if healthyCount = providers.entries.length then "ok" else if healthyCount = 0 then "down" else "degraded"
    providers := fun name => (providers.lookup name).bind (Provider.status hs now) }

/-- Whom the registry knows, the handler knows, with a breaker; and the names still to
come are new to it. -/
structure BuiltProviders.Shown (built : BuiltProviders) (names : List String) : Prop where
  shown : ∀ model p, built.registry.models.lookup model = some p → ∃ name, built.healthProviders.lookup name = some p
  tracked : ∀ name p, built.healthProviders.lookup name = some p → (healthFor p).isSome
  new : ∀ name ∈ names, name ∉ built.healthProviders

theorem BuiltProviders.Shown.buildProvider {built : BuiltProviders} {name : String} {names : List String}
    (shown : built.Shown (name :: names)) (fresh : name ∉ names) (cfg : ProviderConfig) :
    (buildProvider built name cfg).Shown names := by
  have rest : built.Shown names :=
    { shown with new := fun other member => shown.new other (List.mem_cons_of_mem _ member) }
  unfold LlmGateway.buildProvider
  split
  · exact rest
  split
  · exact rest
  refine ⟨fun model p found => ?_, fun other p found => ?_, fun other member => ?_⟩
  · rw [Registry.lookup_register] at found
    split at found
    · cases found
      exact ⟨name, AList.lookup_insert _⟩
    · obtain ⟨other, held⟩ := shown.shown model p found
      refine ⟨other, (AList.lookup_insert_ne ?_).trans held⟩
      rintro rfl
      exact shown.new other List.mem_cons_self (AList.lookup_isSome.mp (by rw [held]; rfl))
  · by_cases same : other = name
    · subst same
      rw [AList.lookup_insert] at found
      cases found
      rfl
    · rw [AList.lookup_insert_ne same] at found
      exact shown.tracked other p found
  · rw [AList.mem_insert, not_or]
    exact ⟨fun same => fresh (same ▸ member), rest.new other member⟩

theorem BuiltProviders.Shown.foldl {entries : List (Sigma fun _ : String => ProviderConfig)}
    (distinct : entries.NodupKeys) {built : BuiltProviders} (shown : built.Shown (entries.map Sigma.fst)) :
    (entries.foldl (fun built e => LlmGateway.buildProvider built e.1 e.2) built).Shown [] := by
  induction entries generalizing built with
  | nil => exact shown
  | cons e rest ih =>
    obtain ⟨own, distinct⟩ := List.nodupKeys_cons.mp distinct
    exact ih distinct (shown.buildProvider own e.2)

/-- An alias brings no provider into the registry. -/
theorem lookup_buildAliases {aliases : StringMap String} {names : List String} {registry : Registry} {model : String}
    {p : Provider} (found : (names.foldl (buildAlias aliases) registry).models.lookup model = some p) :
    ∃ target, registry.models.lookup target = some p := by
  induction names generalizing registry model with
  | nil => exact ⟨model, found⟩
  | cons name rest ih =>
    obtain ⟨target, held⟩ := ih found
    rcases registry.buildAlias_cases aliases name with same | ⟨-, behind, q, known, done⟩
    · exact ⟨target, same ▸ held⟩
    · rw [done] at held
      by_cases here : target = name
      · subst here
        rw [AList.lookup_insert] at held
        cases held
        exact ⟨behind, known⟩
      · exact ⟨target, (AList.lookup_insert_ne here).symm.trans held⟩

theorem buildProviders_shown (cfg : Config) : (buildProviders cfg).Shown [] := by
  have start : (⟨.empty, ∅⟩ : BuiltProviders).Shown (cfg.providers.entries.map Sigma.fst) := ⟨nofun, nofun, nofun⟩
  have shown := start.foldl cfg.providers.nodupKeys
  refine { shown with shown := fun model p found => ?_ }
  obtain ⟨target, known⟩ := lookup_buildAliases found
  exact shown.shown target p known

section

variable {hs : Breakers} {now : Int} {p : Provider} {providers : StringMap Provider}

theorem status_eq_admits (tracked : (healthFor p).isSome) :
    ∃ status, p.status hs now = some status ∧ status.healthy = hs.admits now p := by
  obtain ⟨h, address⟩ := Option.isSome_iff_exists.mp tracked
  refine ⟨(hs h).status now, by rw [Provider.status, address]; rfl, ?_⟩
  rw [status_healthy, Breakers.admits, address]
  rfl

theorem status_eq_ok (ok : (handleInternalHealth providers hs now).status = "ok") :
    ∀ e ∈ providers.entries, (e.2.status hs now).any HealthStatus.healthy = true := by
  rw [handleInternalHealth] at ok
  dsimp only at ok
  split at ok
  · rename_i all
    exact List.countP_eq_length.mp all
  · split at ok <;> exact absurd ok (by decide)

theorem status_eq_down (down : (handleInternalHealth providers hs now).status = "down") :
    ∀ e ∈ providers.entries, (e.2.status hs now).any HealthStatus.healthy = false := by
  rw [handleInternalHealth] at down
  dsimp only at down
  split at down
  · exact absurd down (by decide)
  · split at down
    · rename_i none
      exact fun e member => Bool.eq_false_iff.mpr (List.countP_eq_zero.mp none e member)
    · exact absurd down (by decide)

theorem resolution_registered {registry : Registry} {cfg : RoutingConfig} {name : String}
    {pairs : List (Provider × String)} (resolved : resolution registry cfg name = some pairs)
    {x : Provider × String} (member : x ∈ pairs) :
    ∃ model, registry.models.lookup model = some x.1 := by
  unfold resolution at resolved
  split at resolved
  · cases resolved
    obtain ⟨c, -, known⟩ := List.mem_filterMap.mp member
    obtain ⟨p, found, rfl⟩ := Option.map_eq_some_iff.mp known
    exact ⟨c.model, found⟩
  · obtain ⟨p, found, rfl⟩ := Option.map_eq_some_iff.mp resolved
    obtain rfl := List.mem_singleton.mp member
    exact ⟨name, found⟩

/-- The handler counts the providers that the router admits. -/
theorem counted_eq_admits {built : BuiltProviders} (shown : built.Shown []) {model : String}
    (known : built.registry.models.lookup model = some p) :
    ∃ e ∈ built.healthProviders.entries, (e.2.status hs now).any HealthStatus.healthy = hs.admits now p := by
  obtain ⟨name, found⟩ := shown.shown model p known
  obtain ⟨status, told, healthy⟩ : ∃ status, p.status hs now = some status ∧ status.healthy = hs.admits now p :=
    status_eq_admits (shown.tracked name p found)
  refine ⟨⟨name, p⟩, (List.mem_dlookup_iff built.healthProviders.nodupKeys).mp found, ?_⟩
  simp only [told, Option.any_some, healthy]

end

/-- The endpoint tells what the router does at that moment. A provider is shown healthy
where the router admits it; while the status is "down" no request is routed, and while it
is "ok" every request that stands for some provider is. -/
theorem internal_health_truthful (cfg : Config) {r : Router}
    (accepted : newRouter (buildProviders cfg).registry cfg.routing cfg.providers = .ok r) (hs : Breakers) (now : Int) :
    (∀ name p, (buildProviders cfg).healthProviders.lookup name = some p → ∃ status,
      (handleInternalHealth (buildProviders cfg).healthProviders hs now).providers name = some status ∧
        status.healthy = hs.admits now p) ∧
      ((handleInternalHealth (buildProviders cfg).healthProviders hs now).status = "down" →
        ∀ st draw req, ∃ err, (r.route hs now st draw (some req)).1 = .error err) ∧
      ((handleInternalHealth (buildProviders cfg).healthProviders hs now).status = "ok" →
        ∀ st draw req pairs, resolution (buildProviders cfg).registry cfg.routing req.model = some pairs → pairs ≠ [] →
          ∃ p d, (r.route hs now st draw (some req)).1 = .ok (p, d)) := by
  have holds := Router.holds_of_newRouter accepted
  have shown := buildProviders_shown cfg
  refine ⟨fun name p found => ?_, fun down st draw req => ?_, fun ok st draw req pairs resolved filled => ?_⟩
  · obtain ⟨status, told, healthy⟩ := status_eq_admits (shown.tracked name p found)
    refine ⟨status, ?_, healthy⟩
    simp only [handleInternalHealth, found, Option.bind_some, told]
  · have none := status_eq_down down
    rcases route_outcome hs now st draw req holds with ⟨-, failed⟩ | ⟨-, -, -, failed⟩ |
      ⟨pairs, p, model, resolved, member, admitted, -⟩
    · exact ⟨_, failed⟩
    · exact ⟨_, failed⟩
    · obtain ⟨known, registered⟩ := resolution_registered resolved member
      obtain ⟨e, inside, counted⟩ := counted_eq_admits shown registered
      rw [none e inside, admitted] at counted
      cases counted
  · have all := status_eq_ok ok
    rcases route_outcome hs now st draw req holds with ⟨unknown, -⟩ | ⟨others, same, refused, -⟩ |
      ⟨-, p, model, -, -, -, success⟩
    · cases unknown.symm.trans resolved
    · cases same.symm.trans resolved
      obtain ⟨x, member⟩ := List.exists_mem_of_ne_nil _ filled
      obtain ⟨known, registered⟩ := resolution_registered resolved member
      obtain ⟨e, inside, counted⟩ := counted_eq_admits shown registered
      rw [all e inside, refused x member] at counted
      cases counted
    · exact ⟨p, _, success⟩

/-- One provider with one model. -/
def soleProviderConfig : Config :=
  { Config.zero with
    providers := (∅ : StringMap ProviderConfig).insert "openai" ⟨"sk", "", 0, ["gpt-4o"], 0, 0⟩
    routing := ⟨"priority", 3, ∅, ∅⟩ }

/-- Breakers that have just opened. -/
def openedBreakers : Breakers := fun _ => ((newProviderHealth ⟨1, 10⟩).recordFailure 0 none).2

theorem internal_health_truthful_down :
    (handleInternalHealth (buildProviders soleProviderConfig).healthProviders openedBreakers 5).status = "down" ∧
      ∃ r, newRouter (buildProviders soleProviderConfig).registry soleProviderConfig.routing
          soleProviderConfig.providers = .ok r ∧
        ∃ err, (r.route openedBreakers 5 .fresh 0 (some ⟨"gpt-4o", [], none⟩)).1 = .error err := by
  have down : (handleInternalHealth (buildProviders soleProviderConfig).healthProviders openedBreakers 5).status =
      "down" := rfl
  have accepted : newRouter (buildProviders soleProviderConfig).registry soleProviderConfig.routing
      soleProviderConfig.providers = .ok _ := rfl
  exact ⟨down, _, accepted, (internal_health_truthful soleProviderConfig accepted openedBreakers 5).2.1 down .fresh 0 _⟩

end LlmGateway
