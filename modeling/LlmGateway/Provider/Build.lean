import LlmGateway.Provider.Registry

namespace LlmGateway

/-- The names `buildProviders` has an adapter for. Each adapter reports the
name it is configured under and the models it is configured with. -/
def adapterNames : List String := ["openai", "anthropic", "google"]

/-- The registry and the health-tracked providers by name. -/
structure BuiltProviders where
  registry : Registry
  healthProviders : StringMap Provider

/-- One iteration over `cfg.Providers`. The breaker of a new provider gets the
next free address. -/
def buildProvider (built : BuiltProviders) (name : String) (cfg : ProviderConfig) : BuiltProviders :=
  if cfg.apiKey = "" then built
  else if name ∉ adapterNames then built
  else
    let wrapped : Provider :=
      ⟨name, cfg.models, some ⟨built.healthProviders.entries.length, cfg.maxRetries, cfg.retryBackoff⟩⟩
    ⟨built.registry.register wrapped wrapped.models, built.healthProviders.insert name wrapped⟩

/-- An alias that cannot be registered is skipped. -/
def buildAlias (aliases : StringMap String) (registry : Registry) (aliasName : String) : Registry :=
  match aliases.lookup aliasName with
  | none => registry
  | some target =>
    match registry.registerAlias aliasName target with
    | .ok registry => registry
    | .error _ => registry

def buildProviders (cfg : Config) : BuiltProviders :=
  let built := cfg.providers.entries.foldl (fun built e => buildProvider built e.1 e.2) ⟨.empty, ∅⟩
  let aliasKeys := cfg.modelAliases.keys.insertionSort (· ≤ ·)
  { built with registry := aliasKeys.foldl (buildAlias cfg.modelAliases) built.registry }

/-- A name is either a model its provider serves or an alias of a name with the
same provider, and no alias is a model that some provider serves. -/
structure Registry.Sound (r : Registry) : Prop where
  served : ∀ name p, r.models.lookup name = some p → name ∉ r.aliases → name ∈ p.models
  targets : ∀ name target, r.aliases.lookup name = some target →
    ∃ p, r.models.lookup target = some p ∧ r.models.lookup name = some p

theorem Registry.lookup_register {r : Registry} {p : Provider} (models : List String) (name : String) :
    (r.register p models).models.lookup name = if name ∈ models then some p else r.models.lookup name := by
  unfold register
  induction models generalizing r with
  | nil => simp
  | cons m models ih =>
    have step := @ih { r with models := r.models.insert m p }
    simp only [List.foldl_cons] at step ⊢
    rw [step]
    by_cases later : name ∈ models
    · simp [later]
    · by_cases same : name = m
      · subst same
        simp [later, AList.lookup_insert]
      · simp [later, same, AList.lookup_insert_ne same]

/-- Without aliases a name belongs to the provider registered for it last. -/
structure Registry.Plain (r : Registry) : Prop where
  served : ∀ name p, r.models.lookup name = some p → name ∈ p.models
  aliases : r.aliases = ∅

theorem Registry.Plain.register {r : Registry} (plain : r.Plain) (p : Provider) : (r.register p p.models).Plain where
  served := by
    intro name q found
    rw [lookup_register] at found
    split at found
    · cases found
      assumption
    · exact plain.served name q found
  aliases := plain.aliases

theorem Registry.Plain.buildProvider {built : BuiltProviders} (plain : built.registry.Plain) (name : String)
    (cfg : ProviderConfig) : (buildProvider built name cfg).registry.Plain := by
  unfold LlmGateway.buildProvider
  split
  · exact plain
  · split
    · exact plain
    · exact plain.register _

theorem Registry.Plain.sound {r : Registry} (plain : r.Plain) : r.Sound where
  served := fun name p found _ => plain.served name p found
  targets := by
    intro name target found
    rw [plain.aliases] at found
    cases found

theorem Registry.ne_of_lookup {r : Registry} {m name : String} {p : Provider} (found : r.models.lookup m = some p)
    (new : name ∉ r.models) : m ≠ name := by
  rintro rfl
  exact new (AList.lookup_isSome.mp (by rw [found]; rfl))

/-- The two ways through `RegisterAlias`. -/
theorem Registry.registerAlias_cases (r : Registry) (aliasName target : String) :
    (∃ e, r.registerAlias aliasName target = .error e) ∨
      (aliasName ∉ r.models ∧ ∃ p, r.models.lookup target = some p ∧
        r.registerAlias aliasName target =
          .ok { models := r.models.insert aliasName p, aliases := r.aliases.insert aliasName target }) := by
  unfold registerAlias
  by_cases taken : aliasName ∈ r.models
  · exact Or.inl ⟨_, if_pos taken⟩
  · rw [if_neg taken]
    cases found : r.models.lookup target with
    | none => exact Or.inl ⟨_, rfl⟩
    | some p => exact Or.inr ⟨taken, p, rfl, rfl⟩

/-- An alias that cannot be registered is left out. -/
theorem Registry.buildAlias_cases (r : Registry) (aliases : StringMap String) (aliasName : String) :
    buildAlias aliases r aliasName = r ∨
      (aliasName ∉ r.models ∧ ∃ target p, r.models.lookup target = some p ∧
        buildAlias aliases r aliasName =
          { models := r.models.insert aliasName p, aliases := r.aliases.insert aliasName target }) := by
  unfold buildAlias
  cases aliases.lookup aliasName with
  | none => exact Or.inl rfl
  | some target =>
    dsimp only
    rcases r.registerAlias_cases aliasName target with ⟨e, failed⟩ | ⟨new, p, found, done⟩
    · rw [failed]
      exact Or.inl rfl
    · rw [done]
      exact Or.inr ⟨new, target, p, found, rfl⟩

theorem Registry.Sound.buildAlias {r : Registry} (sound : r.Sound) (aliases : StringMap String)
    (aliasName : String) :
    (buildAlias aliases r aliasName).Sound := by
  rcases r.buildAlias_cases aliases aliasName with same | ⟨new, target, p, found, done⟩
  · rw [same]
    exact sound
  · rw [done]
    refine ⟨?_, ?_⟩
    · intro name q held unaliased
      have other : name ≠ aliasName := fun same => unaliased ((AList.mem_insert _).mpr (Or.inl same))
      rw [AList.lookup_insert_ne other] at held
      exact sound.served name q held fun old => unaliased ((AList.mem_insert _).mpr (Or.inr old))
    · intro name t held
      by_cases same : name = aliasName
      · subst same
        rw [AList.lookup_insert] at held
        cases held
        exact ⟨p, (AList.lookup_insert_ne (ne_of_lookup found new)).trans found, AList.lookup_insert _⟩
      · rw [AList.lookup_insert_ne same] at held
        obtain ⟨q, atTarget, atName⟩ := sound.targets name t held
        exact ⟨q, (AList.lookup_insert_ne (ne_of_lookup atTarget new)).trans atTarget,
          (AList.lookup_insert_ne same).trans atName⟩

theorem buildProviders_sound (cfg : Config) : (buildProviders cfg).registry.Sound := by
  have plain : ∀ entries : List (Sigma fun _ : String => ProviderConfig), ∀ built : BuiltProviders,
      built.registry.Plain →
        (entries.foldl (fun built e => buildProvider built e.1 e.2) built).registry.Plain := by
    intro entries
    induction entries with
    | nil => exact fun _ plain => plain
    | cons e entries ih => exact fun built plain => ih _ (plain.buildProvider e.1 e.2)
  have start : (⟨.empty, ∅⟩ : BuiltProviders).registry.Plain := ⟨nofun, rfl⟩
  have sound : ∀ names : List String, ∀ r : Registry, r.Sound →
      (names.foldl (buildAlias cfg.modelAliases) r).Sound := by
    intro names
    induction names with
    | nil => exact fun _ sound => sound
    | cons name names ih => exact fun r sound => ih _ (sound.buildAlias _ name)
  exact sound _ _ (plain _ _ start).sound

end LlmGateway
