import Mathlib.Data.List.Induction
import LlmGateway.Provider.Build

namespace LlmGateway

abbrev ProviderEntry := Sigma fun _ : String => ProviderConfig

/-- `buildProviders` registers the provider of the entry. -/
def Enabled (e : ProviderEntry) : Prop := e.2.apiKey ≠ "" ∧ e.1 ∈ adapterNames

/-- The loop of `buildProviders` over the providers, in the order given. It ranges over
a Go map, so each start of the process may see them in another order. -/
def buildAll (entries : List ProviderEntry) : BuiltProviders :=
  entries.foldl (fun built e => buildProvider built e.1 e.2) ⟨.empty, ∅⟩

/-- The provider that is built from the entry after the others. -/
def wrapped (built : BuiltProviders) (e : ProviderEntry) : Provider :=
  ⟨e.1, e.2.models, some ⟨built.healthProviders.entries.length, e.2.maxRetries, e.2.retryBackoff⟩⟩

/-- The provider without its breaker and retry settings. -/
def Provider.bare (p : Provider) : Provider := { p with tracking := none }

section Build

variable {entries : List ProviderEntry} {e : ProviderEntry} {m : String} {p : Provider}

theorem buildAll_concat (entries : List ProviderEntry) (e : ProviderEntry) :
    buildAll (entries ++ [e]) = buildProvider (buildAll entries) e.1 e.2 := by
  simp [buildAll]

theorem buildProvider_of_enabled (built : BuiltProviders) (enabled : Enabled e) :
    buildProvider built e.1 e.2 = ⟨built.registry.register (wrapped built e) e.2.models,
      built.healthProviders.insert e.1 (wrapped built e)⟩ := by
  rw [buildProvider, if_neg enabled.1, if_neg (not_not.mpr enabled.2)]
  rfl

theorem buildProvider_of_disabled (built : BuiltProviders) (disabled : ¬Enabled e) :
    buildProvider built e.1 e.2 = built := by
  unfold buildProvider
  split
  · rfl
  · split
    · rfl
    · rename_i keyed known
      exact absurd ⟨keyed, not_not.mp known⟩ disabled

/-- The last entry that lists a model gets it. -/
theorem lookup_buildAll_last (entries : List ProviderEntry) (enabled : Enabled e) (listed : m ∈ e.2.models) :
    (buildAll (entries ++ [e])).registry.models.lookup m = some (wrapped (buildAll entries) e) := by
  rw [buildAll_concat, buildProvider_of_enabled _ enabled, Registry.lookup_register, if_pos listed]

theorem exists_lookup_buildAll (member : e ∈ entries) (enabled : Enabled e) (listed : m ∈ e.2.models) :
    ∃ p, (buildAll entries).registry.models.lookup m = some p := by
  induction entries using List.reverseRecOn with
  | nil => cases member
  | append_singleton entries last ih =>
    by_cases working : Enabled last
    · by_cases here : m ∈ last.2.models
      · exact ⟨_, lookup_buildAll_last entries working here⟩
      · rcases List.mem_append.mp member with old | new
        · obtain ⟨p, found⟩ := ih old
          rw [buildAll_concat, buildProvider_of_enabled _ working, Registry.lookup_register, if_neg here]
          exact ⟨p, found⟩
        · cases List.mem_singleton.mp new
          exact absurd listed here
    · rcases List.mem_append.mp member with old | new
      · rw [buildAll_concat, buildProvider_of_disabled _ working]
        exact ih old
      · cases List.mem_singleton.mp new
        exact absurd enabled working

/-- A registered model belongs to an enabled entry that lists it, and the
provider is the one known under the name of the entry. -/
theorem of_lookup_buildAll (distinct : entries.NodupKeys)
    (found : (buildAll entries).registry.models.lookup m = some p) :
    ∃ e ∈ entries, Enabled e ∧ m ∈ e.2.models ∧ p.name = e.1 ∧ p.models = e.2.models ∧
      (buildAll entries).healthProviders.lookup e.1 = some p := by
  induction entries using List.reverseRecOn with
  | nil => cases found
  | append_singleton entries last ih =>
    have earlier : entries.NodupKeys := distinct.sublist (List.sublist_append_left _ _)
    by_cases working : Enabled last
    · by_cases here : m ∈ last.2.models
      · rw [lookup_buildAll_last entries working here] at found
        cases found
        refine ⟨last, List.mem_append_right _ List.mem_cons_self, working, here, rfl, rfl, ?_⟩
        rw [buildAll_concat, buildProvider_of_enabled _ working]
        exact AList.lookup_insert _
      · rw [buildAll_concat, buildProvider_of_enabled _ working, Registry.lookup_register, if_neg here] at found
        obtain ⟨e, member, enabled, listed, name, models, known⟩ := ih earlier found
        have apart : e.1 ≠ last.1 := by
          rw [List.NodupKeys, List.keys, List.map_append, List.nodup_append] at distinct
          exact distinct.2.2 _ (List.mem_map_of_mem member) _ (List.mem_singleton_self _)
        refine ⟨e, List.mem_append_left _ member, enabled, listed, name, models, ?_⟩
        rw [buildAll_concat, buildProvider_of_enabled _ working, AList.lookup_insert_ne apart]
        exact known
    · rw [buildAll_concat, buildProvider_of_disabled _ working] at found ⊢
      obtain ⟨e, member, rest⟩ := ih earlier found
      exact ⟨e, List.mem_append_left _ member, rest⟩

/-- No two enabled providers list the same model. -/
def Config.Unshared (cfg : Config) : Prop :=
  ∀ e ∈ cfg.providers.entries, ∀ e' ∈ cfg.providers.entries, Enabled e → Enabled e' →
    ∀ m, m ∈ e.2.models → m ∈ e'.2.models → e.1 = e'.1

/-- The configuration as another start of the process iterates over it. -/
def Config.Reordered (cfg : Config) (providers : StringMap ProviderConfig) : Prop :=
  providers.entries.Perm cfg.providers.entries

end Build

namespace Registry

variable {α : Type} {view view' : Provider → α} {r r' : Registry}

/-- The registries hold the same aliases and, as far as the views tell, the same
providers under the same names. -/
structure Alike (view view' : Provider → α) (r r' : Registry) : Prop where
  models : ∀ name, (r.models.lookup name).map view = (r'.models.lookup name).map view'
  aliases : r.aliases = r'.aliases

theorem Alike.mem (alike : Alike view view' r r') (name : String) : name ∈ r.models ↔ name ∈ r'.models := by
  have both := congrArg Option.isSome (alike.models name)
  rw [Option.isSome_map, Option.isSome_map] at both
  rw [← AList.lookup_isSome, ← AList.lookup_isSome, both]

theorem Alike.insert (alike : Alike view view' r r') {p p' : Provider} (same : view p = view' p')
    (aliasName target : String) :
    Alike view view' ⟨r.models.insert aliasName p, r.aliases.insert aliasName target⟩
      ⟨r'.models.insert aliasName p', r'.aliases.insert aliasName target⟩ where
  models := by
    intro name
    by_cases here : name = aliasName
    · subst here
      rw [AList.lookup_insert, AList.lookup_insert, Option.map_some, Option.map_some, same]
    · rw [AList.lookup_insert_ne here, AList.lookup_insert_ne here, alike.models name]
  aliases := by rw [alike.aliases]

theorem Alike.buildAlias (alike : Alike view view' r r') (aliases : StringMap String) (aliasName : String) :
    Alike view view' (buildAlias aliases r aliasName) (buildAlias aliases r' aliasName) := by
  unfold LlmGateway.buildAlias
  cases aliases.lookup aliasName with
  | none => exact alike
  | some target =>
    dsimp only
    unfold Registry.registerAlias
    by_cases taken : aliasName ∈ r.models
    · rw [if_pos taken, if_pos ((alike.mem aliasName).mp taken)]
      exact alike
    · rw [if_neg taken, if_neg (taken ∘ (alike.mem aliasName).mpr)]
      have both := alike.models target
      cases found : r.models.lookup target with
      | none =>
        rw [found] at both
        rw [Option.map_eq_none_iff.mp both.symm]
        exact alike
      | some p =>
        rw [found] at both
        obtain ⟨p', found', same⟩ := Option.map_eq_some_iff.mp both.symm
        rw [found']
        exact alike.insert same.symm aliasName target

theorem Alike.buildAliases (alike : Alike view view' r r') (aliases : StringMap String) (names : List String) :
    Alike view view' (names.foldl (LlmGateway.buildAlias aliases) r)
      (names.foldl (LlmGateway.buildAlias aliases) r') := by
  induction names generalizing r r' with
  | nil => exact alike
  | cons name names ih => exact ih (alike.buildAlias aliases name)

/-- Aliases leave registered names alone. -/
theorem lookup_buildAlias {m : String} {p : Provider} (found : r.models.lookup m = some p) (aliases : StringMap String)
    (aliasName : String) : (LlmGateway.buildAlias aliases r aliasName).models.lookup m = some p := by
  rcases r.buildAlias_cases aliases aliasName with same | ⟨new, _, _, _, done⟩
  · rw [same]
    exact found
  · rw [done]
    exact (AList.lookup_insert_ne (ne_of_lookup found new)).trans found

theorem lookup_buildAliases {m : String} {p : Provider} (found : r.models.lookup m = some p)
    (aliases : StringMap String) (names : List String) :
    (names.foldl (LlmGateway.buildAlias aliases) r).models.lookup m = some p := by
  induction names generalizing r with
  | nil => exact found
  | cons name names ih => exact ih (lookup_buildAlias found aliases name)

end Registry

section Orders

variable {cfg : Config} {m m' : StringMap ProviderConfig}

theorem aliases_buildAll (entries : List ProviderEntry) : (buildAll entries).registry.aliases = ∅ := by
  induction entries using List.reverseRecOn with
  | nil => rfl
  | append_singleton entries e ih =>
    rw [buildAll_concat]
    by_cases enabled : Enabled e
    · rw [buildProvider_of_enabled _ enabled]
      exact ih
    · rw [buildProvider_of_disabled _ enabled]
      exact ih

theorem Config.Reordered.mem (order : cfg.Reordered m) {e : ProviderEntry} :
    e ∈ m.entries ↔ e ∈ cfg.providers.entries := List.Perm.mem_iff order

/-- A model that is not shared has the same provider in every order. -/
theorem Config.Unshared.provider (unshared : cfg.Unshared) (order : cfg.Reordered m) (order' : cfg.Reordered m')
    {name : String} {p : Provider} (found : (buildAll m.entries).registry.models.lookup name = some p) :
    ∃ p', (buildAll m'.entries).registry.models.lookup name = some p' ∧ p'.bare = p.bare ∧
      (buildAll m.entries).healthProviders.lookup p.name = some p ∧
      (buildAll m'.entries).healthProviders.lookup p.name = some p' := by
  obtain ⟨e, member, enabled, listed, named, models, known⟩ := of_lookup_buildAll m.nodupKeys found
  have inside := order.mem.mp member
  obtain ⟨p', found'⟩ := exists_lookup_buildAll (order'.mem.mpr inside) enabled listed
  obtain ⟨e', member', enabled', listed', named', models', known'⟩ := of_lookup_buildAll m'.nodupKeys found'
  have inside' := order'.mem.mp member'
  have same : e = e' := cfg.providers.nodupKeys.eq_of_fst_eq inside inside'
    (unshared e inside e' inside' enabled enabled' name listed listed')
  subst same
  refine ⟨p', found', ?_, named ▸ known, named ▸ known'⟩
  rw [Provider.bare, Provider.bare, named, named', models, models']

/-- A view that depends on the provider known under a name only through what
the order leaves alone. -/
theorem Config.Unshared.alike {α : Type} {view view' : Provider → α} (unshared : cfg.Unshared)
    (order : cfg.Reordered m) (order' : cfg.Reordered m')
    (agree : ∀ p p', p'.bare = p.bare → (buildAll m.entries).healthProviders.lookup p.name = some p →
      (buildAll m'.entries).healthProviders.lookup p.name = some p' → view p = view' p') :
    Registry.Alike view view' (buildProviders { cfg with providers := m }).registry
      (buildProviders { cfg with providers := m' }).registry := by
  refine Registry.Alike.buildAliases ⟨fun name => ?_, ?_⟩ _ _
  · change ((buildAll m.entries).registry.models.lookup name).map view =
      ((buildAll m'.entries).registry.models.lookup name).map view'
    cases found : (buildAll m.entries).registry.models.lookup name with
    | some p =>
      obtain ⟨p', found', bare, known, known'⟩ := unshared.provider order order' found
      rw [found', Option.map_some, Option.map_some, agree p p' bare known known']
    | none =>
      cases found' : (buildAll m'.entries).registry.models.lookup name with
      | none => rfl
      | some p' =>
        obtain ⟨p, back, _⟩ := unshared.provider order' order found'
        cases found.symm.trans back
  · exact (aliases_buildAll _).trans (aliases_buildAll _).symm

/-- Some order puts an entry last. -/
theorem Config.exists_last {e : ProviderEntry} (member : e ∈ cfg.providers.entries) :
    ∃ (m : StringMap ProviderConfig) (others : List ProviderEntry), cfg.Reordered m ∧ m.entries = others ++ [e] := by
  obtain ⟨before, rest, split⟩ := List.append_of_mem member
  have moved : (before ++ rest ++ [e]).Perm cfg.providers.entries := by
    rw [split, List.append_assoc]
    exact (List.perm_append_comm).append_left before
  exact ⟨⟨before ++ rest ++ [e], (List.perm_nodupKeys moved).mpr cfg.providers.nodupKeys⟩, before ++ rest, moved, rfl⟩

/-- What an entry lists is its own when it comes last. -/
theorem lookup_of_last (cfg : Config) {e : ProviderEntry} {others : List ProviderEntry}
    (last : m.entries = others ++ [e]) (enabled : Enabled e) {name : String} (listed : name ∈ e.2.models) :
    ∃ p, (buildProviders { cfg with providers := m }).registry.models.lookup name = some p ∧ p.name = e.1 := by
  refine ⟨wrapped (buildAll others) e, ?_, rfl⟩
  refine Registry.lookup_buildAliases ?_ _ _
  change (buildAll m.entries).registry.models.lookup name = _
  rw [last, lookup_buildAll_last others enabled listed]

end Orders

end LlmGateway
