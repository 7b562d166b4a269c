import LlmGateway.Config.Load
import LlmGateway.Provider.Build
import LlmGateway.Provider.Decorator

namespace LlmGateway

/-- The retry settings a health-tracked provider was built with. -/
def BuiltProviders.retryOf (built : BuiltProviders) (name : String) : Option RetryConfig :=
  ((built.healthProviders.lookup name).bind Provider.tracking).map HealthTracking.retry

/-- The provider gets an adapter. -/
def ProviderConfig.Built (p : ProviderConfig) (name : String) : Prop := p.apiKey ≠ "" ∧ name ∈ adapterNames

instance (p : ProviderConfig) (name : String) : Decidable (p.Built name) := inferInstanceAs (Decidable (_ ∧ _))

theorem retryOf_buildProvider (built : BuiltProviders) (name other : String) (p : ProviderConfig) :
    (buildProvider built name p).retryOf other =
      if other = name ∧ p.Built name then some ⟨p.maxRetries, p.retryBackoff⟩ else built.retryOf other := by
  unfold buildProvider ProviderConfig.Built
  split
  · rename_i unkeyed
    simp [unkeyed]
  · split
    · rename_i unknown
      simp [unknown]
    · rename_i keyed known
      by_cases same : other = name
      · subst same
        simp [BuiltProviders.retryOf, keyed, not_not.mp known, AList.lookup_insert]
      · simp [BuiltProviders.retryOf, same, AList.lookup_insert_ne same]

/-- What the loop over the providers leaves for a name: its own entry decides,
since no other entry has that name. -/
theorem retryOf_foldl {entries : List (Sigma fun _ : String => ProviderConfig)} (distinct : entries.NodupKeys)
    (built : BuiltProviders) (name : String) :
    (entries.foldl (fun built e => buildProvider built e.1 e.2) built).retryOf name =
      match entries.dlookup name with
      | some p => if p.Built name then some ⟨p.maxRetries, p.retryBackoff⟩ else built.retryOf name
      | none => built.retryOf name := by
  induction entries generalizing built with
  | nil => rfl
  | cons e entries ih =>
    obtain ⟨first, p⟩ := e
    obtain ⟨fresh, later⟩ := List.nodupKeys_cons.mp distinct
    rw [List.foldl_cons, ih later, retryOf_buildProvider]
    by_cases same : name = first
    · subst same
      have missing : entries.dlookup name = none := List.dlookup_eq_none.mpr fresh
      rw [missing, List.dlookup_cons_eq]
      simp
    · have apart : (⟨first, p⟩ :: entries).dlookup name = entries.dlookup name :=
        List.dlookup_cons_ne entries (⟨first, p⟩ : Sigma fun _ : String => ProviderConfig) same
      rw [apart]
      simp [same]

theorem retryOf_buildProviders (cfg : Config) (name : String) (retry : RetryConfig) :
    (buildProviders cfg).retryOf name = some retry ↔
      ∃ p, cfg.providers.lookup name = some p ∧ p.Built name ∧ retry = ⟨p.maxRetries, p.retryBackoff⟩ := by
  have folded := retryOf_foldl cfg.providers.nodupKeys ⟨.empty, ∅⟩ name
  have entry : cfg.providers.entries.dlookup name = cfg.providers.lookup name := rfl
  have nothing : BuiltProviders.retryOf ⟨.empty, ∅⟩ name = none := rfl
  rw [show (buildProviders cfg).retryOf name = _ from folded, entry, nothing]
  cases cfg.providers.lookup name with
  | none => simp
  | some p =>
    by_cases keyed : p.Built name
    · simp [keyed, eq_comm]
    · simp [keyed]

/-- Every call through a health-tracked provider returns a value or an error,
whatever the adapter does short of returning neither. -/
def CallsYield (built : BuiltProviders) : Prop :=
  ∀ name retry, built.retryOf name = some retry →
    ∀ (α : Type) (outcomes : Nat → CallResult α) (ctxDone : Nat → Option CallError),
      (∀ n, (outcomes n).Yields) →
        (chatCompletion retry outcomes ctxDone).Yields ∧ (chatCompletionStream retry outcomes ctxDone).Yields

/-- The retries read from the file and the environment decide whether every call
yields a result: `Load` does not look at them. -/
theorem calls_yield_iff {raw cfg : Config} (loaded : load (.ok raw) = .ok cfg) :
    CallsYield (buildProviders cfg) ↔
      ∀ name p, raw.providers.lookup name = some p → p.Built name → 0 ≤ p.maxRetries := by
  have filled := eq_applyDefaults_of_load loaded
  have lookups (name : String) : cfg.providers.lookup name =
      (raw.providers.lookup name).map ProviderConfig.applyDefaults := by
    rw [filled]
    exact StringMap.lookup_mapValues _ _ _
  constructor
  · intro yields name p found keyed
    have configured := (retryOf_buildProviders cfg name ⟨p.maxRetries, p.retryBackoff⟩).mpr
      ⟨p.applyDefaults, by rw [lookups, found]; rfl, keyed, rfl⟩
    by_contra negative
    have called := (yields name _ configured Unit (fun _ => ⟨some (), none⟩) (fun _ => none)
      fun _ => Or.inl rfl).1
    rw [chatCompletion_of_neg (by simpa using negative)] at called
    simp [Returned.Yields] at called
  · intro bounds name retry configured α outcomes ctxDone never
    obtain ⟨p, found, keyed, rfl⟩ := (retryOf_buildProviders cfg name retry).mp configured
    rw [lookups, Option.map_eq_some_iff] at found
    obtain ⟨p, original, rfl⟩ := found
    have bound := bounds name p original keyed
    exact ⟨chatCompletion_yields bound never, chatCompletionStream_yields bound never⟩

/-- One provider, with the given `max_retries`. -/
def retriesConfig (maxRetries : Int) : Config :=
  { Config.zero with providers := AList.singleton "openai" ⟨"sk", "", 0, ["gpt-4o"], maxRetries, 0⟩ }

theorem calls_yield_two_retries :
    ∃ cfg, load (.ok (retriesConfig 2)) = .ok cfg ∧ CallsYield (buildProviders cfg) := by
  have loaded : load (.ok (retriesConfig 2)) = .ok _ := rfl
  refine ⟨_, loaded, (calls_yield_iff loaded).mpr ?_⟩
  intro name p found _
  obtain ⟨_, same⟩ : name = "openai" ∧ p = _ := by
    simpa [retriesConfig, AList.mem_lookup_iff, eq_comm] using AList.mem_lookup_iff.mp found
  rw [same]
  decide

/-- `max_retries: -1` is loaded, the provider is built with it, and both calls
return neither a value nor an error although the adapter would have answered. -/
theorem negative_retries_yield_nothing :
    ∃ cfg, load (.ok (retriesConfig (-1))) = .ok cfg ∧
      (buildProviders cfg).retryOf "openai" = some ⟨-1, 0⟩ ∧
      chatCompletion ⟨-1, 0⟩ (fun _ => ⟨some "answer", none⟩) (fun _ => none) = ⟨none, none, [.failure none]⟩ ∧
      chatCompletionStream ⟨-1, 0⟩ (fun _ => ⟨some "channel", none⟩) (fun _ => none) =
        ⟨none, none, [.failure none]⟩ :=
  ⟨_, rfl, rfl, rfl, rfl⟩

end LlmGateway
