import LlmGateway.Lib.Transition
import LlmGateway.Provider.Build

namespace LlmGateway

/-- A call that changes a registry. -/
inductive RegistryCall where
  | register (p : Provider) (models : List String)
  | registerAlias (aliasName target : String)

namespace RegistryCall

/-- What the call returns, and the registry after it. -/
def apply (r : Registry) : RegistryCall → Except String Unit × Registry
  | .register p models => (.ok (), r.register p models)
  | .registerAlias aliasName target =>
    match r.registerAlias aliasName target with
    | .ok r => (.ok (), r)
    | .error e => (.error e, r)

/-- `Register` gives an alias and its target the same provider: it names both
or neither, or the provider they already have. `RegisterAlias` does not point
at another alias. -/
def Keeps (r : Registry) : RegistryCall → Prop
  | .register p models => ∀ aliasName target, r.aliases.lookup aliasName = some target →
      (aliasName ∈ models ↔ target ∈ models) ∨ r.models.lookup aliasName = some p
  | .registerAlias aliasName target => (r.registerAlias aliasName target).isOk → target ∉ r.aliases

theorem apply_error {r : Registry} {call : RegistryCall} {e : String} (failed : (call.apply r).1 = .error e) :
    (call.apply r).2 = r := by
  cases call with
  | register => cases failed
  | registerAlias aliasName target =>
    simp only [apply] at failed ⊢
    split at failed
    · cases failed
    · rfl

end RegistryCall

namespace Registry

variable {r : Registry} {p : Provider} {aliasName target name : String}

/-- The registry after the calls. -/
def after (r : Registry) (calls : List RegistryCall) : Registry :=
  calls.foldl (fun r call => (call.apply r).2) r

theorem after_concat (r : Registry) (calls : List RegistryCall) (call : RegistryCall) :
    r.after (calls ++ [call]) = (call.apply (r.after calls)).2 := by
  simp [after]

/-- A name and its canonical name resolve to the same provider, and the
canonical name is its own. -/
def Consistent (r : Registry) : Prop :=
  ∀ name p, r.resolve name = .ok p →
    r.resolve (r.canonicalModel name) = .ok p ∧
      r.canonicalModel (r.canonicalModel name) = r.canonicalModel name

/-- What the calls keep whatever they are: every alias is also in the map of
models, and no alias is its own target. -/
structure Formed (r : Registry) : Prop where
  listed : ∀ aliasName ∈ r.aliases, aliasName ∈ r.models
  proper : ∀ aliasName target, r.aliases.lookup aliasName = some target → aliasName ≠ target

theorem resolve_eq_ok : r.resolve name = .ok p ↔ r.models.lookup name = some p := by
  unfold resolve
  split <;> rename_i found <;> simp [found]

theorem canonicalModel_of_notMem (plain : name ∉ r.aliases) : r.canonicalModel name = name := by
  rw [canonicalModel, AList.lookup_eq_none.mpr plain]
  rfl

theorem canonicalModel_of_lookup (held : r.aliases.lookup aliasName = some target) :
    r.canonicalModel aliasName = target := by
  rw [canonicalModel, held]
  rfl

theorem Formed.found (formed : r.Formed) (held : r.aliases.lookup aliasName = some target) :
    ∃ p, r.models.lookup aliasName = some p :=
  Option.isSome_iff_exists.mp (AList.lookup_isSome.mpr
    (formed.listed aliasName (AList.lookup_isSome.mp (by rw [held]; rfl))))

/-- A registry is consistent when its aliases are: each has the provider of its
target, and the target is no alias. -/
theorem consistent_iff (formed : r.Formed) :
    r.Consistent ↔ ∀ aliasName target, r.aliases.lookup aliasName = some target →
      r.models.lookup target = r.models.lookup aliasName ∧ target ∉ r.aliases := by
  constructor
  · intro consistent aliasName target held
    obtain ⟨p, found⟩ := formed.found held
    obtain ⟨same, again⟩ := consistent aliasName p (resolve_eq_ok.mpr found)
    rw [canonicalModel_of_lookup held] at same again
    refine ⟨(resolve_eq_ok.mp same).trans found.symm, fun chained => ?_⟩
    obtain ⟨further, next⟩ := Option.isSome_iff_exists.mp (AList.lookup_isSome.mpr chained)
    exact formed.proper target further next (again.symm.trans (canonicalModel_of_lookup next))
  · intro sound name p resolved
    by_cases known : name ∈ r.aliases
    · obtain ⟨target, held⟩ := Option.isSome_iff_exists.mp (AList.lookup_isSome.mpr known)
      obtain ⟨same, plain⟩ := sound name target held
      rw [canonicalModel_of_lookup held, canonicalModel_of_notMem plain, resolve_eq_ok, same]
      exact ⟨resolve_eq_ok.mp resolved, rfl⟩
    · rw [canonicalModel_of_notMem known, canonicalModel_of_notMem known]
      exact ⟨resolved, rfl⟩

theorem formed_empty : Registry.empty.Formed := ⟨nofun, nofun⟩

theorem consistent_empty : Registry.empty.Consistent := (consistent_iff formed_empty).mpr nofun

/-- One call of `Register` keeps a consistent registry consistent exactly when
it gives each alias and its target the same provider. -/
theorem register_spec (formed : r.Formed) (consistent : r.Consistent) (models : List String) :
    (r.register p models).Formed ∧
      ((r.register p models).Consistent ↔ RegistryCall.Keeps r (.register p models)) := by
  have formed' : (r.register p models).Formed := by
    refine ⟨fun aliasName member => ?_, formed.proper⟩
    rw [← AList.lookup_isSome, lookup_register]
    split
    · rfl
    · exact AList.lookup_isSome.mpr (formed.listed aliasName member)
  refine ⟨formed', (consistent_iff formed').trans ?_⟩
  refine forall_congr' fun aliasName => forall_congr' fun target => imp_congr_right fun held => ?_
  obtain ⟨same, plain⟩ := (consistent_iff formed).mp consistent aliasName target held
  have stays : target ∉ (r.register p models).aliases := plain
  rw [lookup_register, lookup_register, same]
  by_cases first : aliasName ∈ models <;> by_cases second : target ∈ models <;>
    simp [first, second, stays, eq_comm]

/-- A new alias keeps a consistent registry consistent exactly when its target
is no alias. -/
theorem alias_spec (formed : r.Formed) (consistent : r.Consistent) (new : aliasName ∉ r.models)
    (found : r.models.lookup target = some p) :
    Formed ⟨r.models.insert aliasName p, r.aliases.insert aliasName target⟩ ∧
      (Consistent ⟨r.models.insert aliasName p, r.aliases.insert aliasName target⟩ ↔ target ∉ r.aliases) := by
  have proper : target ≠ aliasName := ne_of_lookup found new
  have formed' : Formed ⟨r.models.insert aliasName p, r.aliases.insert aliasName target⟩ := by
    refine ⟨fun name member => ?_, fun name t held => ?_⟩
    · rcases (AList.mem_insert _).mp member with rfl | old
      · exact (AList.mem_insert _).mpr (Or.inl rfl)
      · exact (AList.mem_insert _).mpr (Or.inr (formed.listed name old))
    · by_cases same : name = aliasName
      · subst same
        rw [AList.lookup_insert] at held
        cases held
        exact proper.symm
      · rw [AList.lookup_insert_ne same] at held
        exact formed.proper name t held
  refine ⟨formed', (consistent_iff formed').trans ⟨fun sound => ?_, fun plain name t held => ?_⟩⟩
  · have last := (sound aliasName target (AList.lookup_insert _)).2
    exact fun old => last ((AList.mem_insert _).mpr (Or.inr old))
  · by_cases same : name = aliasName
    · subst same
      rw [AList.lookup_insert] at held
      cases held
      rw [AList.lookup_insert, AList.lookup_insert_ne proper, found]
      refine ⟨rfl, fun chained => ?_⟩
      rcases (AList.mem_insert _).mp chained with self | old
      · exact proper self
      · exact plain old
    · rw [AList.lookup_insert_ne same] at held
      obtain ⟨q, atName⟩ := formed.found held
      obtain ⟨agree, further⟩ := (consistent_iff formed).mp consistent name t held
      have elsewhere : t ≠ aliasName := ne_of_lookup (agree.trans atName) new
      rw [AList.lookup_insert_ne elsewhere, AList.lookup_insert_ne same]
      refine ⟨agree, fun chained => ?_⟩
      rcases (AList.mem_insert _).mp chained with self | old
      · exact elsewhere self
      · exact further old

theorem apply_spec (formed : r.Formed) (consistent : r.Consistent) (call : RegistryCall) :
    (call.apply r).2.Formed ∧ ((call.apply r).2.Consistent ↔ call.Keeps r) := by
  cases call with
  | register p models => exact register_spec formed consistent models
  | registerAlias aliasName target =>
    rcases r.registerAlias_cases aliasName target with ⟨e, failed⟩ | ⟨new, p, found, done⟩
    · simp only [RegistryCall.apply, RegistryCall.Keeps, failed]
      exact ⟨formed, iff_of_true consistent nofun⟩
    · simp only [RegistryCall.apply, RegistryCall.Keeps, done]
      obtain ⟨formed', exact_⟩ := alias_spec formed consistent new found
      exact ⟨formed', exact_.trans ⟨fun plain _ => plain, fun plain => plain rfl⟩⟩

/-- A registry is consistent after every call of a sequence exactly when every
call keeps each alias with its target. -/
theorem consistent_after_iff (formed : r.Formed) (consistent : r.Consistent) (calls : List RegistryCall) :
    (∀ before, before <+: calls → (r.after before).Consistent) ↔
      Transition.Guarded (fun r call => some (RegistryCall.apply r call).2) RegistryCall.Keeps r calls := by
  induction calls generalizing r with
  | nil =>
    refine iff_of_true (fun before start => ?_) trivial
    rw [List.prefix_nil.mp start]
    exact consistent
  | cons call calls ih =>
    obtain ⟨formed', kept⟩ := apply_spec formed consistent call
    constructor
    · intro always
      have first : (call.apply r).2.Consistent := always [call] ⟨calls, rfl⟩
      refine ⟨kept.mp first, ?_⟩
      rintro _ ⟨⟩
      exact (ih formed' first).mp fun before start => always (call :: before) (List.cons_prefix_cons.mpr ⟨rfl, start⟩)
    · rintro ⟨keeps, rest⟩ before start
      have first := kept.mpr keeps
      cases before with
      | nil => exact consistent
      | cons other before =>
        obtain ⟨rfl, later⟩ := List.cons_prefix_cons.mp start
        exact (ih formed' first).mpr (rest _ rfl) before later

/-- A sequence of `Register` and `RegisterAlias` calls on a new registry leaves
it consistent at every point exactly when no call parts an alias from its
target and no alias is given an alias for target. A failed call changes nothing. -/
theorem registry_consistent_iff (calls : List RegistryCall) :
    ((∀ before, before <+: calls → (Registry.empty.after before).Consistent) ∧
      ∀ before aliasName target e, before ++ [.registerAlias aliasName target] <+: calls →
        (RegistryCall.apply (Registry.empty.after before) (.registerAlias aliasName target)).1 = .error e →
        Registry.empty.after (before ++ [.registerAlias aliasName target]) = Registry.empty.after before) ↔
      Transition.Guarded (fun r call => some (RegistryCall.apply r call).2) RegistryCall.Keeps Registry.empty
        calls := by
  rw [← consistent_after_iff formed_empty consistent_empty calls]
  refine ⟨And.left, fun always => ⟨always, fun before aliasName target e _ failed => ?_⟩⟩
  rw [after_concat, RegistryCall.apply_error failed]

def bareOpenAI : Provider := ⟨"openai", ["gpt-4o"], none⟩

def bareGoogle : Provider := ⟨"google", ["gpt-4o"], none⟩

/-- An alias of an alias has a canonical name that is not its own; a target that
another provider takes over leaves its alias behind. -/
theorem not_consistent_after :
    ¬(Registry.empty.after [.register bareOpenAI ["gpt-4o"], .registerAlias "fast" "gpt-4o",
        .registerAlias "quick" "fast"]).Consistent ∧
      ¬(Registry.empty.after [.register bareOpenAI ["gpt-4o"], .registerAlias "fast" "gpt-4o",
        .register bareGoogle ["gpt-4o"]]).Consistent := by
  refine ⟨fun consistent => ?_, fun consistent => ?_⟩
  · exact absurd (consistent "quick" bareOpenAI rfl).2 (by decide)
  · exact absurd (consistent "fast" bareOpenAI rfl).1 nofun

end Registry

end LlmGateway
