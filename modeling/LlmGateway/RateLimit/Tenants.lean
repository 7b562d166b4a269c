import LlmGateway.RateLimit.Uses

namespace LlmGateway

/-- The rate-limit keys of the two API keys are the same ones. -/
def KeyInfo.SameTenant (key other : KeyInfo) : Prop := key.orgID = other.orgID ∧ key.keyID = other.keyID

instance (key other : KeyInfo) : Decidable (key.SameTenant other) := inferInstanceAs (Decidable (_ ∧ _))

theorem KeyInfo.SameTenant.of_text {key other : KeyInfo} {suffix : String} (plain : ':' ∉ key.orgID.toList)
    (plain' : ':' ∉ other.orgID.toList)
    (same : "ratelimit:" ++ key.orgID ++ ":" ++ key.keyID ++ suffix =
      "ratelimit:" ++ other.orgID ++ ":" ++ other.keyID ++ suffix) : key.SameTenant other := by
  have texts := congrArg String.toList same
  simp only [String.toList_append, List.append_assoc] at texts
  obtain ⟨org, rest⟩ := Numeral.split_first plain plain' (List.append_cancel_left texts)
  exact ⟨String.toList_inj.mp org, String.toList_inj.mp (List.append_cancel_right rest)⟩

theorem KeyInfo.SameTenant.rpmKey_eq {key other : KeyInfo} (same : key.SameTenant other) :
    rpmKey key = rpmKey other := by
  unfold rpmKey
  rw [same.1, same.2]

theorem KeyInfo.SameTenant.tpmKey_eq {key other : KeyInfo} (same : key.SameTenant other) :
    tpmKey key = tpmKey other := by
  unfold tpmKey
  rw [same.1, same.2]

namespace UseState

variable {ι κ : Type} {F : Fleet ι} {uses : κ → LimiterUse ι} {tenant : KeyInfo} {s s' t : UseState ι κ}

/-- The actions that stay when the calls of other tenants are deleted. -/
def keeps (uses : κ → LimiterUse ι) (tenant : KeyInfo) : UseAction κ → Bool
  | .send c _ => (uses c).key.SameTenant tenant
  | .execute c => (uses c).key.SameTenant tenant
  | .serverClock _ => true

/-- The second state is what the tenant can see of the first. -/
structure Related (F : Fleet ι) (uses : κ → LimiterUse ι) (tenant : KeyInfo) (s s' : UseState ι κ) : Prop where
  tidy : Tidy F uses s
  tidy' : Tidy F uses s'
  phases : ∀ c, (uses c).key.SameTenant tenant → (s.phase c).Alike (s'.phase c)
  rpm : s.redis.AlikeAt s'.redis (rpmKey tenant)
  tpm : s.redis.AlikeAt s'.redis (tpmKey tenant)

theorem related_start (time : Int) : Related F uses tenant (start F time) (start F time) :=
  ⟨tidy_start time, tidy_start time, fun _ _ => .idle, ⟨rfl, .none⟩, ⟨rfl, .none⟩⟩

theorem Related.serverClock (related : Related F uses tenant s s') (time : Int) :
    Related F uses tenant { s with redis := { s.redis with time := time } }
      { s' with redis := { s'.redis with time := time } } :=
  ⟨related.tidy.serverClock time, related.tidy'.serverClock time, related.phases, ⟨rfl, related.rpm.slots⟩,
    ⟨rfl, related.tpm.slots⟩⟩

variable [DecidableEq κ]

theorem alike_update {c : κ} {phase phase' : UsePhase} (alike : phase.Alike phase')
    (phases : ∀ d, (uses d).key.SameTenant tenant → (s.phase d).Alike (s'.phase d)) (d : κ)
    (same : (uses d).key.SameTenant tenant) :
    (Function.update s.phase c phase d).Alike (Function.update s'.phase c phase' d) := by
  by_cases here : d = c
  · subst d
    rw [Function.update_self, Function.update_self]
    exact alike
  · rw [Function.update_of_ne here, Function.update_of_ne here]
    exact phases d same

/-- A call of another tenant is not seen. -/
theorem alike_update_other {c : κ} {phase : UsePhase} (other : ¬(uses c).key.SameTenant tenant)
    (phases : ∀ d, (uses d).key.SameTenant tenant → (s.phase d).Alike (s'.phase d)) (d : κ)
    (same : (uses d).key.SameTenant tenant) : (Function.update s.phase c phase d).Alike (s'.phase d) := by
  have elsewhere : d ≠ c := by
    rintro rfl
    exact other same
  rw [Function.update_of_ne elsewhere]
  exact phases d same

/-- The tenant's own call sends the same script call in both runs, up to its id,
and the servers answer alike. -/
theorem Related.execute (related : Related F uses tenant s s') {c : κ} (same : (uses c).key.SameTenant tenant)
    {next : UsePhase} {q : Redis} (done : (uses c).execute F s.redis (s.phase c) = some (next, q)) :
    ∃ next' q', (uses c).execute F s'.redis (s'.phase c) = some (next', q') ∧
      Related F uses tenant { s with phase := Function.update s.phase c next, redis := q }
        { s' with phase := Function.update s'.phase c next', redis := q' } := by
  have plain (id : String) (pending : (s.phase c).pendingID = some id ∨ (s'.phase c).pendingID = some id) :
      memberTokens id = 0 := by
    rcases pending with mine | mine
    · exact (related.tidy.issued c id mine).memberTokens_eq related.tidy.owned
    · exact (related.tidy'.issued c id mine).memberTokens_eq related.tidy'.owned
  obtain ⟨next', q', done', alike, rpm, tpm⟩ := LimiterUse.execute_alike (related.tidy.sentFor c)
    (related.phases c same) (same.rpmKey_eq ▸ related.rpm) (same.tpmKey_eq ▸ related.tpm) plain
    (fun id pending => related.tidy.fresh pending) (fun id pending => related.tidy'.fresh pending) done
  exact ⟨next', q', done', related.tidy.execute done, related.tidy'.execute done',
    alike_update alike related.phases, same.rpmKey_eq ▸ rpm, same.tpmKey_eq ▸ tpm⟩

/-- Another tenant's call leaves the tenant's keys alone. -/
theorem Related.execute_other (related : Related F uses tenant s s') {c : κ}
    (other : ¬(uses c).key.SameTenant tenant) (plain : ':' ∉ (uses c).key.orgID.toList)
    (plain' : ':' ∉ tenant.orgID.toList) {next : UsePhase} {q : Redis}
    (done : (uses c).execute F s.redis (s.phase c) = some (next, q)) :
    Related F uses tenant { s with phase := Function.update s.phase c next, redis := q } s' := by
  obtain ⟨_, _, _, _, time, frame, _⟩ := LimiterUse.execute_spec (related.tidy.sentFor c) done
  have rpm : q.slots (rpmKey tenant) = s.redis.slots (rpmKey tenant) :=
    frame _ (fun same => other (.of_text plain plain' same.symm)) (rpmKey_ne_tpmKey _ _)
  have tpm : q.slots (tpmKey tenant) = s.redis.slots (tpmKey tenant) :=
    frame _ (rpmKey_ne_tpmKey _ _).symm fun same => other (.of_text plain plain' same.symm)
  exact ⟨related.tidy.execute done, related.tidy', alike_update_other other related.phases,
    related.rpm.of_slots time rfl rpm rfl, related.tpm.of_slots time rfl tpm rfl⟩

variable [DecidableEq ι]

theorem Related.seen (related : Related F uses tenant s s') {a : UseAction κ} (kept : keeps uses tenant a = true)
    (taken : step F uses s a = some t) : ∃ t', step F uses s' a = some t' ∧ Related F uses tenant t t' := by
  cases a with
  | send c nowMs =>
    obtain ⟨idle, rfl⟩ := step_send taken
    have same : (uses c).key.SameTenant tenant := of_decide_eq_true kept
    have alike := related.phases c same
    rw [idle] at alike
    generalize at_ : s'.phase c = phase' at alike
    cases alike
    refine ⟨_, by simp only [step, at_], related.tidy.send idle nowMs, related.tidy'.send at_ nowMs, ?_,
      related.rpm, related.tpm⟩
    exact alike_update ((uses c).send_alike F _ _ nowMs) related.phases
  | execute c =>
    obtain ⟨next, q, done, rfl⟩ := step_execute taken
    obtain ⟨next', q', done', after⟩ := related.execute (of_decide_eq_true kept) done
    exact ⟨_, by rw [step, done']; rfl, after⟩
  | serverClock time =>
    cases Option.some.inj taken
    exact ⟨_, rfl, related.serverClock time⟩

theorem Related.hidden (related : Related F uses tenant s s') (plain : ∀ c, ':' ∉ (uses c).key.orgID.toList)
    (plain' : ':' ∉ tenant.orgID.toList) {a : UseAction κ} (deleted : keeps uses tenant a = false)
    (taken : step F uses s a = some t) : Related F uses tenant t s' := by
  cases a with
  | send c nowMs =>
    obtain ⟨idle, rfl⟩ := step_send taken
    exact ⟨related.tidy.send idle nowMs, related.tidy',
      alike_update_other (of_decide_eq_false deleted) related.phases, related.rpm, related.tpm⟩
  | execute c =>
    obtain ⟨next, q, done, rfl⟩ := step_execute taken
    exact related.execute_other (of_decide_eq_false deleted) (plain c) plain' done
  | serverClock time => cases deleted

/-- Tenants do not interfere: whatever the calls on the other API keys are, and
however they interleave, every call of the tenant is answered as in the run
from which they are deleted. -/
theorem returned_eq_of_deleted (F : Fleet ι) (uses : κ → LimiterUse ι)
    (plain : ∀ c, ':' ∉ (uses c).key.orgID.toList) (a : κ) (time : Int) {actions : List (UseAction κ)}
    {final : UseState ι κ} (taken : Transition.run (step F uses) (start F time) actions = some final) :
    ∃ final', Transition.run (step F uses) (start F time) (actions.filter (keeps uses (uses a).key)) = some final' ∧
      ∀ c, (uses c).key.SameTenant (uses a).key → (final.phase c).returned = (final'.phase c).returned := by
  have seen (s s' : UseState ι κ) (act : UseAction κ) (t : UseState ι κ) (kept : keeps uses (uses a).key act = true)
      (related : Related F uses (uses a).key s s') (next : step F uses s act = some t) := related.seen kept next
  have hidden (s s' : UseState ι κ) (act : UseAction κ) (t : UseState ι κ)
      (deleted : keeps uses (uses a).key act = false) (related : Related F uses (uses a).key s s')
      (next : step F uses s act = some t) := related.hidden plain (plain a) deleted next
  obtain ⟨final', taken', related⟩ := Transition.run_filter seen hidden (related_start time) taken
  exact ⟨final', taken', fun c same => (related.phases c same).returned⟩

/-- Two organisations take turns at a limit of one request each; the first one
is admitted as if it were alone. -/
theorem returned_eq_of_deleted_pair :
    ∃ (uses : Bool → LimiterUse Bool) (final final' : UseState Bool Bool),
      ¬(uses true).key.SameTenant (uses false).key ∧
      Transition.run (step pairFleet uses) (start pairFleet 0)
        [.send true 0, .send false 0, .execute true, .execute false] = some final ∧
      Transition.run (step pairFleet uses) (start pairFleet 0) [.send false 0, .execute false] = some final' ∧
      (final.phase false).returned = (final'.phase false).returned := by
  let uses : Bool → LimiterUse Bool := fun b => ⟨false, ⟨"k", if b then "o" else "p", "", 0, 0, [], none⟩, none⟩
  obtain ⟨final, taken⟩ : ∃ final, Transition.run (step pairFleet uses) (start pairFleet 0)
      [.send true 0, .send false 0, .execute true, .execute false] = some final := ⟨_, rfl⟩
  obtain ⟨final', alone, same⟩ := returned_eq_of_deleted pairFleet uses (by decide) false 0 taken
  exact ⟨uses, final, final', by decide, taken, alone, same false ⟨rfl, rfl⟩⟩

end UseState

end LlmGateway
