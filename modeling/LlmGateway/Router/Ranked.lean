import Mathlib.Tactic.Linarith
import LlmGateway.Router.Exact
import LlmGateway.Router.RoundRobin

namespace LlmGateway

open Slice (LeftmostMin)

def inTokens (req : ChatCompletionRequest) : ℚ := ((req.contents.map String.utf8ByteSize).sum : ℚ) / 4

def outTokens (req : ChatCompletionRequest) : ℚ :=
  match req.maxTokens with
  | some n => if 0 < n then n else defaultMaxTokens
  | none => defaultMaxTokens

/-- The cost of the request's tokens, for a candidate with a cost that is not zero. -/
def tokenCost (req : ChatCompletionRequest) (c : Candidate) : Option ℚ :=
  if c.costPer1kInputUSD ≠ 0 ∨ c.costPer1kOutputUSD ≠ 0 then
    some (inTokens req * c.costPer1kInputUSD + outTokens req * c.costPer1kOutputUSD)
  else none

/-- The code ranks by the cost in units of a thousand tokens. -/
theorem costScore_eq (req : ChatCompletionRequest) (c : Candidate) :
    costScore req c = (tokenCost req c).map (· / 1000) := by
  by_cases free : c.costPer1kInputUSD = 0 ∧ c.costPer1kOutputUSD = 0
  · rw [costScore, if_pos free, tokenCost, if_neg (by simp [free])]
    rfl
  · have priced : c.costPer1kInputUSD ≠ 0 ∨ c.costPer1kOutputUSD ≠ 0 := by tauto
    rw [costScore, if_neg free, tokenCost, if_pos priced, Option.map_some]
    congr 1
    cases limit : req.maxTokens with
    | none =>
      simp only [estimateCost, inTokens, outTokens, limit]
      ring
    | some n =>
      simp only [estimateCost, inTokens, outTokens, limit]
      split <;> ring

theorem costScore_eq_none {req : ChatCompletionRequest} {c : Candidate} :
    costScore req c = none ↔ tokenCost req c = none := by
  rw [costScore_eq, Option.map_eq_none_iff]

theorem leftmostMin_tokenCost {req : ChatCompletionRequest} {candidates : List Candidate} {k : Nat}
    (first : LeftmostMin (costScore req) candidates k) : LeftmostMin (tokenCost req) candidates k := by
  have scaled : StrictMono fun cost : ℚ => cost / 1000 := fun a b less => by
    dsimp only
    linarith
  refine LeftmostMin.map scaled ?_
  simpa only [← costScore_eq] using first

section Select

variable {candidates : List Candidate}

theorem selectRoundRobin_pick (filled : candidates ≠ []) (counters : Counters) (group : String) :
    ∃ c, candidates[(counters group).toNat % candidates.length]? = some c ∧
      selectRoundRobin counters candidates group = (.ok c, counters.advance group) := by
  have positive : 0 < candidates.length := List.length_pos_iff.mpr filled
  have at_ := List.getElem?_eq_getElem (Nat.mod_lt (counters group).toNat positive)
  refine ⟨_, at_, ?_⟩
  rw [selectRoundRobin_eq filled, indexed_eq_ok at_]

variable (score : Candidate → Option ℚ)

theorem selectScored_leftmost {c : Candidate} (member : c ∈ candidates) (scored : (score c).isSome)
    (fallback : Counters) (group : String) :
    ∃ (k : Nat) (c : Candidate), LeftmostMin score candidates k ∧ candidates[k]? = some c ∧
      selectScored score fallback candidates group = (.ok c, fallback) := by
  unfold selectScored
  split
  · rename_i missing
    rw [Slice.scanMin_eq_none.mp missing c member] at scored
    cases scored
  · rename_i best v found
    obtain ⟨c, _, at_, _⟩ := Slice.scanMin_leftmost found
    exact ⟨best, c, Slice.scanMin_leftmost found, at_, by rw [indexed_eq_ok at_]⟩

variable {score} in
theorem selectScored_unscored (unscored : ∀ c ∈ candidates, score c = none) (fallback : Counters) (group : String) :
    selectScored score fallback candidates group = selectRoundRobin fallback candidates group := by
  rw [selectScored, Slice.scanMin_eq_none.mpr unscored]

/-- The counter of the fallback moves only when nothing can be ranked. -/
theorem selectScored_counters (filled : candidates ≠ []) (fallback : Counters) (group : String) :
    (selectScored score fallback candidates group).2 ≠ fallback ↔ ∀ c ∈ candidates, score c = none := by
  by_cases unscored : ∀ c ∈ candidates, score c = none
  · obtain ⟨_, _, picked⟩ := selectRoundRobin_pick filled fallback group
    rw [selectScored_unscored unscored, picked]
    exact iff_of_true (fallback.advance_ne group) unscored
  · refine iff_of_false ?_ unscored
    push Not at unscored
    obtain ⟨c, member, scored⟩ := unscored
    obtain ⟨_, _, _, _, picked⟩ :=
      selectScored_leftmost score member (Option.isSome_iff_ne_none.mpr scored) fallback group
    rw [picked]
    exact fun moved => moved rfl

theorem select_costOptimized (filled : candidates ≠ []) (st : StrategyState) (draw : ℚ) (req : ChatCompletionRequest)
    (group : String) :
    StrategyKind.costOptimized.select st draw candidates req group =
      let (res, counters) := selectScored (costScore req) st.costFallback candidates group
      (res, { st with costFallback := counters }) := by
  have positive : 0 < candidates.length := List.length_pos_iff.mpr filled
  simp only [StrategyKind.select, selectCostOptimized, if_neg positive.ne']

theorem select_latencyOptimized (filled : candidates ≠ []) (st : StrategyState) (draw : ℚ)
    (req : ChatCompletionRequest) (group : String) :
    StrategyKind.latencyOptimized.select st draw candidates req group =
      let (res, counters) := selectScored (fun c => st.ewmas c.provider.name) st.latencyFallback candidates group
      (res, { st with latencyFallback := counters }) := by
  have positive : 0 < candidates.length := List.length_pos_iff.mpr filled
  simp only [StrategyKind.select, selectLatencyOptimized, if_neg positive.ne']

end Select

namespace Router

variable (r : Router) (hs : Breakers) (now : Int)

/-- The request names candidates, some of them healthy, and the strategy is asked
to select one of these. -/
structure Asks (request : Option ChatCompletionRequest) (kind : StrategyKind) (req : ChatCompletionRequest)
    (group : String) (healthy : List Candidate) : Prop where
  given : request = some req
  resolved : ∃ cs, r.resolveCandidates req.model = .ok (group, cs) ∧
    healthy = cs.filter fun c => hs.admits now c.provider
  filled : healthy ≠ []
  strategy : r.strategyFor group = kind

/-- The candidate of an entry of the configuration, if its model is registered for
a provider that admits calls. -/
def admitted (entry : CandidateConfig) : Option Candidate :=
  ((r.registry.models.lookup entry.model).filter fun p => hs.admits now p).map fun p =>
    ⟨p, entry.model, entry.costPer1kInputUSD, entry.costPer1kOutputUSD, entry.priority, entry.weight⟩

/-- `Route` returns the candidate at the index and leaves the state. -/
def Returns (st : StrategyState) (draw : ℚ) (request : Option ChatCompletionRequest) (group : String)
    (healthy : List Candidate) (k : Nat) (after : StrategyState) : Prop :=
  ∃ c, healthy[k]? = some c ∧ r.route hs now st draw request =
    (.ok (c.provider, ⟨c.provider.name, c.model, (r.strategyFor group).name, group⟩), after)

section Asks

variable {r hs now} {request : Option ChatCompletionRequest} {kind : StrategyKind}
  {req : ChatCompletionRequest} {group : String} {healthy : List Candidate}
  (asks : r.Asks hs now request kind req group healthy) (st : StrategyState) (draw : ℚ)
include asks

omit st draw in
/-- The candidates of a group stand in the order of its configuration. -/
theorem Asks.in_order {g : ModelGroupConfig} (found : r.groups.lookup req.model = some g) :
    healthy = g.candidates.filterMap (r.admitted hs now) := by
  obtain ⟨-, ⟨cs, resolved, rfl⟩, -, -⟩ := asks
  simp only [resolveCandidates, found] at resolved
  cases resolved
  rw [expandGroup, List.filter_filterMap]
  refine List.filterMap_congr fun entry _ => ?_
  rw [admitted, ← r.registry.resolve_eq entry.model]
  cases r.registry.resolve entry.model with
  | error => rfl
  | ok p => cases up : hs.admits now p <;> simp [up, Option.filter_some, Except.toOption]

theorem Asks.route_eq : r.route hs now st draw request =
    match kind.select st draw healthy req group with
    | (.error e, st) => (.error (.strategy kind.name e), st)
    | (.ok picked, st) => (.ok (picked.provider, ⟨picked.provider.name, picked.model, kind.name, group⟩), st) := by
  obtain ⟨rfl, ⟨cs, resolved, rfl⟩, filled, rfl⟩ := asks
  simp only [route, resolved, filterHealthy_eq]
  exact if_neg (by simpa using filled)

theorem Asks.route_state : (r.route hs now st draw request).2 = (kind.select st draw healthy req group).2 := by
  rw [asks.route_eq]
  split <;> rename_i selected <;> rw [selected]

theorem Asks.returns {k : Nat} {c : Candidate} {after : StrategyState} (at_ : healthy[k]? = some c)
    (picked : kind.select st draw healthy req group = (.ok c, after)) :
    r.Returns hs now st draw request group healthy k after := by
  refine ⟨c, at_, ?_⟩
  rw [asks.route_eq, picked, asks.strategy]

/-- A strategy that selects by score: the leftmost smallest score, or the pick of
its fallback, whose counters it puts back. -/
theorem Asks.scored {score : Candidate → Option ℚ} (fallback : Counters) (put : Counters → StrategyState)
    (selected : kind.select st draw healthy req group =
      let (res, counters) := selectScored score fallback healthy group
      (res, put counters)) (kept : put fallback = st) :
    ((∃ c ∈ healthy, (score c).isSome) →
      ∃ k, LeftmostMin score healthy k ∧ r.Returns hs now st draw request group healthy k st) ∧
    ((∀ c ∈ healthy, score c = none) →
      r.Returns hs now st draw request group healthy ((fallback group).toNat % healthy.length)
        (put (fallback.advance group))) := by
  constructor
  · rintro ⟨c, member, scored⟩
    obtain ⟨k, c, leftmost, at_, picked⟩ := selectScored_leftmost score member scored fallback group
    refine ⟨k, leftmost, asks.returns st draw at_ ?_⟩
    rw [selected, picked]
    exact congrArg (Prod.mk _) kept
  · intro unscored
    obtain ⟨c, at_, picked⟩ := selectRoundRobin_pick asks.filled fallback group
    refine asks.returns st draw at_ ?_
    rw [selected, selectScored_unscored unscored, picked]

end Asks

theorem asks_or_unchanged (st : StrategyState) (draw : ℚ) (request : Option ChatCompletionRequest) :
    (∃ kind req group healthy, r.Asks hs now request kind req group healthy) ∨
      (r.route hs now st draw request).2 = st := by
  cases request with
  | none => exact .inr rfl
  | some req =>
    cases resolved : r.resolveCandidates req.model with
    | error e =>
      right
      simp only [route, resolved]
    | ok found =>
      obtain ⟨group, cs⟩ := found
      by_cases filled : (cs.filter fun c => hs.admits now c.provider) = []
      · right
        simp [route, resolved, filterHealthy_eq, filled]
      · exact .inl ⟨_, req, group, _, rfl, ⟨cs, resolved, rfl⟩, filled, rfl⟩

variable {r hs now} in
/-- Counters that one strategy alone moves, and only when nothing can be ranked. -/
theorem counters_ne_iff {st : StrategyState} {draw : ℚ} {field : StrategyState → Counters} {kind : StrategyKind}
    {unranked : ChatCompletionRequest → Candidate → Prop}
    (own : ∀ req group healthy, healthy ≠ [] →
      (field (kind.select st draw healthy req group).2 ≠ field st ↔ ∀ c ∈ healthy, unranked req c))
    (others : ∀ kind', kind' ≠ kind → ∀ req group healthy,
      field (kind'.select st draw healthy req group).2 = field st) (request : Option ChatCompletionRequest) :
    field (r.route hs now st draw request).2 ≠ field st ↔
      ∃ req group healthy, r.Asks hs now request kind req group healthy ∧ ∀ c ∈ healthy, unranked req c := by
  constructor
  · intro moved
    rcases r.asks_or_unchanged hs now st draw request with ⟨kind', req, group, healthy, asks⟩ | unchanged
    · rw [asks.route_state] at moved
      by_cases same : kind' = kind
      · subst same
        exact ⟨req, group, healthy, asks, (own req group healthy asks.filled).mp moved⟩
      · exact absurd (others kind' same req group healthy) moved
    · rw [unchanged] at moved
      exact absurd rfl moved
  · rintro ⟨req, group, healthy, asks, none⟩
    rw [asks.route_state]
    exact (own req group healthy asks.filled).mpr none

end Router

/-- `Route` with a ranked strategy returns the leftmost smallest of the healthy
candidates that can be ranked, and the private round robin picks only when there
is none. The candidates of a group stand in the order of its configuration. -/
theorem ranked_route_leftmost (r : Router) (hs : Breakers) (now : Int) (st : StrategyState) (draw : ℚ)
    (request : Option ChatCompletionRequest) :
    (∀ req group healthy, r.Asks hs now request .priority req group healthy →
      ∃ k, LeftmostMin (fun c => some c.priority) healthy k ∧ r.Returns hs now st draw request group healthy k st) ∧
    (∀ req group healthy, r.Asks hs now request .costOptimized req group healthy →
      ((∃ c ∈ healthy, (tokenCost req c).isSome) →
        ∃ k, LeftmostMin (tokenCost req) healthy k ∧ r.Returns hs now st draw request group healthy k st) ∧
      ((∀ c ∈ healthy, tokenCost req c = none) →
        r.Returns hs now st draw request group healthy ((st.costFallback group).toNat % healthy.length)
          { st with costFallback := st.costFallback.advance group })) ∧
    (∀ req group healthy, r.Asks hs now request .latencyOptimized req group healthy →
      ((∃ c ∈ healthy, (st.ewmas c.provider.name).isSome) →
        ∃ k, LeftmostMin (fun c => st.ewmas c.provider.name) healthy k ∧
          r.Returns hs now st draw request group healthy k st) ∧
      ((∀ c ∈ healthy, st.ewmas c.provider.name = none) →
        r.Returns hs now st draw request group healthy ((st.latencyFallback group).toNat % healthy.length)
          { st with latencyFallback := st.latencyFallback.advance group })) ∧
    ((r.route hs now st draw request).2.costFallback ≠ st.costFallback ↔
      ∃ req group healthy, r.Asks hs now request .costOptimized req group healthy ∧
        ∀ c ∈ healthy, tokenCost req c = none) ∧
    ((r.route hs now st draw request).2.latencyFallback ≠ st.latencyFallback ↔
      ∃ req group healthy, r.Asks hs now request .latencyOptimized req group healthy ∧
        ∀ c ∈ healthy, st.ewmas c.provider.name = none) ∧
    (∀ kind req group healthy g, r.Asks hs now request kind req group healthy → r.groups.lookup req.model = some g →
      healthy = g.candidates.filterMap (r.admitted hs now)) := by
  refine ⟨?_, ?_, ?_, ?_, ?_, fun _ _ _ _ _ asks found => asks.in_order found⟩
  · intro req group healthy asks
    obtain ⟨k, c, leftmost, at_, picked⟩ := selectPriority_leftmost asks.filled
    refine ⟨k, leftmost, asks.returns st draw at_ ?_⟩
    simp only [StrategyKind.select, picked]
  · intro req group healthy asks
    obtain ⟨ranked, unranked⟩ := asks.scored st draw st.costFallback
      (fun counters => { st with costFallback := counters }) (select_costOptimized asks.filled st draw req group) rfl
    refine ⟨?_, fun unpriced => unranked fun c member => costScore_eq_none.mpr (unpriced c member)⟩
    rintro ⟨c, member, priced⟩
    obtain ⟨k, leftmost, returned⟩ := ranked ⟨c, member, by simpa [costScore_eq] using priced⟩
    exact ⟨k, leftmostMin_tokenCost leftmost, returned⟩
  · intro req group healthy asks
    exact asks.scored st draw st.latencyFallback (fun counters => { st with latencyFallback := counters })
      (select_latencyOptimized asks.filled st draw req group) rfl
  · refine Router.counters_ne_iff (fun req group healthy filled => ?_) (fun kind other req group healthy => ?_) request
    · rw [select_costOptimized filled]
      simpa only [costScore_eq_none] using selectScored_counters (costScore req) filled st.costFallback group
    · cases kind <;> first | rfl | exact absurd rfl other
  · refine Router.counters_ne_iff (fun req group healthy filled => ?_) (fun kind other req group healthy => ?_) request
    · rw [select_latencyOptimized filled]
      exact selectScored_counters (fun c => st.ewmas c.provider.name) filled st.latencyFallback group
    · cases kind <;> first | rfl | exact absurd rfl other

/-- A group of a model without prices and two with the same prices. -/
def tiedRouter : Router where
  registry := Registry.empty.register soloProvider ["a", "b", "c"]
  groups := AList.singleton "cheap"
    ⟨"", [⟨"openai", "a", 0, 0, 0, 1⟩, ⟨"openai", "b", 1, 2, 0, 1⟩, ⟨"openai", "c", 1, 2, 0, 1⟩]⟩
  pricing := ∅
  defaultStrategy := .costOptimized
  groupStrategies := ∅

def tiedCandidates : List Candidate :=
  [⟨soloProvider, "a", 0, 0, 0, 1⟩, ⟨soloProvider, "b", 1, 2, 0, 1⟩, ⟨soloProvider, "c", 1, 2, 0, 1⟩]

theorem ranked_route_leftmost_tied :
    ∃ k, LeftmostMin (tokenCost ⟨"cheap", ["hello"], none⟩) tiedCandidates k ∧
      tiedRouter.Returns (fun _ => newProviderHealth ⟨0, 0⟩) 0 .fresh 0 (some ⟨"cheap", ["hello"], none⟩) "cheap"
        tiedCandidates k .fresh := by
  have asks : tiedRouter.Asks (fun _ => newProviderHealth ⟨0, 0⟩) 0 (some ⟨"cheap", ["hello"], none⟩) .costOptimized
      ⟨"cheap", ["hello"], none⟩ "cheap" tiedCandidates :=
    ⟨rfl, ⟨tiedCandidates, rfl, rfl⟩, by simp [tiedCandidates], rfl⟩
  obtain ⟨_, cost, _⟩ := ranked_route_leftmost tiedRouter (fun _ => newProviderHealth ⟨0, 0⟩) 0 .fresh 0
    (some ⟨"cheap", ["hello"], none⟩)
  refine (cost _ _ _ asks).1 ⟨⟨soloProvider, "b", 1, 2, 0, 1⟩, by simp [tiedCandidates], ?_⟩
  simp [tokenCost]

end LlmGateway
