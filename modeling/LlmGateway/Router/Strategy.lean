import Mathlib.Algebra.Order.Floor.Ring
import Mathlib.Data.Rat.Floor
import LlmGateway.Lib.Slice
import LlmGateway.Model.Int64
import LlmGateway.Provider.Registry

namespace LlmGateway

/-- `router.Candidate`. -/
structure Candidate where
  provider : Provider
  model : String
  costPer1kInputUSD : ℚ
  costPer1kOutputUSD : ℚ
  priority : Int
  weight : Int
deriving DecidableEq

/-- The parts of `model.ChatCompletionRequest` that routing reads. -/
structure ChatCompletionRequest where
  model : String
  contents : List String
  maxTokens : Option Int

/-- The five strategies. A `Builder` makes one instance of each, so the kind of
a strategy names its instance. -/
inductive StrategyKind where
  | costOptimized
  | latencyOptimized
  | roundRobin
  | weighted
  | priority
deriving DecidableEq, Repr

namespace StrategyKind

def name : StrategyKind → String
  | .costOptimized => "cost_optimized"
  | .latencyOptimized => "latency_optimized"
  | .roundRobin => "round_robin"
  | .weighted => "weighted"
  | .priority => "priority"

def build (name : String) : Except String StrategyKind :=
  match name with
  | "cost_optimized" => .ok .costOptimized
  | "latency_optimized" => .ok .latencyOptimized
  | "round_robin" => .ok .roundRobin
  | "weighted" => .ok .weighted
  | "priority" => .ok .priority
  | _ => .error ("unknown routing strategy " ++ name.quote)

theorem name_of_build {text : String} {kind : StrategyKind} (built : build text = .ok kind) : kind.name = text := by
  unfold build at built
  split at built <;> cases built <;> rfl

end StrategyKind

/-- The counters of one `RoundRobin`, by group; a group without a counter yet
counts from zero. -/
abbrev Counters := String → UInt64

/-- The state of the five instances. `CostOptimized` and `LatencyOptimized` own
a private `RoundRobin` each. -/
structure StrategyState where
  roundRobin : Counters
  costFallback : Counters
  latencyFallback : Counters
  ewmas : String → Option ℚ

/-- The five instances as a `Builder` makes them. -/
def StrategyState.fresh : StrategyState := ⟨fun _ => 0, fun _ => 0, fun _ => 0, fun _ => none⟩

/-- A Go index expression: out of range is a run-time panic. -/
def indexed (candidates : List Candidate) (i : Nat) : Except String Candidate :=
  match candidates[i]? with
  | some c => .ok c
  | none => .error "index out of range"

/-- `counter.Add(1) - 1` is the value before the increment. -/
def selectRoundRobin (counters : Counters) (candidates : List Candidate) (group : String) :
    Except String Candidate × Counters :=
  if candidates.length = 0 then (.error "round_robin: empty candidate list", counters)
  else
    let idx := counters group
    (indexed candidates (idx.toNat % candidates.length), Function.update counters group (idx + 1))

def totalWeight (candidates : List Candidate) : Int :=
  candidates.foldl (fun total c => if c.weight < 0 then total else wrap64 (total + c.weight)) 0

/-- The first candidate whose running sum of weights exceeds the pick. -/
def pickWeighted (pick : ℚ) : ℚ → List Candidate → Option Candidate
  | _, [] => none
  | cursor, c :: rest =>
    if c.weight ≤ 0 then pickWeighted pick cursor rest
    else if pick < cursor + c.weight then some c
    else pickWeighted pick (cursor + c.weight) rest

def lastPositive (candidates : List Candidate) : Option Candidate :=
  candidates.reverse.find? fun c => 0 < c.weight

def selectWeighted (draw : ℚ) (candidates : List Candidate) : Except String Candidate :=
  if candidates.length = 0 then .error "weighted: empty candidate list"
  else
    let total := totalWeight candidates
    if total = 0 then
      let idx := ⌊draw * candidates.length⌋.toNat
      indexed candidates (if candidates.length ≤ idx then candidates.length - 1 else idx)
    else match pickWeighted (draw * total) 0 candidates with
      | some c => .ok c
      | none =>
        match lastPositive candidates with
        | some c => .ok c
        | none => indexed candidates (candidates.length - 1)

def selectPriority (candidates : List Candidate) : Except String Candidate :=
  match candidates with
  | [] => .error "priority: empty candidate list"
  | first :: rest =>
    match Slice.scanMin (fun c => some c.priority) (some (0, first.priority)) 1 rest with
    | some (best, _) => indexed candidates best
    | none => .error "index out of range"

def defaultMaxTokens : Int := 256

/-- The rank-only estimate, in exact arithmetic. -/
def estimateCost (c : Candidate) (req : ChatCompletionRequest) : ℚ :=
  let inChars := (req.contents.map String.utf8ByteSize).sum
  let inTokensPer1k := (inChars : ℚ) / 4 / 1000
  let outTokens := match req.maxTokens with
    | some n => if 0 < n then n else defaultMaxTokens
    | none => defaultMaxTokens
  let outTokensPer1k := (outTokens : ℚ) / 1000
  inTokensPer1k * c.costPer1kInputUSD + outTokensPer1k * c.costPer1kOutputUSD

/-- The cost of a candidate with cost data. -/
def costScore (req : ChatCompletionRequest) (c : Candidate) : Option ℚ :=
  if c.costPer1kInputUSD = 0 ∧ c.costPer1kOutputUSD = 0 then none else some (estimateCost c req)

/-- The best-scored candidate, or the fallback's pick when none has a score. -/
def selectScored (score : Candidate → Option ℚ) (fallback : Counters) (candidates : List Candidate)
    (group : String) : Except String Candidate × Counters :=
  match Slice.scanMin score none 0 candidates with
  | none => selectRoundRobin fallback candidates group
  | some (best, _) => (indexed candidates best, fallback)

def selectCostOptimized (fallback : Counters) (candidates : List Candidate) (req : ChatCompletionRequest)
    (group : String) : Except String Candidate × Counters :=
  if candidates.length = 0 then (.error "cost_optimized: empty candidate list", fallback)
  else selectScored (costScore req) fallback candidates group

def selectLatencyOptimized (ewmas : String → Option ℚ) (fallback : Counters) (candidates : List Candidate)
    (group : String) : Except String Candidate × Counters :=
  if candidates.length = 0 then (.error "latency_optimized: empty candidate list", fallback)
  else selectScored (fun c => ewmas c.provider.name) fallback candidates group

/-- `Strategy.Select`. The draw is the next number of the `Weighted` instance. -/
def StrategyKind.select (kind : StrategyKind) (st : StrategyState) (draw : ℚ) (candidates : List Candidate)
    (req : ChatCompletionRequest) (group : String) : Except String Candidate × StrategyState :=
  match kind with
  | .costOptimized =>
    let (res, counters) := selectCostOptimized st.costFallback candidates req group
    (res, { st with costFallback := counters })
  | .latencyOptimized =>
    let (res, counters) := selectLatencyOptimized st.ewmas st.latencyFallback candidates group
    (res, { st with latencyFallback := counters })
  | .roundRobin =>
    let (res, counters) := selectRoundRobin st.roundRobin candidates group
    (res, { st with roundRobin := counters })
  | .weighted => (selectWeighted draw candidates, st)
  | .priority => (selectPriority candidates, st)

section Total

variable {candidates : List Candidate}

theorem indexed_eq_ok {i : Nat} {c : Candidate} (at_ : candidates[i]? = some c) : indexed candidates i = .ok c := by
  rw [indexed, at_]

theorem indexed_mem {i : Nat} (bound : i < candidates.length) : ∃ c ∈ candidates, indexed candidates i = .ok c := by
  exact ⟨candidates[i], List.getElem_mem bound, indexed_eq_ok (List.getElem?_eq_getElem bound)⟩

theorem selectRoundRobin_mem (filled : candidates ≠ []) (counters : Counters) (group : String) :
    ∃ c ∈ candidates, (selectRoundRobin counters candidates group).1 = .ok c := by
  have positive : 0 < candidates.length := List.length_pos_iff.mpr filled
  rw [selectRoundRobin, if_neg (by omega)]
  exact indexed_mem (Nat.mod_lt _ positive)

theorem pickWeighted_mem {pick cursor : ℚ} {c : Candidate} (found : pickWeighted pick cursor candidates = some c) :
    c ∈ candidates := by
  induction candidates generalizing cursor with
  | nil => cases found
  | cons first rest ih =>
    simp only [pickWeighted] at found
    split at found
    · exact List.mem_cons_of_mem _ (ih found)
    · split at found
      · cases found
        exact List.mem_cons_self
      · exact List.mem_cons_of_mem _ (ih found)

theorem selectWeighted_mem (filled : candidates ≠ []) (draw : ℚ) :
    ∃ c ∈ candidates, selectWeighted draw candidates = .ok c := by
  have positive : 0 < candidates.length := List.length_pos_iff.mpr filled
  rw [selectWeighted, if_neg (by omega)]
  dsimp only
  split
  · refine indexed_mem ?_
    split <;> omega
  · split
    · rename_i c found
      exact ⟨c, pickWeighted_mem found, rfl⟩
    · split
      · rename_i c found
        exact ⟨c, List.mem_reverse.mp (List.mem_of_find?_eq_some found), rfl⟩
      · exact indexed_mem (by omega)

/-- `Priority` picks the first candidate of the lowest priority value. -/
theorem selectPriority_leftmost (filled : candidates ≠ []) :
    ∃ (k : Nat) (c : Candidate), Slice.LeftmostMin (fun c => some c.priority) candidates k ∧
      candidates[k]? = some c ∧ selectPriority candidates = .ok c := by
  cases candidates with
  | nil => exact absurd rfl filled
  | cons first rest =>
    have started := Slice.scanMin_isSome (fun c : Candidate => some c.priority) (0, first.priority) 1 rest
    obtain ⟨⟨best, v⟩, found⟩ := Option.isSome_iff_exists.mp started
    have whole : Slice.scanMin (fun c : Candidate => some c.priority) none 0 (first :: rest) = some (best, v) := found
    obtain ⟨c, _, at_, _⟩ := Slice.scanMin_leftmost whole
    refine ⟨best, c, Slice.scanMin_leftmost whole, at_, ?_⟩
    simp only [selectPriority, found]
    exact indexed_eq_ok at_

theorem selectPriority_min (filled : candidates ≠ []) :
    ∃ c ∈ candidates, selectPriority candidates = .ok c ∧ ∀ other ∈ candidates, c.priority ≤ other.priority := by
  obtain ⟨k, c, ⟨a, v, atA, value, least⟩, at_, picked⟩ := selectPriority_leftmost filled
  cases Option.some.inj (at_.symm.trans atA)
  cases Option.some.inj value
  refine ⟨c, List.mem_of_getElem? at_, picked, fun other member => ?_⟩
  obtain ⟨j, there⟩ := List.getElem?_of_mem member
  exact (least j other other.priority there rfl).1

theorem selectScored_mem (filled : candidates ≠ []) (score : Candidate → Option ℚ) (fallback : Counters)
    (group : String) : ∃ c ∈ candidates, (selectScored score fallback candidates group).1 = .ok c := by
  unfold selectScored
  split
  · exact selectRoundRobin_mem filled fallback group
  · rename_i best v found
    have bound := Slice.scanMin_index found
    exact indexed_mem (by omega)

/-- On a list that is not empty every strategy picks a member of it, whatever
its state. -/
theorem StrategyKind.select_mem (filled : candidates ≠ []) (kind : StrategyKind) (st : StrategyState) (draw : ℚ)
    (req : ChatCompletionRequest) (group : String) :
    ∃ c ∈ candidates, (kind.select st draw candidates req group).1 = .ok c := by
  have positive : 0 < candidates.length := List.length_pos_iff.mpr filled
  cases kind with
  | costOptimized =>
    simp only [select, selectCostOptimized, if_neg (Nat.ne_of_gt positive)]
    exact selectScored_mem filled _ _ _
  | latencyOptimized =>
    simp only [select, selectLatencyOptimized, if_neg (Nat.ne_of_gt positive)]
    exact selectScored_mem filled _ _ _
  | roundRobin => exact selectRoundRobin_mem filled _ _
  | weighted => exact selectWeighted_mem filled draw
  | priority =>
    obtain ⟨c, member, picked, _⟩ := selectPriority_min filled
    exact ⟨c, member, picked⟩

end Total

end LlmGateway
