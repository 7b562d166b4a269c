import Mathlib.Algebra.BigOperators.Intervals
import Mathlib.Analysis.Convex.Basic
import LlmGateway.Config.Config
import LlmGateway.Lib.Cumulative
import LlmGateway.Router.Strategy

namespace LlmGateway

/-- `metrics.LatencyTotal`, with an exact sum. -/
structure LatencyTotal where
  sum : ℚ
  count : UInt64
deriving DecidableEq, Repr

/-- A snapshot of `ProviderLatencyTotals`. The order of its entries is the one in
which `run` happens to range over the map. -/
abbrev Totals := StringMap LatencyTotal

/-- What `run` passes to `Observe`, and the number of samples it stands for. -/
structure Sample where
  deltaCount : UInt64
  seconds : ℚ
deriving DecidableEq, Repr

/-- The provider's entry; a Go map gives the zero value for a missing key. -/
def Totals.entry (totals : Totals) (provider : String) : LatencyTotal := (totals.lookup provider).getD ⟨0, 0⟩

/-- The body of the loop of `run` over the snapshot, up to the call of `Observe`. -/
def observation (prev : Totals) (provider : String) (c : LatencyTotal) : Option Sample :=
  let p := prev.entry provider
  if c.count < p.count then none
  else
    let deltaCount := c.count - p.count
    if deltaCount = 0 then none
    else
      let deltaSum := c.sum - p.sum
      let deltaSum := if deltaSum < 0 then 0 else deltaSum
      some ⟨deltaCount, deltaSum / deltaCount.toNat⟩

/-- `Observe`. A rational is neither NaN nor infinite. -/
def observe (alpha : ℚ) (ewmas : String → Option ℚ) (provider : String) (seconds : ℚ) : String → Option ℚ :=
  if seconds < 0 then ewmas
  else match ewmas provider with
    | some prev => Function.update ewmas provider (some (alpha * seconds + (1 - alpha) * prev))
    | none => Function.update ewmas provider (some seconds)

/-- What `run` keeps from one tick to the next, and the averages it maintains. -/
structure Poller where
  prev : Totals
  ewmas : String → Option ℚ

namespace Poller

def visit (alpha : ℚ) (prev : Totals) (ewmas : String → Option ℚ) (e : Sigma fun _ : String => LatencyTotal) :
    String → Option ℚ :=
  match observation prev e.1 e.2 with
  | none => ewmas
  | some sample => observe alpha ewmas e.1 sample.seconds

/-- The averages after the first entries of the snapshot. -/
def range (alpha : ℚ) (s : Poller) (curr : Totals) (visited : Nat) : String → Option ℚ :=
  (curr.entries.take visited).foldl (visit alpha s.prev) s.ewmas

def tick (alpha : ℚ) (s : Poller) (curr : Totals) : Poller :=
  ⟨curr, curr.entries.foldl (visit alpha s.prev) s.ewmas⟩

/-- `run` after a number of ticks. `reader i` is the snapshot that the call number
`i` of the reader returns; the first one is made before the loop. -/
def run (alpha : ℚ) (reader : Nat → Totals) : Nat → Poller
  | 0 => ⟨reader 0, StrategyState.fresh.ewmas⟩
  | n + 1 => (run alpha reader n).tick alpha (reader (n + 1))

end Poller

namespace Totals

/-- The number of the provider's samples so far. -/
def count (totals : Totals) (provider : String) : Nat := (totals.entry provider).count.toNat

/-- The sample that a tick takes of a provider. -/
def sampled (prev curr : Totals) (provider : String) : Option Sample :=
  (curr.lookup provider).bind (observation prev provider)

variable {prev curr : Totals} {provider : String}

/-- No new samples, or fewer than before. -/
theorem sampled_of_le (fewer : curr.count provider ≤ prev.count provider) : prev.sampled curr provider = none := by
  unfold sampled
  cases found : curr.lookup provider with
  | none => rfl
  | some c =>
    have own : curr.entry provider = c := by rw [entry, found]; rfl
    rw [count, count, own] at fewer
    rw [Option.bind_some, observation]
    dsimp only
    split
    · rfl
    · rename_i reset
      have same : c.count = (prev.entry provider).count := by
        rw [UInt64.lt_iff_toNat_lt] at reset
        exact UInt64.toNat_inj.mp (by omega)
      rw [if_pos (by rw [same, UInt64.sub_self])]

/-- The sample of new samples: their number does not wrap, and their average is
not negative. -/
theorem sampled_of_lt (more : prev.count provider < curr.count provider) :
    ∃ sample, prev.sampled curr provider = some sample ∧
      sample.deltaCount.toNat = curr.count provider - prev.count provider ∧
      sample.seconds = max 0 ((curr.entry provider).sum - (prev.entry provider).sum) / sample.deltaCount.toNat := by
  cases found : curr.lookup provider with
  | none =>
    have absent : curr.count provider = 0 := by rw [count, entry, found]; rfl
    omega
  | some c =>
    have own : curr.entry provider = c := by rw [entry, found]; rfl
    rw [count, count, own] at more
    have risen : (prev.entry provider).count < c.count := UInt64.lt_iff_toNat_lt.mpr more
    have delta : (c.count - (prev.entry provider).count).toNat = c.count.toNat - (prev.entry provider).count.toNat :=
      UInt64.toNat_sub_of_le _ _ (UInt64.le_of_lt risen)
    have some : c.count - (prev.entry provider).count ≠ 0 := by
      intro zero
      rw [zero] at delta
      have none : (0 : UInt64).toNat = 0 := rfl
      omega
    have clamped (x : ℚ) : (if x < 0 then 0 else x) = max 0 x := by
      rcases lt_or_ge x 0 with negative | positive
      · rw [if_pos negative, max_eq_left negative.le]
      · rw [if_neg (not_lt.mpr positive), max_eq_right positive]
    have taken : prev.sampled curr provider = Option.some ⟨c.count - (prev.entry provider).count,
        max 0 (c.sum - (prev.entry provider).sum) / (c.count - (prev.entry provider).count).toNat⟩ := by
      rw [sampled, found, Option.bind_some, observation]
      dsimp only
      rw [if_neg (UInt64.not_lt.mpr (UInt64.le_of_lt risen)), if_neg some, clamped]
    rw [count, count, own]
    exact ⟨_, taken, delta, rfl⟩

theorem sampled_isSome : (prev.sampled curr provider).isSome ↔ prev.count provider < curr.count provider := by
  constructor
  · intro taken
    by_contra fewer
    rw [sampled_of_le (by omega)] at taken
    cases taken
  · intro more
    obtain ⟨sample, taken, _⟩ := sampled_of_lt more
    rw [taken]
    rfl

end Totals

/-- The average of a provider after a sample. -/
def smoothed (alpha : ℚ) (old : Option ℚ) (seconds : ℚ) : ℚ :=
  match old with
  | some prev => alpha * seconds + (1 - alpha) * prev
  | none => seconds

section Tick

variable {alpha : ℚ} {prev : Totals} {ewmas : String → Option ℚ} {provider : String}

theorem observe_self {seconds : ℚ} (nonneg : 0 ≤ seconds) :
    observe alpha ewmas provider seconds provider = some (smoothed alpha (ewmas provider) seconds) := by
  rw [observe, if_neg (not_lt.mpr nonneg)]
  cases ewmas provider <;> simp [smoothed]

theorem observe_other {other : String} {seconds : ℚ} (different : provider ≠ other) :
    observe alpha ewmas other seconds provider = ewmas provider := by
  unfold observe
  split
  · rfl
  · cases ewmas other <;> exact Function.update_of_ne different ..

theorem observation_nonneg {c : LatencyTotal} {sample : Sample} (taken : observation prev provider c = some sample) :
    0 ≤ sample.seconds := by
  unfold observation at taken
  dsimp only at taken
  split at taken
  · cases taken
  · split at taken
    · cases taken
    · cases taken
      have clamped (x : ℚ) : 0 ≤ if x < 0 then 0 else x := by
        split <;> linarith
      exact div_nonneg (clamped _) (Nat.cast_nonneg _)

/-- The average of a provider after a sample, if one was taken. -/
def averageAfter (alpha : ℚ) (old : Option ℚ) : Option Sample → Option ℚ
  | none => old
  | some sample => some (smoothed alpha old sample.seconds)

namespace Poller

theorem visit_self (c : LatencyTotal) :
    visit alpha prev ewmas ⟨provider, c⟩ provider =
      averageAfter alpha (ewmas provider) (observation prev provider c) := by
  cases taken : observation prev provider c with
  | none => simp only [visit, taken, averageAfter]
  | some sample =>
    simp only [visit, taken, averageAfter]
    exact observe_self (observation_nonneg taken)

theorem visit_other {e : Sigma fun _ : String => LatencyTotal} (different : provider ≠ e.1) :
    visit alpha prev ewmas e provider = ewmas provider := by
  cases taken : observation prev e.1 e.2 with
  | none => simp only [visit, taken]
  | some sample =>
    simp only [visit, taken]
    exact observe_other different

/-- The loop over the entries changes the average of each provider at most once,
whatever the order of the entries is. -/
theorem foldl_visit {entries : List (Sigma fun _ : String => LatencyTotal)} (distinct : entries.NodupKeys) :
    entries.foldl (visit alpha prev) ewmas provider =
      averageAfter alpha (ewmas provider) ((entries.dlookup provider).bind (observation prev provider)) := by
  induction entries generalizing ewmas with
  | nil => rfl
  | cons e rest ih =>
    obtain ⟨own, distinct⟩ := List.nodupKeys_cons.mp distinct
    rw [List.foldl_cons, ih distinct]
    by_cases same : provider = e.1
    · obtain ⟨name, c⟩ := e
      subst same
      rw [List.dlookup_eq_none.mpr own, List.dlookup_cons_eq, visit_self]
      rfl
    · rw [List.dlookup_cons_ne _ _ same, visit_other same]

variable {s : Poller} {curr : Totals}

theorem tick_ewmas : (s.tick alpha curr).ewmas provider =
    averageAfter alpha (s.ewmas provider) (s.prev.sampled curr provider) :=
  foldl_visit curr.nodupKeys

/-- While the loop runs, the average of a provider is the one from before the tick
or the one from after it. -/
theorem range_ewmas (visited : Nat) : s.range alpha curr visited provider = s.ewmas provider ∨
    s.range alpha curr visited provider = (s.tick alpha curr).ewmas provider := by
  have front : ((curr.entries.take visited)).NodupKeys := curr.nodupKeys.sublist (List.take_sublist _ _)
  have whole : curr.lookup provider = ((curr.entries.take visited).dlookup provider).or
      ((curr.entries.drop visited).dlookup provider) := by
    rw [← List.dlookup_append, List.take_append_drop]
    rfl
  rw [range, foldl_visit front, tick_ewmas, Totals.sampled, whole]
  cases (curr.entries.take visited).dlookup provider with
  | none => exact .inl rfl
  | some c => exact .inr rfl

end Poller

end Tick

namespace Poller

variable {alpha : ℚ} {reader : Nat → Totals} {provider : String} {n : Nat}

@[simp] theorem run_prev : (run alpha reader n).prev = reader n := by
  cases n <;> rfl

/-- The sample that a tick of the run takes of the provider. -/
def sampleAt (reader : Nat → Totals) (provider : String) (i : Nat) : Option Sample :=
  (reader i).sampled (reader (i + 1)) provider

theorem run_succ_ewmas : (run alpha reader (n + 1)).ewmas provider =
    averageAfter alpha ((run alpha reader n).ewmas provider) (sampleAt reader provider n) := by
  rw [run, tick_ewmas, run_prev, sampleAt]

/-- The averages observed in the first ticks. -/
def observed (reader : Nat → Totals) (provider : String) (n : Nat) : Set ℚ :=
  {x | ∃ i < n, ∃ sample, sampleAt reader provider i = some sample ∧ sample.seconds = x}

theorem mem_observed_succ {x : ℚ} : x ∈ observed reader provider (n + 1) ↔
    x ∈ observed reader provider n ∨ ∃ sample, sampleAt reader provider n = some sample ∧ sample.seconds = x := by
  constructor
  · rintro ⟨i, bound, taken⟩
    rcases Nat.lt_succ_iff_lt_or_eq.mp bound with earlier | rfl
    · exact .inl ⟨i, earlier, taken⟩
    · exact .inr taken
  · rintro (⟨i, bound, taken⟩ | taken)
    · exact ⟨i, Nat.lt_succ_of_lt bound, taken⟩
    · exact ⟨n, Nat.lt_succ_self n, taken⟩

theorem observed_succ_none (quiet : sampleAt reader provider n = none) :
    observed reader provider (n + 1) = observed reader provider n := by
  ext x
  simp [mem_observed_succ, quiet]

theorem observed_succ_some {sample : Sample} (taken : sampleAt reader provider n = some sample) :
    observed reader provider (n + 1) = insert sample.seconds (observed reader provider n) := by
  ext x
  simp [mem_observed_succ, taken, or_comm, eq_comm]

theorem sampleAt_nonneg {i : Nat} {sample : Sample} (taken : sampleAt reader provider i = some sample) :
    0 ≤ sample.seconds := by
  obtain ⟨c, _, seen⟩ := Option.bind_eq_some_iff.mp taken
  exact observation_nonneg seen

theorem average_mem_Icc (low : 0 ≤ alpha) (high : alpha ≤ 1) {least greatest x v : ℚ} (new : x ∈ Set.Icc least greatest)
    (old : v ∈ Set.Icc least greatest) : alpha * x + (1 - alpha) * v ∈ Set.Icc least greatest := by
  have convex : Convex ℚ (Set.Icc least greatest) := convex_Icc least greatest
  have mixed := convex new old low (sub_nonneg.mpr high) (add_sub_cancel alpha 1)
  rwa [smul_eq_mul, smul_eq_mul] at mixed

/-- The average is missing until the first observation, and then it lies between
the least and the greatest one. -/
theorem run_bounds (low : 0 ≤ alpha) (high : alpha ≤ 1) (reader : Nat → Totals) (provider : String) (n : Nat) :
    (observed reader provider n = ∅ ∧ (run alpha reader n).ewmas provider = none) ∨
      ∃ v least greatest, (run alpha reader n).ewmas provider = some v ∧
        IsLeast (observed reader provider n) least ∧ IsGreatest (observed reader provider n) greatest ∧
        least ≤ v ∧ v ≤ greatest := by
  induction n with
  | zero => exact .inl ⟨by simp [observed], rfl⟩
  | succ n ih =>
    rw [run_succ_ewmas]
    cases taken : sampleAt reader provider n with
    | none => rwa [observed_succ_none taken]
    | some sample =>
      rw [observed_succ_some taken]
      right
      rcases ih with ⟨nothing, missing⟩ | ⟨v, least, greatest, found, isLeast, isGreatest, above, below⟩
      · rw [nothing, missing, insert_empty_eq]
        exact ⟨_, _, _, rfl, isLeast_singleton, isGreatest_singleton, le_rfl, le_rfl⟩
      · rw [found]
        have inside : alpha * sample.seconds + (1 - alpha) * v ∈
            Set.Icc (min sample.seconds least) (max sample.seconds greatest) :=
          average_mem_Icc low high ⟨min_le_left _ _, le_max_left _ _⟩
            ⟨(min_le_right _ _).trans above, below.trans (le_max_right _ _)⟩
        exact ⟨_, _, _, rfl, isLeast.insert _, isGreatest.insert _, inside.1, inside.2⟩

/-- The number of samples that a tick takes of the provider. -/
def deltaAt (reader : Nat → Totals) (provider : String) (i : Nat) : Nat :=
  ((sampleAt reader provider i).map fun sample => sample.deltaCount.toNat).getD 0

theorem deltaAt_eq {i : Nat} (risen : (reader i).count provider ≤ (reader (i + 1)).count provider) :
    (reader i).count provider + deltaAt reader provider i = (reader (i + 1)).count provider := by
  rcases risen.lt_or_eq with more | same
  · obtain ⟨sample, taken, delta, _⟩ := Totals.sampled_of_lt more
    rw [deltaAt, sampleAt, taken, Option.map_some, Option.getD_some, delta]
    omega
  · rw [deltaAt, sampleAt, Totals.sampled_of_le same.ge]
    exact same

/-- The counts of the ticks between two resets add up. -/
theorem sum_deltaAt {a b : Nat} (ordered : a ≤ b)
    (rising : ∀ i, a ≤ i → i < b → (reader i).count provider ≤ (reader (i + 1)).count provider) :
    (reader a).count provider + ∑ i ∈ Finset.Ico a b, deltaAt reader provider i = (reader b).count provider := by
  induction b, ordered using Nat.le_induction with
  | base => simp
  | succ b step ih =>
    have earlier := ih fun i first last => rising i first (Nat.lt_succ_of_lt last)
    have last := deltaAt_eq (rising b step (Nat.lt_succ_self b))
    rw [Finset.sum_Ico_succ_top step]
    omega

/-- The sample with this number is one of those that the tick averages. -/
def Enters (reader : Nat → Totals) (provider : String) (m i : Nat) : Prop :=
  ∃ sample, sampleAt reader provider i = some sample ∧
    (reader i).count provider ≤ m ∧ m < (reader i).count provider + sample.deltaCount.toNat

theorem enters_iff {m i : Nat} :
    Enters reader provider m i ↔ (reader i).count provider ≤ m ∧ m < (reader (i + 1)).count provider := by
  constructor
  · rintro ⟨sample, taken, first, last⟩
    have more := Totals.sampled_isSome.mp (Option.isSome_of_eq_some taken)
    obtain ⟨_, same, delta, _⟩ := Totals.sampled_of_lt more
    cases Option.some.inj (taken.symm.trans same)
    omega
  · rintro ⟨first, last⟩
    obtain ⟨sample, taken, delta, _⟩ := Totals.sampled_of_lt (Nat.lt_of_le_of_lt first last)
    exact ⟨sample, taken, first, by omega⟩

/-- Over every sequence of snapshots no count wraps and no average divides by
zero, each sample between two resets is averaged once, and the moving average
stays between the averages observed. -/
theorem poller_averages_once {alpha : ℚ} (low : 0 ≤ alpha) (high : alpha ≤ 1) (reader : Nat → Totals)
    (provider : String) :
    (∀ i sample, sampleAt reader provider i = some sample →
      (reader i).count provider ≤ (reader (i + 1)).count provider ∧
      sample.deltaCount.toNat = (reader (i + 1)).count provider - (reader i).count provider ∧
      sample.deltaCount.toNat ≠ 0 ∧ 0 ≤ sample.seconds ∧
      sample.seconds * sample.deltaCount.toNat =
        max 0 (((reader (i + 1)).entry provider).sum - ((reader i).entry provider).sum)) ∧
    (∀ a b, a ≤ b → (∀ i, a ≤ i → i < b → (reader i).count provider ≤ (reader (i + 1)).count provider) →
      ∑ i ∈ Finset.Ico a b, deltaAt reader provider i = (reader b).count provider - (reader a).count provider ∧
      ∀ m, (reader a).count provider ≤ m → m < (reader b).count provider →
        ∃! i, (a ≤ i ∧ i < b) ∧ Enters reader provider m i) ∧
    (∀ n, (observed reader provider n = ∅ ∧ (run alpha reader n).ewmas provider = none) ∨
      ∃ v least greatest, (run alpha reader n).ewmas provider = some v ∧
        IsLeast (observed reader provider n) least ∧ IsGreatest (observed reader provider n) greatest ∧
        0 ≤ least ∧ least ≤ v ∧ v ≤ greatest) ∧
    (∀ n visited, (run alpha reader n).range alpha (reader (n + 1)) visited provider =
        (run alpha reader n).ewmas provider ∨
      (run alpha reader n).range alpha (reader (n + 1)) visited provider =
        (run alpha reader (n + 1)).ewmas provider) ∧
    ∀ n, (reader (n + 1)).count provider ≤ (reader n).count provider →
      (run alpha reader (n + 1)).ewmas provider = (run alpha reader n).ewmas provider := by
  refine ⟨?_, ?_, ?_, ?_, ?_⟩
  · intro i sample taken
    have more := Totals.sampled_isSome.mp (Option.isSome_of_eq_some taken)
    obtain ⟨_, same, delta, average⟩ := Totals.sampled_of_lt more
    cases Option.some.inj (taken.symm.trans same)
    have positive : sample.deltaCount.toNat ≠ 0 := by omega
    have divisor : (sample.deltaCount.toNat : ℚ) ≠ 0 := Nat.cast_ne_zero.mpr positive
    refine ⟨more.le, delta, positive, sampleAt_nonneg taken, ?_⟩
    rw [average, div_mul_cancel₀ _ divisor]
  · intro a b ordered rising
    have sum := sum_deltaAt ordered rising
    refine ⟨by omega, fun m first last => ?_⟩
    simp only [enters_iff]
    exact Cumulative.existsUnique_step rising ordered first last
  · intro n
    refine (run_bounds low high reader provider n).imp_right ?_
    rintro ⟨v, least, greatest, found, isLeast, isGreatest, above, below⟩
    obtain ⟨i, _, sample, taken, value⟩ := isLeast.1
    exact ⟨v, least, greatest, found, isLeast, isGreatest, value ▸ sampleAt_nonneg taken, above, below⟩
  · exact fun n visited => range_ewmas visited
  · intro n fewer
    rw [run_succ_ewmas, sampleAt, Totals.sampled_of_le fewer]
    rfl

/-- Five samples, a reset to one and two more. -/
def resetReader : Nat → Totals
  | 0 => ∅
  | 1 => AList.singleton "openai" ⟨10, 5⟩
  | 2 => AList.singleton "openai" ⟨1, 1⟩
  | _ => AList.singleton "openai" ⟨3, 3⟩

theorem poller_averages_once_reset :
    deltaAt resetReader "openai" 0 = 5 ∧ (run (1 / 2) resetReader 3).ewmas "openai" = some (3 / 2) ∧
      (run (1 / 2) resetReader 2).ewmas "openai" = (run (1 / 2) resetReader 1).ewmas "openai" := by
  obtain ⟨_, counts, _, _, quiet⟩ :=
    poller_averages_once (by norm_num : (0 : ℚ) ≤ 1 / 2) (by norm_num) resetReader "openai"
  obtain ⟨sum, _⟩ := counts 0 1 (by decide) (by decide)
  have five : (resetReader 1).count "openai" - (resetReader 0).count "openai" = 5 := rfl
  rw [Nat.Ico_succ_singleton, Finset.sum_singleton, five] at sum
  exact ⟨sum, by decide +kernel, quiet 1 (by decide)⟩

end Poller

end LlmGateway
