import LlmGateway.Router.Poller

namespace LlmGateway

/-- A call of `RecordProviderRequest`, without the status that only its counter has. -/
structure ProviderCall where
  provider : String
  seconds : ℚ
deriving DecidableEq, Repr

/-- The histogram of `RecordProviderRequest`, as `ProviderLatencyTotals` reads it. -/
def recordProviderRequest (totals : Totals) (call : ProviderCall) : Totals :=
  let total := totals.entry call.provider
  totals.insert call.provider ⟨total.sum + call.seconds, total.count + 1⟩

/-- The histogram after the first calls. -/
def totalsAfter (calls : Nat → ProviderCall) : Nat → Totals
  | 0 => ∅
  | m + 1 => recordProviderRequest (totalsAfter calls m) (calls m)

/-- The durations of the provider's calls from one number to another. -/
def durations (calls : Nat → ProviderCall) (provider : String) (a b : Nat) : List ℚ :=
  ((List.range' a (b - a)).filter fun i => (calls i).provider = provider).map fun i => (calls i).seconds

def mean (window : List ℚ) : ℚ := window.sum / window.length

/-- What the averages are meant to be: the mean of each window in which there were
calls, folded into the average so far. -/
def windowedAverage (alpha : ℚ) (windows : Nat → List ℚ) : Nat → Option ℚ
  | 0 => none
  | n + 1 =>
    if windows n = [] then windowedAverage alpha windows n
    else some (smoothed alpha (windowedAverage alpha windows n) (mean (windows n)))

/-- The reader finds the total of each provider as it was after some number of calls, and
later ones later. The counter has not come to its end. -/
structure Snapshots (calls : Nat → ProviderCall) (cut : Nat → String → Nat) (reader : Nat → Totals) : Prop where
  found : ∀ i provider, (reader i).lookup provider = (totalsAfter calls (cut i provider)).lookup provider
  later : ∀ i provider, cut i provider ≤ cut (i + 1) provider
  small : ∀ i provider, (durations calls provider 0 (cut i provider)).length < 2 ^ 64

section

variable {calls : Nat → ProviderCall} {provider : String} {a b c m : Nat}

theorem durations_append (first : a ≤ b) (second : b ≤ c) :
    durations calls provider a c = durations calls provider a b ++ durations calls provider b c := by
  have split : List.range' a (c - a) = List.range' a (b - a) ++ List.range' b (c - b) := by
    have whole := List.range'_append_1 (s := a) (m := b - a) (n := c - b)
    rw [show a + (b - a) = b by omega, show b - a + (c - b) = c - a by omega] at whole
    exact whole.symm
  rw [durations, split, List.filter_append, List.map_append]
  rfl

theorem durations_succ :
    durations calls provider 0 (m + 1) =
      durations calls provider 0 m ++ if (calls m).provider = provider then [(calls m).seconds] else [] := by
  rw [durations_append (Nat.zero_le m) (Nat.le_succ m)]
  congr 1
  simp only [durations, show m + 1 - m = 1 by omega, List.range'_one, List.filter_cons, List.filter_nil,
    decide_eq_true_eq]
  split <;> rfl

theorem entry_totalsAfter (calls : Nat → ProviderCall) (provider : String) (m : Nat) :
    (totalsAfter calls m).entry provider =
      ⟨(durations calls provider 0 m).sum, UInt64.ofNat (durations calls provider 0 m).length⟩ := by
  induction m with
  | zero => rfl
  | succ m ih =>
    rw [totalsAfter, recordProviderRequest, durations_succ]
    by_cases own : (calls m).provider = provider
    · subst own
      rw [if_pos rfl, Totals.entry, AList.lookup_insert, Option.getD_some, ih, List.sum_append, List.sum_singleton,
        List.length_append, List.length_singleton, UInt64.ofNat_add]
      rfl
    · rw [if_neg own, List.append_nil, Totals.entry, AList.lookup_insert_ne (Ne.symm own)]
      exact ih

theorem durations_nonneg (nonneg : ∀ i, 0 ≤ (calls i).seconds) : 0 ≤ (durations calls provider a b).sum := by
  refine List.sum_nonneg fun seconds member => ?_
  obtain ⟨i, -, rfl⟩ := List.mem_map.mp member
  exact nonneg i

namespace Snapshots

variable {cut : Nat → String → Nat} {reader : Nat → Totals}

theorem entry (snapshots : Snapshots calls cut reader) (i : Nat) (provider : String) :
    (reader i).entry provider = ⟨(durations calls provider 0 (cut i provider)).sum,
      UInt64.ofNat (durations calls provider 0 (cut i provider)).length⟩ := by
  rw [← entry_totalsAfter, Totals.entry, snapshots.found]
  rfl

theorem count (snapshots : Snapshots calls cut reader) (i : Nat) (provider : String) :
    (reader i).count provider = (durations calls provider 0 (cut i provider)).length := by
  rw [Totals.count, snapshots.entry]
  exact Nat.mod_eq_of_lt (snapshots.small i provider)

/-- The difference of two totals is the mean of the calls in between. -/
theorem sampleAt_eq (snapshots : Snapshots calls cut reader) (nonneg : ∀ i, 0 ≤ (calls i).seconds) (i : Nat)
    (provider : String) :
    (Poller.sampleAt reader provider i).map Sample.seconds =
      let window := durations calls provider (cut i provider) (cut (i + 1) provider)
      if window = [] then none else some (mean window) := by
  have whole : durations calls provider 0 (cut (i + 1) provider) = durations calls provider 0 (cut i provider) ++
      durations calls provider (cut i provider) (cut (i + 1) provider) :=
    durations_append (Nat.zero_le _) (snapshots.later i provider)
  have before := snapshots.count i provider
  have after := snapshots.count (i + 1) provider
  rw [whole, List.length_append] at after
  dsimp only
  by_cases quiet : durations calls provider (cut i provider) (cut (i + 1) provider) = []
  · rw [quiet, List.length_nil] at after
    rw [if_pos quiet, Poller.sampleAt, Totals.sampled_of_le (by omega)]
    rfl
  · have some := List.length_pos_iff.mpr quiet
    have more : (reader i).count provider < (reader (i + 1)).count provider := by omega
    obtain ⟨sample, taken, delta, average⟩ := Totals.sampled_of_lt more
    have samples : sample.deltaCount.toNat =
        (durations calls provider (cut i provider) (cut (i + 1) provider)).length := by omega
    rw [if_neg quiet, Poller.sampleAt, taken, Option.map_some, average, snapshots.entry, snapshots.entry, whole,
      List.sum_append, add_sub_cancel_left, max_eq_right (durations_nonneg nonneg), samples, mean]

end Snapshots

/-- The averages of the poller are those of the windows between its reads: every call
counts in one window, with the others of its provider, and none from before the start. -/
theorem poller_measures_windows {cut : Nat → String → Nat} {reader : Nat → Totals}
    (snapshots : Snapshots calls cut reader) (nonneg : ∀ i, 0 ≤ (calls i).seconds) (alpha : ℚ) (provider : String)
    (n : Nat) :
    (Poller.run alpha reader n).ewmas provider =
      windowedAverage alpha (fun i => durations calls provider (cut i provider) (cut (i + 1) provider)) n := by
  induction n with
  | zero => rfl
  | succ n ih =>
    have sample := snapshots.sampleAt_eq nonneg n provider
    rw [Poller.run_succ_ewmas, ih, windowedAverage]
    dsimp only at sample ⊢
    cases taken : Poller.sampleAt reader provider n with
    | none =>
      rw [taken, Option.map_none] at sample
      split at sample
      · rename_i quiet
        rw [if_pos quiet]
        rfl
      · cases sample
    | some found =>
      rw [taken, Option.map_some] at sample
      split at sample
      · cases sample
      · rename_i busy
        rw [if_neg busy, ← Option.some.inj sample]
        rfl

end

def risingCalls (i : Nat) : ProviderCall := ⟨"openai", i + 1⟩

/-- Two calls between one read and the next, and none after the third. -/
def twoCallCuts (i : Nat) (_ : String) : Nat := min (2 * i) 4

theorem poller_measures_windows_rising :
    (Poller.run (1 / 2) (fun i => totalsAfter risingCalls (twoCallCuts i "openai")) 2).ewmas "openai" = some (5 / 2) ∧
      (Poller.run (1 / 2) (fun i => totalsAfter risingCalls (twoCallCuts i "openai")) 2).ewmas "openai" =
        windowedAverage (1 / 2) (fun i => durations risingCalls "openai" (twoCallCuts i "openai")
          (twoCallCuts (i + 1) "openai")) 2 := by
  have snapshots : Snapshots risingCalls twoCallCuts fun i => totalsAfter risingCalls (twoCallCuts i "openai") := {
    found := fun _ _ => rfl
    later := fun i _ => by simp only [twoCallCuts]; omega
    small := by
      intro i provider
      have fewer : (durations risingCalls provider 0 (twoCallCuts i provider)).length ≤ twoCallCuts i provider := by
        rw [durations, List.length_map]
        exact (List.length_filter_le _ _).trans (List.length_range' ..).le
      simp only [twoCallCuts] at fewer ⊢
      omega }
  have nonneg (i : Nat) : 0 ≤ (risingCalls i).seconds := by simp only [risingCalls]; positivity
  have same := poller_measures_windows snapshots nonneg (1 / 2) "openai" 2
  refine ⟨?_, same⟩
  rw [same]
  decide +kernel

end LlmGateway
