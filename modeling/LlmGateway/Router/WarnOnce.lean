import Mathlib.Data.List.Sort
import Mathlib.Data.String.Basic
import LlmGateway.Lib.Numeral
import LlmGateway.Lib.OnceTable
import LlmGateway.Router.Ranked

namespace LlmGateway

/-- A group's candidate was skipped, or no candidate of a call has cost data. -/
inductive RouteWarning where
  | skip (provider model : String)
  | cost (group : String) (candidates : List Candidate)

/-- The keys of the two maps of `sync.Once` values, that of `warnSkipOnce` and that of
`warnFor`. The maps live as long as the process. -/
inductive WarningSlot where
  | skipWarnOnce (key : String)
  | warnOnce (key : String)
deriving DecidableEq, Repr

def warnKey (group : String) (candidates : List Candidate) : String :=
  group ++ "\x00" ++ ",".intercalate ((candidates.map Candidate.model).mergeSort fun a b => decide (a ≤ b))

def RouteWarning.slot : RouteWarning → WarningSlot
  | .skip provider model => .skipWarnOnce (provider ++ "\x00" ++ model)
  | .cost group candidates => .warnOnce (warnKey group candidates)

/-- A call of `Route`, with the breakers as it finds them. -/
structure RouteCall where
  hs : Breakers
  now : Int
  req : Option ChatCompletionRequest

namespace Router

/-- What `expandGroup` warns about. -/
def skipped (r : Router) (g : ModelGroupConfig) : List RouteWarning :=
  g.candidates.filterMap fun c =>
    match r.registry.resolve c.model with
    | .error _ => some (.skip c.provider c.model)
    | .ok _ => none

/-- What a call of `Route` warns about, in order. -/
def warnings (r : Router) (call : RouteCall) : List RouteWarning :=
  match call.req with
  | none => []
  | some req =>
    let skipped := match r.groups.lookup req.model with
      | some g => r.skipped g
      | none => []
    match r.resolveCandidates req.model with
    | .error _ => skipped
    | .ok (group, candidates) =>
      let candidates := filterHealthy call.hs call.now candidates
      if candidates.length ≠ 0 ∧ r.strategyFor group = .costOptimized ∧
          Slice.scanMin (costScore req) none 0 candidates = none then
        skipped ++ [.cost group candidates]
      else skipped

end Router

namespace RouteWarning

/-- The two warnings say the same: the same pair, or the same group with the same
models in some order. -/
def Same : RouteWarning → RouteWarning → Prop
  | .skip provider model, .skip provider' model' => provider = provider' ∧ model = model'
  | .cost group cs, .cost group' cs' =>
    group = group' ∧ (cs.map Candidate.model).Perm (cs'.map Candidate.model)
  | _, _ => False

/-- The separators of the keys do not occur in the fields before them. -/
def Plain : RouteWarning → Prop
  | .skip provider _ => '\x00' ∉ provider.toList
  | .cost group candidates => '\x00' ∉ group.toList ∧ ∀ c ∈ candidates, ',' ∉ c.model.toList

/-- The strategy is only asked when there are candidates. -/
def Filled : RouteWarning → Prop
  | .skip _ _ => True
  | .cost _ candidates => candidates ≠ []

end RouteWarning

theorem join_injective {names names' : List String} (filled : names ≠ []) (filled' : names' ≠ [])
    (plain : ∀ name ∈ names, ',' ∉ name.toList) (plain' : ∀ name ∈ names', ',' ∉ name.toList)
    (same : ",".intercalate names = ",".intercalate names') : names = names' := by
  have split {l : List String} (some_ : l ≠ []) (free : ∀ name ∈ l, ',' ∉ name.toList) :
      List.splitOn ',' (",".intercalate l).toList = l.map String.toList := by
    rw [String.toList_intercalate]
    exact List.splitOn_intercalate ',' (by simpa using free) (by simpa using some_)
  have lists := split filled plain
  rw [same, split filled' plain'] at lists
  exact (List.map_injective_iff.mpr (fun _ _ => String.toList_injective) lists).symm

theorem separated_injective {a a' b b' : String} (left : '\x00' ∉ a.toList) (left' : '\x00' ∉ a'.toList)
    (same : a ++ "\x00" ++ b = a' ++ "\x00" ++ b') : a = a' ∧ b = b' := by
  have lists : a.toList ++ '\x00' :: b.toList = a'.toList ++ '\x00' :: b'.toList := by
    simpa using congrArg String.toList same
  obtain ⟨first, second⟩ := Numeral.split_first left left' lists
  exact ⟨String.toList_injective first, String.toList_injective second⟩

theorem mergeSort_eq_iff {l l' : List String} :
    (l.mergeSort fun a b => decide (a ≤ b)) = l'.mergeSort (fun a b => decide (a ≤ b)) ↔ l.Perm l' := by
  constructor
  · intro same
    exact ((List.mergeSort_perm l _).symm.trans (.of_eq same)).trans (List.mergeSort_perm l' _)
  · intro perm
    have sorted (l : List String) : (l.mergeSort fun a b => decide (a ≤ b)).Pairwise (· ≤ ·) := by
      refine (List.pairwise_mergeSort ?_ ?_ l).imp of_decide_eq_true
      · intro a b c first second
        exact decide_eq_true ((of_decide_eq_true first).trans (of_decide_eq_true second))
      · intro a b
        simpa using le_total a b
    exact List.Perm.eq_of_pairwise (fun a b _ _ => le_antisymm) (sorted l) (sorted l')
      (((List.mergeSort_perm l _).trans perm).trans (List.mergeSort_perm l' _).symm)

theorem warnKey_eq_of_perm (group : String) {cs cs' : List Candidate}
    (perm : (cs.map Candidate.model).Perm (cs'.map Candidate.model)) : warnKey group cs = warnKey group cs' := by
  rw [warnKey, warnKey, mergeSort_eq_iff.mpr perm]

theorem same_of_warnKey_eq {group group' : String} {cs cs' : List Candidate} (filled : cs ≠ []) (filled' : cs' ≠ [])
    (plain : (RouteWarning.cost group cs).Plain) (plain' : (RouteWarning.cost group' cs').Plain)
    (same : warnKey group cs = warnKey group' cs') : (RouteWarning.cost group cs).Same (.cost group' cs') := by
  have names {cs : List Candidate} (free : ∀ c ∈ cs, ',' ∉ c.model.toList) :
      ∀ name ∈ (cs.map Candidate.model).mergeSort fun a b => decide (a ≤ b), ',' ∉ name.toList := by
    intro name member
    obtain ⟨c, listed, rfl⟩ := List.mem_map.mp ((List.mergeSort_perm _ _).subset member)
    exact free c listed
  have some_ {cs : List Candidate} (filled : cs ≠ []) :
      ((cs.map Candidate.model).mergeSort fun a b => decide (a ≤ b)) ≠ [] := by
    intro empty
    exact filled (List.map_eq_nil_iff.mp ((List.mergeSort_perm _ _).symm.trans (.of_eq empty)).eq_nil)
  obtain ⟨groups, joined⟩ := separated_injective plain.1 plain'.1 same
  have models := join_injective (some_ filled) (some_ filled') (names plain.2) (names plain'.2) joined
  exact ⟨groups, mergeSort_eq_iff.mp models⟩

theorem RouteWarning.slot_eq_of_same {w w' : RouteWarning} (same : w.Same w') : w.slot = w'.slot := by
  cases w with
  | skip provider model =>
    cases w' with
    | skip provider' model' =>
      obtain ⟨rfl, rfl⟩ := same
      rfl
    | cost group cs => cases same
  | cost group cs =>
    cases w' with
    | skip provider model => cases same
    | cost group' cs' =>
      obtain ⟨rfl, perm⟩ := same
      rw [slot, slot, warnKey_eq_of_perm group perm]

/-- Two warnings share an entry only if they say the same, where no name holds a
separator. -/
theorem RouteWarning.same_of_slot_eq {w w' : RouteWarning} (filled : w.Filled) (filled' : w'.Filled)
    (plain : w.Plain) (plain' : w'.Plain) (shared : w.slot = w'.slot) : w.Same w' := by
  cases w with
  | skip provider model =>
    cases w' with
    | skip provider' model' => exact separated_injective plain plain' (WarningSlot.skipWarnOnce.inj shared)
    | cost group cs => cases shared
  | cost group cs =>
    cases w' with
    | skip provider model => cases shared
    | cost group' cs' => exact same_of_warnKey_eq filled filled' plain plain' (WarningSlot.warnOnce.inj shared)

namespace Router

variable {r : Router} {call : RouteCall} {req : ChatCompletionRequest}

theorem skip_mem_warnings {g : ModelGroupConfig} (asked : call.req = some req)
    (group : r.groups.lookup req.model = some g) {w : RouteWarning} (member : w ∈ r.skipped g) :
    w ∈ r.warnings call := by
  rw [warnings, asked]
  simp only [resolveCandidates, group]
  split
  · exact List.mem_append_left _ member
  · exact member

theorem filled_of_mem_warnings {w : RouteWarning} (member : w ∈ r.warnings call) : w.Filled := by
  have skips {g : ModelGroupConfig} (listed : w ∈ r.skipped g) : w.Filled := by
    obtain ⟨c, -, found⟩ := List.mem_filterMap.mp listed
    cases resolved : r.registry.resolve c.model with
    | error e =>
      rw [resolved] at found
      cases found
      trivial
    | ok p =>
      rw [resolved] at found
      cases found
  cases asked : call.req with
  | none => simp [warnings, asked] at member
  | some req =>
    have group (listed : w ∈ (match r.groups.lookup req.model with
        | some g => r.skipped g
        | none => [])) : w.Filled := by
      split at listed
      · exact skips listed
      · cases listed
    simp only [warnings, asked] at member
    split at member
    · exact group member
    · split at member
      · rename_i warns
        rcases List.mem_append.mp member with listed | new
        · exact group listed
        · obtain rfl := List.mem_singleton.mp new
          exact List.ne_nil_of_length_pos (Nat.pos_of_ne_zero warns.1)
      · exact group member

/-- A candidate of a group is offered to the strategy or warned about. -/
theorem offered_or_skipped {g : ModelGroupConfig} {c : CandidateConfig} (member : c ∈ g.candidates) :
    (∃ offered ∈ r.expandGroup g, offered.model = c.model) ∨ .skip c.provider c.model ∈ r.skipped g := by
  cases found : r.registry.resolve c.model with
  | error e => exact .inr (List.mem_filterMap.mpr ⟨c, member, by rw [found]⟩)
  | ok p => exact .inl ⟨_, List.mem_filterMap.mpr ⟨c, member, by rw [found]⟩, rfl⟩

omit r call in
/-- Only `CostOptimized` without cost data moves its fallback's counters. -/
theorem unpriced_of_fallback {kind : StrategyKind} {st : StrategyState} {draw : ℚ} {cs : List Candidate}
    {group : String} (filled : cs ≠ [])
    (fell : (kind.select st draw cs req group).2.costFallback ≠ st.costFallback) :
    kind = .costOptimized ∧ Slice.scanMin (costScore req) none 0 cs = none := by
  cases kind with
  | costOptimized =>
    rw [select_costOptimized filled] at fell
    exact ⟨rfl, Slice.scanMin_eq_none.mpr ((selectScored_counters _ filled _ group).mp fell)⟩
  | latencyOptimized => exact absurd rfl fell
  | roundRobin => exact absurd rfl fell
  | weighted => exact absurd rfl fell
  | priority => exact absurd rfl fell

/-- A call that falls back to the round robin of `CostOptimized` warns. -/
theorem cost_mem_warnings (asked : call.req = some req) {st : StrategyState} {draw : ℚ}
    (fell : (r.route call.hs call.now st draw (some req)).2.costFallback ≠ st.costFallback) :
    ∃ group cs, r.resolveCandidates req.model = .ok (group, cs) ∧
      .cost group (filterHealthy call.hs call.now cs) ∈ r.warnings call := by
  cases resolved : r.resolveCandidates req.model with
  | error e => simp [route, resolved] at fell
  | ok found =>
    obtain ⟨group, cs⟩ := found
    refine ⟨group, cs, rfl, ?_⟩
    simp only [route, resolved] at fell
    by_cases empty : (filterHealthy call.hs call.now cs).length = 0
    · simp [empty] at fell
    · have moved : ((r.strategyFor group).select st draw (filterHealthy call.hs call.now cs) req group).2.costFallback ≠
          st.costFallback := by
        rw [if_neg empty] at fell
        split at fell
        · rename_i same
          rw [same]
          exact fell
        · rename_i same
          rw [same]
          exact fell
      obtain ⟨chosen, unpriced⟩ := unpriced_of_fallback (fun none => empty (by rw [none]; rfl)) moved
      simp [warnings, asked, resolved, empty, chosen, unpriced]

end Router

/-- A call comes in, or the `i`-th call makes its next step. -/
inductive RouteStep where
  | call (c : RouteCall)
  | move (i : Nat)

namespace RouteStep

def action (r : Router) : RouteStep → OnceTable.Action RouteWarning
  | .call c => .enter (r.warnings c)
  | .move i => .move i

def called : RouteStep → Option RouteCall
  | .call c => some c
  | .move _ => none

theorem entered_action (r : Router) (step : RouteStep) : (step.action r).entered = step.called.map r.warnings := by
  cases step <;> rfl

end RouteStep

namespace Router

/-- The state of the two maps and the calls after the steps. -/
def warned (r : Router) (steps : List RouteStep) : Option (OnceTable.Table WarningSlot RouteWarning) :=
  Transition.run (OnceTable.step RouteWarning.slot) OnceTable.start (steps.map (RouteStep.action r))

variable {r : Router} {steps : List RouteStep} {s : OnceTable.Table WarningSlot RouteWarning}

theorem given_warned (taken : r.warned steps = some s) :
    s.callers.map OnceTable.Caller.given = (steps.filterMap RouteStep.called).map r.warnings := by
  rw [OnceTable.given_run taken, List.filterMap_map, List.map_filterMap]
  exact List.filterMap_congr fun step _ => RouteStep.entered_action r step

/-- No two warnings say the same. -/
theorem acted_distinct (taken : r.warned steps = some s) : s.acted.Pairwise (fun w w' => ¬ w.Same w') := by
  have distinct := List.pairwise_map.mp (OnceTable.acted_nodup (OnceTable.phase_run taken))
  exact distinct.imp fun different same => different (RouteWarning.slot_eq_of_same same)

/-- What a finished call had to warn about has been logged, where no name holds a
separator. -/
theorem acted_warned (plain : ∀ c, .call c ∈ steps → ∀ w ∈ r.warnings c, w.Plain)
    (taken : r.warned steps = some s) {i : Nat} {c : RouteCall} {caller : OnceTable.Caller RouteWarning}
    (called : (steps.filterMap RouteStep.called)[i]? = some c) (here : s.callers[i]? = some caller)
    (finished : caller.todo = []) {w : RouteWarning} (member : w ∈ r.warnings c) :
    ∃ logged ∈ s.acted, logged.Same w := by
  have calls {c : RouteCall} (member : c ∈ steps.filterMap RouteStep.called) : .call c ∈ steps := by
    obtain ⟨step, listed, called⟩ := List.mem_filterMap.mp member
    cases step with
    | call c' => exact Option.some.inj called ▸ listed
    | move i => cases called
  have plainly : ∀ w ∈ s.acted, w.Filled ∧ w.Plain := by
    intro w member
    obtain ⟨items, listed, inside⟩ := OnceTable.acted_given taken w member
    rw [given_warned taken] at listed
    obtain ⟨c, called, rfl⟩ := List.mem_map.mp listed
    exact ⟨filled_of_mem_warnings inside, plain c (calls called) w inside⟩
  have given : caller.given = r.warnings c := by
    have both := congrArg (·[i]?) (given_warned taken)
    simpa [here, called] using both
  have passed : w ∈ caller.passed := by
    rw [OnceTable.Caller.given, finished, List.append_nil] at given
    rwa [given]
  obtain ⟨logged, listed, same⟩ :=
    (OnceTable.phase_run taken w.slot).acted_of_passed ⟨i, caller, here, w, passed, rfl⟩
  have asked := plain c (calls (List.mem_of_getElem? called)) w member
  obtain ⟨filled, plainLogged⟩ := plainly _ listed
  exact ⟨logged, listed,
    RouteWarning.same_of_slot_eq filled (filled_of_mem_warnings member) plainLogged asked same⟩

/-- Whatever the calls and their interleaving, no two warnings say the same. When a
call is finished, and no name holds a separator of the keys, each candidate of its group
was offered to the strategy or has been reported, and a fallback for want of cost data
has been reported for this group and these models. -/
theorem warnings_once (taken : r.warned steps = some s) :
    s.acted.Pairwise (fun w w' => ¬ w.Same w') ∧
      ((∀ c, .call c ∈ steps → ∀ w ∈ r.warnings c, w.Plain) →
        ∀ (i : Nat) c caller req, (steps.filterMap RouteStep.called)[i]? = some c → s.callers[i]? = some caller →
          caller.todo = [] → c.req = some req →
          (∀ g, r.groups.lookup req.model = some g → ∀ entry ∈ g.candidates,
            (∃ offered ∈ r.expandGroup g, offered.model = entry.model) ∨
              .skip entry.provider entry.model ∈ s.acted) ∧
          ∀ st draw, (r.route c.hs c.now st draw (some req)).2.costFallback ≠ st.costFallback →
            ∃ group cs reported, r.resolveCandidates req.model = .ok (group, cs) ∧ .cost group reported ∈ s.acted ∧
              (reported.map Candidate.model).Perm ((filterHealthy c.hs c.now cs).map Candidate.model)) := by
  refine ⟨acted_distinct taken, fun plain i c caller req called here finished asked => ⟨?_, ?_⟩⟩
  · intro g group entry member
    rcases offered_or_skipped member with offered | skipped
    · exact .inl offered
    · obtain ⟨w, listed, same⟩ := acted_warned plain taken called here finished
        (skip_mem_warnings asked group skipped)
      cases w with
      | skip provider model =>
        obtain ⟨rfl, rfl⟩ := same
        exact .inr listed
      | cost => cases same
  · intro st draw fell
    obtain ⟨group, cs, resolved, warned⟩ := cost_mem_warnings asked fell
    obtain ⟨w, listed, same⟩ := acted_warned plain taken called here finished warned
    cases w with
    | skip => cases same
    | cost group' reported =>
      obtain ⟨rfl, perm⟩ := same
      exact ⟨_, cs, reported, resolved, listed, perm⟩

/-- No call waits for ever on the `Once` of another: with no new calls at most five steps
follow for each warning that a call has not come past, and when no call can go on, all of
them are finished. -/
theorem warnings_never_block (taken : r.warned steps = some s) {moves : List Nat}
    {t : OnceTable.Table WarningSlot RouteWarning}
    (later : Transition.run (fun s i => OnceTable.step RouteWarning.slot s (.move i)) s moves = some t) :
    moves.length ≤ 5 * (s.callers.map fun caller => caller.todo.length).sum ∧
      ((∀ i, OnceTable.step RouteWarning.slot t (.move i) = none) → ∀ caller ∈ t.callers, caller.todo = []) := by
  obtain ⟨bound, finished⟩ := OnceTable.winds_down (OnceTable.phase_run taken) later
  refine ⟨?_, finished⟩
  have few := OnceTable.left_le_todo s
  omega

def unconfiguredRouter : Router :=
  ⟨Registry.empty, AList.singleton "fast" ⟨"", [⟨"openai", "gpt-4o", 0, 0, 0, 1⟩]⟩, ∅, .costOptimized, ∅⟩

def fastCall : RouteCall := ⟨fun _ => newProviderHealth ⟨0, 0⟩, 0, some ⟨"fast", [], none⟩⟩

/-- Both calls miss the entry; the second one finds what the first one stored, runs the
action, and the first one comes through behind it. -/
def racingSteps : List RouteStep :=
  [.call fastCall, .call fastCall, .move 0, .move 1, .move 0, .move 1, .move 1, .move 1, .move 1, .move 0]

theorem plain_racing : ∀ c, .call c ∈ racingSteps → ∀ w ∈ unconfiguredRouter.warnings c, w.Plain := by
  intro c called w member
  have same : c = fastCall := by simpa [racingSteps] using called
  rw [same, show unconfiguredRouter.warnings fastCall = [.skip "openai" "gpt-4o"] from rfl] at member
  rw [List.mem_singleton.mp member, RouteWarning.Plain]
  decide

theorem warnings_once_racing :
    ∃ s, unconfiguredRouter.warned racingSteps = some s ∧ s.acted = [.skip "openai" "gpt-4o"] ∧
      s.acted.Pairwise (fun w w' => ¬ w.Same w') ∧
      ∀ g, unconfiguredRouter.groups.lookup "fast" = some g → ∀ entry ∈ g.candidates,
        (∃ offered ∈ unconfiguredRouter.expandGroup g, offered.model = entry.model) ∨
          .skip entry.provider entry.model ∈ s.acted := by
  obtain ⟨s, taken⟩ : ∃ s, unconfiguredRouter.warned racingSteps = some s := ⟨_, rfl⟩
  have logged : s.acted = [.skip "openai" "gpt-4o"] := by
    cases taken
    rfl
  obtain ⟨caller, here, finished⟩ : ∃ caller, s.callers[0]? = some caller ∧ caller.todo = [] := by
    cases taken
    exact ⟨_, rfl, rfl⟩
  obtain ⟨distinct, reported⟩ := warnings_once taken
  exact ⟨s, taken, logged, distinct, (reported plain_racing 0 fastCall caller _ rfl here finished rfl).1⟩

theorem warnings_never_block_racing :
    ∃ s t, unconfiguredRouter.warned (racingSteps.take 2) = some s ∧
      Transition.run (fun s i => OnceTable.step RouteWarning.slot s (.move i)) s [0, 1, 0, 1, 1, 1, 1, 0] = some t ∧
      8 ≤ 5 * (s.callers.map fun caller => caller.todo.length).sum ∧ ∀ caller ∈ t.callers, caller.todo = [] := by
  obtain ⟨s, taken⟩ : ∃ s, unconfiguredRouter.warned (racingSteps.take 2) = some s := ⟨_, rfl⟩
  obtain ⟨t, later⟩ : ∃ t, Transition.run (fun s i => OnceTable.step RouteWarning.slot s (.move i)) s
      [0, 1, 0, 1, 1, 1, 1, 0] = some t := by
    cases taken
    exact ⟨_, rfl⟩
  obtain ⟨bound, finished⟩ := warnings_never_block taken later
  refine ⟨s, t, taken, later, bound, finished fun i => ?_⟩
  cases taken
  cases later
  match i with
  | 0 => rfl
  | 1 => rfl
  | i + 2 => rfl

end Router

end LlmGateway
