import LlmGateway.RateLimit.Replies

namespace LlmGateway

/-- The requests of one key at all instances: the stamp of the last step, how many
requests are being served, and what has been recorded of the served ones, newest first. -/
structure MeteredState (ι : Type) where
  limiter : LimiterState ι
  now : Int
  inFlight : Nat
  recorded : List (Int × Int)

inductive MeteredAction (ι : Type) where
  | arrive (i : ι) (nowMs : Int)
  | depart (i : ι) (nowMs tokens : Int)

def MeteredAction.stamp {ι : Type} : MeteredAction ι → Int
  | .arrive _ nowMs => nowMs
  | .depart _ nowMs _ => nowMs

/-- The limits of the key's record, the number of requests the gateways serve at a
time, and a bound on the tokens of one request. -/
structure Metering where
  rpm : Int
  tpm : Int
  concurrency : Nat
  most : Nat

namespace Metering

variable {ι : Type} [DecidableEq ι] (M : Metering) (F : Fleet ι) (key : KeyInfo)

def start (time : Int) : MeteredState ι := ⟨F.idle time, time, 0, []⟩

/-- The middleware around one request: `Reserve` lets it in or not, and `RecordTokens`
is called with what its response reports, nothing when it reports nothing. Without an
answer from the limiter the request passes. Each instance stamps with its own clock. -/
def step (s : MeteredState ι) : MeteredAction ι → Option (MeteredState ι)
  | .arrive i nowMs =>
    if M.concurrency ≤ s.inFlight then none
    else
      let (decided, limiter) := F.call key s.limiter (.reserve i M.rpm M.tpm nowMs)
      match decided with
      | some (.ok .rejectedRPM) | some (.ok .rejectedTPM) => some { s with limiter := limiter, now := nowMs }
      | _ => some { s with limiter := limiter, now := nowMs, inFlight := s.inFlight + 1 }
  | .depart i nowMs tokens =>
    if s.inFlight = 0 ∨ (M.most : Int) < tokens then none
    else
      let (_, limiter) := F.call key s.limiter (.recordTokens i M.rpm M.tpm nowMs tokens)
      some
        { limiter := limiter
          now := nowMs
          inFlight := s.inFlight - 1
          recorded := if 0 < tokens then (nowMs, tokens) :: s.recorded else s.recorded }

omit [DecidableEq ι] in
/-- The clocks of the instances agree: a stamp is never before that of the last step. -/
def OneClock (s : MeteredState ι) (a : MeteredAction ι) : Prop := s.now ≤ a.stamp

end Metering

/-- The tokens recorded in the window that ends at the time. -/
def recordedIn (window time : Int) (recorded : List (Int × Int)) : Int :=
  ((recorded.filter fun u => time - window < u.1 ∧ u.1 ≤ time).map Prod.snd).sum

theorem recordedIn_cons (window time : Int) (u : Int × Int) (recorded : List (Int × Int)) :
    recordedIn window time (u :: recorded) =
      (if time - window < u.1 ∧ u.1 ≤ time then u.2 else 0) + recordedIn window time recorded := by
  unfold recordedIn
  rw [List.filter_cons]
  by_cases inside : time - window < u.1 ∧ u.1 ≤ time
  · simp [inside]
  · simp [inside]

/-- A later window that ends after the last record contains no more of them. -/
theorem recordedIn_le {window now time : Int} {recorded : List (Int × Int)} (past : ∀ u ∈ recorded, u.1 ≤ now)
    (counted : ∀ u ∈ recorded, 0 ≤ u.2) (later : now ≤ time) :
    recordedIn window time recorded ≤ recordedIn window now recorded := by
  induction recorded with
  | nil => exact le_rfl
  | cons u rest ih =>
    obtain ⟨old, olds⟩ := List.forall_mem_cons.mp past
    obtain ⟨some, somes⟩ := List.forall_mem_cons.mp counted
    have tail := ih olds somes
    rw [recordedIn_cons, recordedIn_cons]
    split <;> split <;> omega

namespace UsageLog

variable {window now : Int} {log : UsageLog}

/-- Everything in the log was stamped by now. -/
structure By (now : Int) (log : UsageLog) : Prop where
  ticks : ∀ tick ∈ log.ticks, tick ≤ now
  records : ∀ u ∈ log.records, u.1 ≤ now

theorem By.mono (stamped : By now log) {later : Int} (after : now ≤ later) : By later log :=
  ⟨fun tick member => (stamped.ticks tick member).trans after,
    fun u member => (stamped.records u member).trans after⟩

theorem By.reserve (stamped : By now log) (window rpm tpm : Int) : By now (log.reserve window rpm tpm now).2 := by
  simp only [UsageLog.reserve, addRequest]
  split
  · split
    · exact ⟨List.forall_mem_cons.mpr ⟨le_rfl, stamped.ticks⟩, stamped.records⟩
    · exact stamped
  · exact stamped

theorem By.recordTokens (stamped : By now log) (tpm tokens : Int) : By now (log.recordTokens tpm now tokens) := by
  unfold UsageLog.recordTokens
  split
  · exact ⟨stamped.ticks, List.forall_mem_cons.mpr ⟨le_rfl, stamped.records⟩⟩
  · exact stamped

/-- A request that arrives leaves no record. -/
theorem records_reserve (log : UsageLog) (window rpm tpm now : Int) :
    (log.reserve window rpm tpm now).2.records = log.records := by
  simp only [UsageLog.reserve, addRequest]
  split
  · split <;> rfl
  · rfl

/-- After a window without use any limits let a request pass. -/
theorem By.allows (stamped : By now log) (rpm tpm : Int) {later : Int} (idle : now + window ≤ later) :
    log.decision window rpm tpm later = .allowed := by
  have noTicks : log.ticks.filter (fun t => later - window < t ∧ t ≤ later) = [] := by
    refine List.filter_eq_nil_iff.mpr fun tick member => ?_
    have old := stamped.ticks tick member
    simp only [decide_eq_true_eq]
    omega
  have noRecords : log.records.filter (fun u => later - window < u.1 ∧ u.1 ≤ later) = [] := by
    refine List.filter_eq_nil_iff.mpr fun u member => ?_
    have old := stamped.records u member
    simp only [decide_eq_true_eq]
    omega
  rw [decision_eq_allowed, requestsAt, tokensAt, noTicks, noRecords]
  simp only [List.length_nil, List.map_nil, List.sum_nil]
  omega

end UsageLog

namespace Metering

variable {ι : Type} [DecidableEq ι] {M : Metering} {F : Fleet ι} {key : KeyInfo} {window limit : Int}
  {s t : MeteredState ι} {log : UsageLog} {i : ι} {nowMs tokens : Int}

/-- The limiter stands for the log, which has come as far as the last stamp. -/
structure Logged (F : Fleet ι) (key : KeyInfo) (window : Int) (s : MeteredState ι) (log : UsageLog) : Prop where
  clock : s.limiter.redis.time ≤ s.now
  sim : Simulates F key window s.limiter log
  stamped : log.By s.now

omit [DecidableEq ι] in
theorem logged_start (F : Fleet ι) (key : KeyInfo) (window time : Int) : Logged F key window (start F time) ⟨[], []⟩ :=
  ⟨le_rfl, Simulates.idle F key window time, ⟨List.forall_mem_nil _, List.forall_mem_nil _⟩⟩

/-- A request that arrives is decided by the log, and is let in or not. -/
theorem Logged.arrive (logged : Logged F key window s log) (windowed : ∀ i, (F.limiter i).windowMs = window)
    (clock : OneClock s (.arrive i nowMs)) (next : M.step F key s (.arrive i nowMs) = some t) :
    s.inFlight + 1 ≤ M.concurrency ∧ t.now = nowMs ∧ t.recorded = s.recorded ∧
      Logged F key window t (log.reserve window (F.limits key i M.rpm M.tpm).1 (F.limits key i M.rpm M.tpm).2 nowMs).2 ∧
      t.inFlight = if log.decision window (F.limits key i M.rpm M.tpm).1 (F.limits key i M.rpm M.tpm).2 nowMs = .allowed
        then s.inFlight + 1 else s.inFlight := by
  have later : s.now ≤ nowMs := clock
  obtain ⟨same, time, sim⟩ := logged.sim.call windowed (.reserve i M.rpm M.tpm nowMs) (logged.clock.trans later)
  have stamped := (logged.stamped.mono later).reserve window (F.limits key i M.rpm M.tpm).1
    (F.limits key i M.rpm M.tpm).2
  have decided : (F.call key s.limiter (.reserve i M.rpm M.tpm nowMs)).1 =
      some (.ok (log.decision window (F.limits key i M.rpm M.tpm).1 (F.limits key i M.rpm M.tpm).2 nowMs)) := same
  simp only [step] at next
  split at next
  · cases next
  · rename_i room
    rw [decided] at next
    refine ⟨by omega, ?_⟩
    cases verdict : log.decision window (F.limits key i M.rpm M.tpm).1 (F.limits key i M.rpm M.tpm).2 nowMs with
    | rejectedRPM | rejectedTPM | allowed =>
      rw [verdict] at next
      cases next
      exact ⟨rfl, rfl, ⟨time.le, sim, stamped⟩, rfl⟩

/-- A request that departs is charged. -/
theorem Logged.depart (logged : Logged F key window s log) (windowed : ∀ i, (F.limiter i).windowMs = window)
    (clock : OneClock s (.depart i nowMs tokens)) (next : M.step F key s (.depart i nowMs tokens) = some t) :
    tokens ≤ M.most ∧ t.now = nowMs ∧ t.inFlight + 1 = s.inFlight ∧
      Logged F key window t (log.recordTokens (F.limits key i M.rpm M.tpm).2 nowMs tokens) ∧
      t.recorded = if 0 < tokens then (nowMs, tokens) :: s.recorded else s.recorded := by
  have later : s.now ≤ nowMs := clock
  obtain ⟨-, time, sim⟩ := logged.sim.call windowed (.recordTokens i M.rpm M.tpm nowMs tokens)
    (logged.clock.trans later)
  have stamped := (logged.stamped.mono later).recordTokens (F.limits key i M.rpm M.tpm).2 tokens
  simp only [step] at next
  split at next
  · cases next
  · rename_i open_
    cases next
    exact ⟨by omega, rfl, by dsimp only; omega, ⟨time.le, sim, stamped⟩, rfl⟩

theorem logged_run (windowed : ∀ i, (F.limiter i).windowMs = window) {time : Int} {actions : List (MeteredAction ι)}
    (clock : Transition.Guarded (M.step F key) OneClock (start F time) actions)
    (run : Transition.run (M.step F key) (start F time) actions = some s) : ∃ log, Logged F key window s log := by
  have keep (s : MeteredState ι) (a : MeteredAction ι) (t : MeteredState ι) (clock : OneClock s a)
      (held : ∃ log, Logged F key window s log) (next : M.step F key s a = some t) :
      ∃ log, Logged F key window t log := by
    obtain ⟨log, logged⟩ := held
    cases a with
    | arrive i nowMs =>
      obtain ⟨-, -, -, logged', -⟩ := logged.arrive windowed clock next
      exact ⟨_, logged'⟩
    | depart i nowMs tokens =>
      obtain ⟨-, -, -, logged', -⟩ := logged.depart windowed clock next
      exact ⟨_, logged'⟩
  exact Transition.guarded_invariant keep ⟨_, logged_start F key window time⟩ clock run

/-- The tokens recorded so far and those still to come from the requests in flight
stay below the bound, in every window that has not ended yet; what a window has
recorded when it ends stays as it is. -/
structure Bounded (M : Metering) (F : Fleet ι) (key : KeyInfo) (window limit : Int) (s : MeteredState ι) : Prop where
  log : ∃ log, Logged F key window s log ∧ log.records = s.recorded
  counted : ∀ u ∈ s.recorded, 0 ≤ u.2
  crowd : s.inFlight ≤ M.concurrency
  ended : ∀ time, recordedIn window time s.recorded ≤ limit - 1 + M.concurrency * M.most
  running : ∀ time, s.now ≤ time →
    recordedIn window time s.recorded + s.inFlight * M.most ≤ limit - 1 + M.concurrency * M.most

omit [DecidableEq ι] in
theorem bounded_start (positive : 0 < limit) (time : Int) : Bounded M F key window limit (start F time) where
  log := ⟨_, logged_start F key window time, rfl⟩
  counted := List.forall_mem_nil _
  crowd := Nat.zero_le _
  ended _ := by
    have room : (0 : Int) ≤ M.concurrency * M.most := by positivity
    simp only [start, recordedIn, List.filter_nil, List.map_nil, List.sum_nil]
    omega
  running _ _ := by
    have room : (0 : Int) ≤ M.concurrency * M.most := by positivity
    simp only [start, recordedIn, List.filter_nil, List.map_nil, List.sum_nil, Nat.cast_zero, zero_mul]
    omega

theorem Bounded.arrive (held : Bounded M F key window limit s) (windowed : ∀ i, (F.limiter i).windowMs = window)
    (positive : 0 < limit) (limited : ∀ i, (F.limits key i M.rpm M.tpm).2 = limit)
    (clock : OneClock s (.arrive i nowMs)) (next : M.step F key s (.arrive i nowMs) = some t) :
    Bounded M F key window limit t := by
  obtain ⟨log, logged, records⟩ := held.log
  obtain ⟨room, now, recorded, logged', inFlight⟩ := logged.arrive windowed clock next
  have later : s.now ≤ nowMs := clock
  refine ⟨⟨_, logged', ?_⟩, recorded ▸ held.counted, ?_, recorded ▸ held.ended, fun time after => ?_⟩
  · rw [UsageLog.records_reserve, records, recorded]
  · have crowd := held.crowd
    rw [inFlight]
    split <;> omega
  rw [now] at after
  have before := held.running time (later.trans after)
  rw [recorded, inFlight]
  split
  · rename_i allowed
    have below : recordedIn window nowMs s.recorded < limit := by
      have open_ := (UsageLog.decision_eq_allowed.mp allowed).2
      rw [limited, UsageLog.tokensAt, records] at open_
      by_contra full
      exact open_ ⟨positive, not_lt.mp full⟩
    have fall : recordedIn window time s.recorded ≤ recordedIn window nowMs s.recorded :=
      recordedIn_le (fun u member => (logged.stamped.records u (records ▸ member)).trans later) held.counted after
    have share : ((s.inFlight + 1 : Nat) : Int) * M.most ≤ M.concurrency * M.most :=
      mul_le_mul_of_nonneg_right (by exact_mod_cast room) (by positivity)
    omega
  · exact before

theorem Bounded.depart (held : Bounded M F key window limit s) (windowed : ∀ i, (F.limiter i).windowMs = window)
    (positive : 0 < limit) (limited : ∀ i, (F.limits key i M.rpm M.tpm).2 = limit)
    (clock : OneClock s (.depart i nowMs tokens)) (next : M.step F key s (.depart i nowMs tokens) = some t) :
    Bounded M F key window limit t := by
  obtain ⟨log, logged, records⟩ := held.log
  obtain ⟨modest, now, fewer, logged', recorded⟩ := logged.depart windowed clock next
  have later : s.now ≤ nowMs := clock
  have released : (t.inFlight : Int) * M.most + M.most = s.inFlight * M.most := by
    rw [← fewer, Nat.cast_succ, add_mul, one_mul]
  have share : (0 : Int) ≤ M.most := by positivity
  have rest : (0 : Int) ≤ t.inFlight * M.most := by positivity
  have grown (time : Int) : recordedIn window time t.recorded ≤
      recordedIn window time s.recorded + if nowMs ≤ time then (M.most : Int) else 0 := by
    rw [recorded]
    split
    · rw [recordedIn_cons]
      split <;> split <;> omega
    · split <;> omega
  refine ⟨⟨_, logged', ?_⟩, ?_, ?_, fun time => ?_, fun time after => ?_⟩
  · rw [UsageLog.recordTokens, limited, recorded, ← records]
    simp only [positive, and_true]
    split <;> rfl
  · rw [recorded]
    split
    · rename_i used
      exact List.forall_mem_cons.mpr ⟨used.le, held.counted⟩
    · exact held.counted
  · have crowd := held.crowd
    omega
  · have more := grown time
    by_cases after : nowMs ≤ time
    · rw [if_pos after] at more
      have bound := held.running time (later.trans after)
      omega
    · rw [if_neg after] at more
      have bound := held.ended time
      omega
  · rw [now] at after
    have more := grown time
    rw [if_pos after] at more
    have bound := held.running time (later.trans after)
    omega

theorem bounded_run (windowed : ∀ i, (F.limiter i).windowMs = window) (positive : 0 < limit)
    (limited : ∀ i, (F.limits key i M.rpm M.tpm).2 = limit) {time : Int} {actions : List (MeteredAction ι)}
    (clock : Transition.Guarded (M.step F key) OneClock (start F time) actions)
    (run : Transition.run (M.step F key) (start F time) actions = some s) : Bounded M F key window limit s := by
  refine Transition.guarded_invariant (fun _ a _ clock held next => ?_) (bounded_start positive time) clock run
  cases a with
  | arrive i nowMs => exact held.arrive windowed positive limited clock next
  | depart i nowMs tokens => exact held.depart windowed positive limited clock next

/-- The token limit is checked when a request arrives and charged when it departs. While
the instances are on one clock, the tokens recorded for a key in any window exceed the
limit by less than what the requests served at a time can use, whatever the interleaving
of arrivals and departures at the instances. -/
theorem token_overshoot_bounded (M : Metering) (F : Fleet ι) (key : KeyInfo)
    (windowed : ∀ i, (F.limiter i).windowMs = window) (positive : 0 < limit)
    (limited : ∀ i, (F.limits key i M.rpm M.tpm).2 = limit) {time : Int} {actions : List (MeteredAction ι)}
    (clock : Transition.Guarded (M.step F key) OneClock (start F time) actions)
    (run : Transition.run (M.step F key) (start F time) actions = some s) (t : Int) :
    recordedIn window t s.recorded < limit + M.concurrency * M.most := by
  have bound := (bounded_run windowed positive limited clock run).ended t
  omega

/-- Two instances that serve two requests at a time, each of at most a hundred
tokens, under a limit of ten tokens a minute. -/
def crowdedMetering : Metering := ⟨5, 10, 2, 100⟩

def sharedKey : KeyInfo := ⟨"k", "o", "", 0, 0, [], none⟩

/-- Both requests in flight were let in before either was charged. -/
def crowdedRun : List (MeteredAction Bool) :=
  [.arrive true 0, .depart true 1 9, .arrive true 2, .arrive false 3, .depart false 4 100, .depart true 5 100]

theorem one_clock_crowded :
    Transition.Guarded (crowdedMetering.step pairFleet sharedKey) OneClock (start pairFleet 0) crowdedRun :=
  .cons (Int.le_refl 0) rfl <| .cons (Int.le.intro 1 rfl) rfl <| .cons (Int.le.intro 1 rfl) rfl <|
    .cons (Int.le.intro 1 rfl) rfl <| .cons (Int.le.intro 1 rfl) rfl <| .cons (Int.le.intro 1 rfl) rfl trivial

theorem token_overshoot_bounded_crowded :
    ∃ s, Transition.run (crowdedMetering.step pairFleet sharedKey) (start pairFleet 0) crowdedRun = some s ∧
      recordedIn 60000 5 s.recorded = 209 ∧ recordedIn 60000 5 s.recorded < 10 + 2 * 100 := by
  obtain ⟨s, taken⟩ : ∃ s, Transition.run (crowdedMetering.step pairFleet sharedKey) (start pairFleet 0) crowdedRun =
      some s := ⟨_, rfl⟩
  have sum : recordedIn 60000 5 s.recorded = 209 := by
    cases taken
    rfl
  have windowed : ∀ i, (pairFleet.limiter i).windowMs = 60000 := fun _ => rfl
  have limited : ∀ i, (pairFleet.limits sharedKey i crowdedMetering.rpm crowdedMetering.tpm).2 = 10 := fun _ => rfl
  exact ⟨s, taken, sum, token_overshoot_bounded crowdedMetering pairFleet sharedKey windowed (by decide) limited
    one_clock_crowded taken 5⟩

/-- No key is locked out: with the instances on one clock, a window after its last use
the next request passes, whatever that use was and whichever limits there are. -/
theorem idle_key_recovers (M : Metering) (F : Fleet ι) (key : KeyInfo)
    (windowed : ∀ i, (F.limiter i).windowMs = window) {time : Int} {actions : List (MeteredAction ι)}
    (clock : Transition.Guarded (M.step F key) OneClock (start F time) actions)
    (run : Transition.run (M.step F key) (start F time) actions = some s) (i : ι) {nowMs : Int}
    (idle : s.now + window ≤ nowMs) (room : s.inFlight < M.concurrency) :
    ∃ t, M.step F key s (.arrive i nowMs) = some t ∧ t.inFlight = s.inFlight + 1 := by
  obtain ⟨log, logged⟩ := logged_run windowed clock run
  have wide : 0 < window := windowed i ▸ (F.limiter i).windowMs_pos
  have later : s.now ≤ nowMs := by omega
  obtain ⟨t, next⟩ : ∃ t, M.step F key s (.arrive i nowMs) = some t := by
    rw [step, if_neg (not_le.mpr room)]
    dsimp only
    split <;> exact ⟨_, rfl⟩
  obtain ⟨-, -, -, -, inFlight⟩ := logged.arrive windowed later next
  rw [if_pos (logged.stamped.allows _ _ idle)] at inFlight
  exact ⟨t, next, inFlight⟩

/-- A key with a limit on requests alone, of one a minute. -/
def scarceMetering : Metering := ⟨1, 0, 2, 100⟩

theorem idle_key_recovers_scarce :
    ∃ s t, Transition.run (scarceMetering.step pairFleet sharedKey) (start pairFleet 0)
        [.arrive true 0, .arrive false 3, .depart true 5 70] = some s ∧ s.inFlight = 0 ∧
      scarceMetering.step pairFleet sharedKey s (.arrive false 60005) = some t ∧ t.inFlight = s.inFlight + 1 := by
  obtain ⟨s, taken⟩ : ∃ s, Transition.run (scarceMetering.step pairFleet sharedKey) (start pairFleet 0)
      [.arrive true 0, .arrive false 3, .depart true 5 70] = some s := ⟨_, rfl⟩
  have after : s.now = 5 ∧ s.inFlight = 0 := by
    cases taken
    exact ⟨rfl, rfl⟩
  have windowed : ∀ i, (pairFleet.limiter i).windowMs = 60000 := fun _ => rfl
  have clock : Transition.Guarded (scarceMetering.step pairFleet sharedKey) OneClock (start pairFleet 0)
      [.arrive true 0, .arrive false 3, .depart true 5 70] :=
    .cons (Int.le_refl 0) rfl <| .cons (Int.le.intro 3 rfl) rfl <| .cons (Int.le.intro 2 rfl) rfl trivial
  obtain ⟨t, arrived, more⟩ := idle_key_recovers scarceMetering pairFleet sharedKey windowed clock taken false
    (show s.now + 60000 ≤ 60005 by omega) (by rw [after.2]; decide)
  exact ⟨s, t, taken, after.2, arrived, more⟩

end Metering

end LlmGateway
