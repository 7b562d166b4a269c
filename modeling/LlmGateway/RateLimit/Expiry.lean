import LlmGateway.RateLimit.Uses

namespace LlmGateway

namespace Redis

variable {r : Redis} {key other : String} {e : ScoredMember String}

/-- `PTTL key`: the milliseconds the key has left, if it is there and expires. -/
def pttl (r : Redis) (key : String) : Option Int :=
  ((r.slot key).bind RedisSlot.deadline).map fun deadline => deadline - r.time

/-- The set at the key has an entry that it did not have before. -/
def Adds (before after : Redis) (key : String) : Prop := ∃ e ∈ after.zset key, e ∉ before.zset key

/-- Every set with a new entry is kept for a window, and for no more than two
windows rounded up to whole seconds. -/
def ExpiryFits (window : Int) (before after : Redis) : Prop :=
  ∀ key, before.Adds after key →
    ∃ ttl, after.pttl key = some ttl ∧ window ≤ ttl ∧ ttl ≤ ceilDiv (window * 2) 1000 * 1000

theorem pttl_zadd_expire {seconds : Int} (positive : 0 < seconds) (score : Int) (member : String) :
    ((r.zadd key score member).expire key seconds).pttl key = some (seconds * 1000) := by
  have alive : RedisSlot.live ⟨(r.zset key).insert member score, some (r.time + seconds * 1000)⟩ r.time = true := by
    simp only [RedisSlot.live, decide_eq_true_eq]
    omega
  rw [pttl, slot, slots_zadd_expire positive, Option.filter_some, time_expire, time_zadd, if_pos alive]
  simp

theorem mem_zset_of_put_ne {s : Option RedisSlot} (member : e ∈ (r.put other s).zset key) (apart : key ≠ other) :
    e ∈ r.zset key := by
  rw [zset, slot_put_ne apart] at member
  exact member

theorem mem_zset_of_prune {bound : Int} (member : e ∈ (r.zremrangebyscore other bound).zset key) :
    e ∈ r.zset key := by
  by_cases same : key = other
  · subst same
    rw [SortedSet.mem_def, zset_zremrangebyscore, ← SortedSet.mem_def, SortedSet.mem_removeUpTo] at member
    exact member.1
  · exact mem_zset_of_put_ne member same

/-- What `ZADD` and `EXPIRE` leave at another key was there before. -/
theorem eq_of_adds_zadd_expire {score seconds : Int} {member : String}
    (adds : r.Adds ((r.zadd other score member).expire other seconds) key) : key = other := by
  obtain ⟨e, inside, new⟩ := adds
  by_contra apart
  exact new (mem_zset_of_put_ne (mem_zset_of_put_ne inside apart) apart)

end Redis

section Scripts

variable {r : Redis} {args : CheckArgs} {record : RecordArgs} {key : String}

theorem mem_zset_of_checkTPM {e : ScoredMember String} (member : e ∈ (checkTPM r args).1.zset key) :
    e ∈ r.zset key := by
  unfold checkTPM at member
  split at member
  · exact Redis.mem_zset_of_prune member
  · exact member

/-- `check.lua` adds to the RPM set only, and then the set has two windows left,
rounded up to whole seconds. -/
theorem Redis.Adds.of_check (adds : r.Adds (check r args).2 key) (positive : 0 < args.window) :
    key = args.rpmKey ∧ (check r args).2.pttl key = some (ceilDiv (args.window * 2) 1000 * 1000) := by
  obtain ⟨e, inside, new⟩ := adds
  rcases check_cases r args with ⟨_, _, _, _, after⟩ | ⟨_, _, _, _, _, after⟩ | ⟨_, _, _, _, after⟩
  · rw [after] at inside
    exact absurd (mem_zset_of_prune inside) new
  · rw [after] at inside
    exact absurd (mem_zset_of_prune (mem_zset_of_checkTPM inside)) new
  · rw [after, addTick] at inside
    rw [after, addTick]
    split at inside
    · rename_i limited
      have ticked : (checkTPM (args.pruned r) args).1.Adds (((checkTPM (args.pruned r) args).1.zadd args.rpmKey
          args.now args.reqID).expire args.rpmKey (ceilDiv (args.window * 2) 1000)) key :=
        ⟨e, inside, fun old => new (mem_zset_of_prune (mem_zset_of_checkTPM old))⟩
      obtain rfl := eq_of_adds_zadd_expire ticked
      rw [if_pos limited]
      exact ⟨rfl, pttl_zadd_expire (ttl_pos positive) _ _⟩
    · exact absurd (mem_zset_of_prune (mem_zset_of_checkTPM inside)) new

/-- `tpm_record.lua` keeps its set for two thousand windows. -/
theorem Redis.Adds.of_tpmRecord (adds : r.Adds (tpmRecord r record) key) (positive : 0 < record.window) :
    key = record.key ∧ (tpmRecord r record).pttl key = some (record.window * 2 * 1000) := by
  obtain rfl := eq_of_adds_zadd_expire adds
  exact ⟨rfl, pttl_zadd_expire (by omega) _ _⟩

theorem adds_tpmRecord (positive : 0 < record.window)
    (fresh : ∀ e ∈ r.zset record.key, e.member ≠ tpmMember record.reqID record.tokens) :
    r.Adds (tpmRecord r record) record.key := by
  refine ⟨⟨tpmMember record.reqID record.tokens, record.now⟩, ?_, fun old => fresh _ old rfl⟩
  rw [tpmRecord, Redis.zset_zadd_expire (by omega)]
  exact SortedSet.mem_insert.mpr (Or.inl rfl)

/-- A reservation's script call leaves a fitting expiry. -/
theorem expiryFits_check (positive : 0 < args.window) : Redis.ExpiryFits args.window r (check r args).2 := by
  intro key adds
  have enough := two_windows_le_ttl args.window
  exact ⟨_, (adds.of_check positive).2, by omega, le_rfl⟩

/-- The script takes milliseconds for seconds, so what it writes outstays its
two windows. -/
theorem not_expiryFits_tpmRecord (positive : 0 < record.window)
    (fresh : ∀ e ∈ r.zset record.key, e.member ≠ tpmMember record.reqID record.tokens) :
    ¬Redis.ExpiryFits record.window r (tpmRecord r record) := by
  intro fits
  have adds := adds_tpmRecord positive fresh
  obtain ⟨ttl, left, _, bounded⟩ := fits _ adds
  cases left.symm.trans (adds.of_tpmRecord positive).2
  unfold ceilDiv at bounded
  omega

end Scripts

section Calls

variable {ι : Type} {F : Fleet ι} {use : LimiterUse ι}

/-- A script call in flight is the one of the call's method, with the window of
the caller's limiter. -/
def UsePhase.AskedBy (F : Fleet ι) (use : LimiterUse ι) : UsePhase → Prop
  | .reserving _ args => use.tokens = none ∧ args.window = (F.limiter use.caller).windowMs
  | .recording args => use.tokens ≠ none ∧ args.window = (F.limiter use.caller).windowMs
  | _ => True

theorem LimiterUse.askedBy_send (F : Fleet ι) (use : LimiterUse ι) (g : Gateway) (nowMs : Int) :
    (use.send F g nowMs).1.AskedBy F use := by
  unfold send
  cases reserves : use.tokens with
  | none =>
    dsimp only
    unfold RedisLimiter.reserveCall
    dsimp only
    split <;> rename_i called <;> split at called <;> cases called
    · trivial
    · exact ⟨reserves, rfl⟩
  | some tokens =>
    dsimp only
    rcases (F.limiter use.caller).recordCall_cases g use.key nowMs tokens with ⟨_, idle⟩ | ⟨_, _, sent⟩
    · rw [idle]
      trivial
    · rw [sent]
      exact ⟨by rw [reserves]; exact Option.some_ne_none _, rfl⟩

theorem LimiterUse.askedBy_execute {r q : Redis} {phase next : UsePhase}
    (done : use.execute F r phase = some (next, q)) : next.AskedBy F use := by
  rcases LimiterUse.execute_cases done with ⟨_, _, _, _, _, rfl, _⟩ | ⟨_, _, rfl, _⟩
  · trivial
  · trivial

end Calls

namespace UseState

variable {ι κ : Type} [DecidableEq ι] [DecidableEq κ] {F : Fleet ι} {uses : κ → LimiterUse ι} {s t : UseState ι κ}

/-- The calls in flight are as their methods sent them, under ids of their own. -/
def InFlight (F : Fleet ι) (uses : κ → LimiterUse ι) (s : UseState ι κ) : Prop :=
  Tidy F uses s ∧ ∀ c, (s.phase c).AskedBy F (uses c)

theorem InFlight.keep (held : InFlight F uses s) {a : UseAction κ} (taken : step F uses s a = some t) :
    InFlight F uses t := by
  obtain ⟨tidy, asked⟩ := held
  cases a with
  | send c nowMs =>
    obtain ⟨idle, rfl⟩ := step_send taken
    refine ⟨tidy.send idle nowMs, ?_⟩
    exact (Function.forall_update_iff s.phase fun d phase => phase.AskedBy F (uses d)).mpr
      ⟨(uses c).askedBy_send F _ nowMs, fun d _ => asked d⟩
  | execute c =>
    obtain ⟨next, q, done, rfl⟩ := step_execute taken
    refine ⟨tidy.execute done, ?_⟩
    exact (Function.forall_update_iff s.phase fun d phase => phase.AskedBy F (uses d)).mpr
      ⟨LimiterUse.askedBy_execute done, fun d _ => asked d⟩
  | serverClock time =>
    cases Option.some.inj taken
    exact ⟨tidy.serverClock time, asked⟩

theorem inFlight_run {time : Int} {actions : List (UseAction κ)}
    (taken : Transition.run (step F uses) (start F time) actions = some s) : InFlight F uses s :=
  Transition.run_invariant (fun _ _ _ held next => held.keep next) ⟨tidy_start time, fun _ => trivial⟩ taken

/-- The server runs a script call of one of the two methods. -/
theorem InFlight.execute_cases {c : κ} (held : InFlight F uses s) (taken : step F uses s (.execute c) = some t) :
    (∃ args : CheckArgs, (uses c).tokens = none ∧ args.window = (F.limiter (uses c).caller).windowMs ∧
      t.redis = (check s.redis args).2) ∨
    (∃ args : RecordArgs, (uses c).tokens ≠ none ∧ args.window = (F.limiter (uses c).caller).windowMs ∧
      (∀ e ∈ s.redis.zset args.key, e.member ≠ tpmMember args.reqID args.tokens) ∧
      t.redis = tpmRecord s.redis args) := by
  obtain ⟨next, q, done, rfl⟩ := step_execute taken
  have asked := held.2 c
  have sentFor := held.1.sentFor c
  have fresh (id : String) (pending : (s.phase c).pendingID = some id) := held.1.fresh pending
  rcases LimiterUse.execute_cases done with ⟨_, args, _, _, phase, _, rfl⟩ | ⟨args, phase, _, rfl⟩
  · rw [phase] at asked
    exact Or.inl ⟨args, asked.1, asked.2, rfl⟩
  · rw [phase] at asked sentFor fresh
    refine Or.inr ⟨args, asked.1, asked.2, fun e inside same => ?_, rfl⟩
    refine fresh args.reqID rfl args.key e (Redis.stores_of_mem_zset inside) ?_
    rw [same, sentFor.1]
    exact .tokens (uses c).key sentFor.2

/-- Expiry never drops a live entry: whatever a call adds is kept for a window. -/
theorem window_le_pttl {time : Int} {actions : List (UseAction κ)} {c : κ} {key : String}
    (taken : Transition.run (step F uses) (start F time) actions = some s)
    (executed : step F uses s (.execute c) = some t) (adds : s.redis.Adds t.redis key) :
    ∃ ttl, t.redis.pttl key = some ttl ∧ (F.limiter (uses c).caller).windowMs ≤ ttl := by
  have positive := (F.limiter (uses c).caller).windowMs_pos
  rcases (inFlight_run taken).execute_cases executed with ⟨args, _, window, after⟩ | ⟨args, _, window, _, after⟩
  · rw [after] at adds ⊢
    have enough := two_windows_le_ttl args.window
    exact ⟨_, (adds.of_check (window ▸ positive)).2, by omega⟩
  · rw [after] at adds ⊢
    exact ⟨_, (adds.of_tpmRecord (window ▸ positive)).2, by omega⟩

/-- The sets a script call writes expire as the windows ask exactly when the
call is a `Reserve`. -/
theorem expiry_fits_iff_reserve (F : Fleet ι) (uses : κ → LimiterUse ι) {time : Int} {actions : List (UseAction κ)}
    {c : κ} (taken : Transition.run (step F uses) (start F time) actions = some s)
    (executed : step F uses s (.execute c) = some t) :
    Redis.ExpiryFits (F.limiter (uses c).caller).windowMs s.redis t.redis ↔ (uses c).tokens = none := by
  have positive := (F.limiter (uses c).caller).windowMs_pos
  rcases (inFlight_run taken).execute_cases executed with
    ⟨args, reserves, window, after⟩ | ⟨args, records, window, fresh, after⟩
  · rw [after, ← window]
    exact ⟨fun _ => reserves, fun _ => expiryFits_check (window ▸ positive)⟩
  · rw [after, ← window]
    exact ⟨fun fits => absurd fits (not_expiryFits_tpmRecord (window ▸ positive) fresh),
      fun reserves => absurd reserves records⟩

/-- A `Reserve` writes the RPM set for two minutes. -/
theorem expiry_fits_iff_reserve_tick :
    let use : LimiterUse Bool := ⟨true, ⟨"k", "o", "", 0, 0, [], none⟩, none⟩
    ∃ s t : UseState Bool Unit,
      Transition.run (step pairFleet fun _ => use) (start pairFleet 0) [.send () 0] = some s ∧
      step pairFleet (fun _ => use) s (.execute ()) = some t ∧ t.redis.pttl (rpmKey use.key) = some 120000 ∧
      Redis.ExpiryFits 60000 s.redis t.redis := by
  intro use
  obtain ⟨s, t, taken, executed, left⟩ : ∃ s t : UseState Bool Unit,
      Transition.run (step pairFleet fun _ => use) (start pairFleet 0) [.send () 0] = some s ∧
      step pairFleet (fun _ => use) s (.execute ()) = some t ∧ t.redis.pttl (rpmKey use.key) = some 120000 :=
    ⟨_, _, rfl, rfl, by decide +kernel⟩
  exact ⟨s, t, taken, executed, left, (expiry_fits_iff_reserve pairFleet (fun _ => use) taken executed).mpr rfl⟩

/-- `RecordTokens` writes the TPM set for more than a day, where two windows
are two minutes. -/
theorem recorded_tokens_outstay_two_windows :
    let use : LimiterUse Bool := ⟨true, ⟨"k", "o", "", 0, 10, [], none⟩, some 7⟩
    ∃ s t : UseState Bool Unit,
      Transition.run (step pairFleet fun _ => use) (start pairFleet 0) [.send () 0] = some s ∧
      step pairFleet (fun _ => use) s (.execute ()) = some t ∧ t.redis.pttl (tpmKey use.key) = some 120000000 ∧
      ¬Redis.ExpiryFits 60000 s.redis t.redis := by
  intro use
  refine ⟨_, _, rfl, rfl, by decide +kernel, fun fits => ?_⟩
  obtain ⟨ttl, left, _, bounded⟩ := fits (tpmKey use.key) (adds_tpmRecord (by decide) (List.forall_mem_nil _))
  have day : ttl = 120000000 := Option.some.inj (left.symm.trans (by decide +kernel))
  rw [day] at bounded
  exact absurd bounded (by decide)

end UseState

end LlmGateway
