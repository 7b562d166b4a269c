import LlmGateway.RateLimit.Limiter

namespace LlmGateway

namespace Redis

/-- The server holds the entry at the key, and the key does not expire before
the given server time. -/
def Holds (r : Redis) (key : String) (e : ScoredMember String) (until_ : Int) : Prop :=
  ∃ s deadline, r.slots key = some s ∧ e ∈ s.zset ∧ s.deadline = some deadline ∧ until_ ≤ deadline

theorem slots_put_ne {r : Redis} {key other : String} (apart : other ≠ key) (s : Option RedisSlot) :
    (r.put key s).slots other = r.slots other := Function.update_of_ne apart _ _

theorem slots_put_self (r : Redis) (key : String) (s : Option RedisSlot) : (r.put key s).slots key = s :=
  Function.update_self _ _ _

theorem slots_zremrangebyscore (r : Redis) (key : String) (bound : Int) :
    (r.zremrangebyscore key bound).slots key = (r.slot key).bind fun s =>
      if (s.zset.removeUpTo bound).entries = [] then none
      else some { s with zset := s.zset.removeUpTo bound } := Function.update_self _ _ _

/-- `ZADD` followed by `EXPIRE`. A time to live that is not positive leaves no key. -/
theorem zadd_expire (r : Redis) (key : String) (score : Int) (member : String) (seconds : Int) :
    (r.zadd key score member).expire key seconds = r.put key (if seconds ≤ 0 then none
      else some ⟨(r.zset key).insert member score, some (r.time + seconds * 1000)⟩) := by
  rw [expire, slot_zadd, Option.bind_some]
  simp [zadd, put]

/-- An entry held up to the present is in the set a command sees. -/
theorem Holds.slot {r : Redis} {key : String} {e : ScoredMember String} {until_ : Int}
    (held : r.Holds key e until_) (now : r.time ≤ until_) :
    ∃ s deadline, r.slot key = some s ∧ e ∈ s.zset ∧ s.deadline = some deadline ∧ until_ ≤ deadline := by
  obtain ⟨s, deadline, stored, member, atDeadline, later⟩ := held
  refine ⟨s, deadline, ?_, member, atDeadline, later⟩
  rw [Redis.slot, stored, Option.filter_eq_some_iff]
  refine ⟨rfl, ?_⟩
  simp only [RedisSlot.live, atDeadline, decide_eq_true_eq]
  omega

theorem Holds.put_ne {r : Redis} {key other : String} {e : ScoredMember String} {until_ : Int}
    (held : r.Holds key e until_) (apart : key ≠ other) (s : Option RedisSlot) :
    (r.put other s).Holds key e until_ := by
  obtain ⟨kept, deadline, stored, rest⟩ := held
  exact ⟨kept, deadline, (slots_put_ne apart s).trans stored, rest⟩

/-- Pruning keeps every held entry with a score above the bound. -/
theorem Holds.zremrangebyscore {r : Redis} {key : String} {e : ScoredMember String} {until_ bound : Int}
    (held : r.Holds key e until_) (now : r.time ≤ until_) (above : bound < e.score) :
    (r.zremrangebyscore key bound).Holds key e until_ := by
  obtain ⟨s, deadline, found, member, atDeadline, later⟩ := held.slot now
  have kept : e ∈ s.zset.removeUpTo bound := SortedSet.mem_removeUpTo.mpr ⟨member, above⟩
  have filled : (s.zset.removeUpTo bound).entries ≠ [] := List.ne_nil_of_mem kept
  refine ⟨{ s with zset := s.zset.removeUpTo bound }, deadline, ?_, kept, atDeadline, later⟩
  simp only [Redis.zremrangebyscore, put, Function.update_self, found, Option.bind_some, if_neg filled]

/-- A held entry is in the set at the key. -/
theorem Holds.mem_zset {r : Redis} {key : String} {e : ScoredMember String} {until_ : Int}
    (held : r.Holds key e until_) (now : r.time ≤ until_) : e ∈ r.zset key := by
  obtain ⟨s, _, found, member, _⟩ := held.slot now
  rw [zset, found]
  exact member

theorem slots_zadd_expire {r : Redis} {key : String} {seconds : Int} (positive : 0 < seconds) (score : Int)
    (member : String) :
    ((r.zadd key score member).expire key seconds).slots key =
      some ⟨(r.zset key).insert member score, some (r.time + seconds * 1000)⟩ := by
  rw [zadd_expire, slots_put_self, if_neg (not_le.mpr positive)]

theorem zset_zadd_expire {r : Redis} {key : String} {seconds : Int} (positive : 0 < seconds) (score : Int)
    (member : String) :
    ((r.zadd key score member).expire key seconds).zset key = (r.zset key).insert member score := by
  have alive : RedisSlot.live ⟨(r.zset key).insert member score, some (r.time + seconds * 1000)⟩ r.time = true := by
    simp only [RedisSlot.live, decide_eq_true_eq]
    omega
  rw [zset, slot, slots_zadd_expire positive, Option.filter_some, time_expire, time_zadd, if_pos alive]
  rfl

/-- `ZADD` and `EXPIRE` together hold the new entry, and every other entry that
was in the set, for the whole time to live. -/
theorem holds_zadd_expire {r : Redis} {key member : String} {score seconds : Int} {e : ScoredMember String}
    (positive : 0 < seconds) (inside : e = ⟨member, score⟩ ∨ e ∈ r.zset key ∧ e.member ≠ member) :
    ((r.zadd key score member).expire key seconds).Holds key e (r.time + seconds * 1000) :=
  ⟨_, _, slots_zadd_expire positive score member, SortedSet.mem_insert.mpr inside, rfl, le_rfl⟩

end Redis

/-- The server after `check.lua` has pruned the RPM window. -/
def CheckArgs.pruned (args : CheckArgs) (r : Redis) : Redis :=
  r.zremrangebyscore args.rpmKey (args.now - args.window)

/-- The pruned RPM window has no room for one more request. -/
def CheckArgs.Full (args : CheckArgs) (r : Redis) : Prop :=
  0 < args.rpmLim ∧ args.rpmLim ≤ (args.pruned r).zcard args.rpmKey

/-- The tokens of the TPM window have reached the limit. -/
def CheckArgs.Spent (args : CheckArgs) (r : Redis) : Prop :=
  0 < args.tpmLim ∧ args.tpmLim ≤ (checkTPM (args.pruned r) args).2.1

instance (args : CheckArgs) (r : Redis) : Decidable (args.Full r) := inferInstanceAs (Decidable (_ ∧ _))

instance (args : CheckArgs) (r : Redis) : Decidable (args.Spent r) := inferInstanceAs (Decidable (_ ∧ _))

section Ways

variable {r : Redis} {args : CheckArgs}

theorem check_of_full (full : args.Full r) :
    check r args = (⟨0, 1, (args.pruned r).zcard args.rpmKey, oldestScore (args.pruned r) args.rpmKey args.now, 0,
      args.now⟩, args.pruned r) := if_pos full

theorem check_of_spent (room : ¬args.Full r) (spent : args.Spent r) :
    check r args = (⟨0, 2, (args.pruned r).zcard args.rpmKey,
      oldestScore (checkTPM (args.pruned r) args).1 args.rpmKey args.now, (checkTPM (args.pruned r) args).2.1,
      (checkTPM (args.pruned r) args).2.2⟩, (checkTPM (args.pruned r) args).1) :=
  (if_neg room).trans (if_pos spent)

theorem check_of_room (room : ¬args.Full r) (unspent : ¬args.Spent r) :
    check r args = (⟨1, 0, (args.pruned r).zcard args.rpmKey + 1,
      oldestScore (addTick (checkTPM (args.pruned r) args).1 args) args.rpmKey args.now,
      (checkTPM (args.pruned r) args).2.1, (checkTPM (args.pruned r) args).2.2⟩,
      addTick (checkTPM (args.pruned r) args).1 args) :=
  (if_neg room).trans (if_neg unspent)

end Ways

/-- The three ways through `check.lua`. -/
theorem check_cases (r : Redis) (args : CheckArgs) :
    (0 < args.rpmLim ∧ args.rpmLim ≤ (args.pruned r).zcard args.rpmKey ∧
      (check r args).1.allowed = 0 ∧ (check r args).1.rejectCode = 1 ∧ (check r args).2 = args.pruned r) ∨
    (¬(0 < args.rpmLim ∧ args.rpmLim ≤ (args.pruned r).zcard args.rpmKey) ∧
      0 < args.tpmLim ∧ args.tpmLim ≤ (checkTPM (args.pruned r) args).2.1 ∧
      (check r args).1.allowed = 0 ∧ (check r args).1.rejectCode = 2 ∧
      (check r args).2 = (checkTPM (args.pruned r) args).1) ∨
    (¬(0 < args.rpmLim ∧ args.rpmLim ≤ (args.pruned r).zcard args.rpmKey) ∧
      ¬(0 < args.tpmLim ∧ args.tpmLim ≤ (checkTPM (args.pruned r) args).2.1) ∧
      (check r args).1.allowed = 1 ∧ (check r args).1.rejectCode = 0 ∧
      (check r args).2 = addTick (checkTPM (args.pruned r) args).1 args) := by
  by_cases full : args.Full r
  · rw [check_of_full full]
    exact Or.inl ⟨full.1, full.2, rfl, rfl, rfl⟩
  · by_cases spent : args.Spent r
    · rw [check_of_spent full spent]
      exact Or.inr (Or.inl ⟨full, spent.1, spent.2, rfl, rfl, rfl⟩)
    · rw [check_of_room full spent]
      exact Or.inr (Or.inr ⟨full, spent, rfl, rfl, rfl⟩)

@[simp] theorem time_checkTPM (r : Redis) (args : CheckArgs) : (checkTPM r args).1.time = r.time := by
  unfold checkTPM
  split <;> rfl

@[simp] theorem time_addTick (r : Redis) (args : CheckArgs) : (addTick r args).time = r.time := by
  unfold addTick
  split <;> rfl

theorem slots_checkTPM_ne {r : Redis} {args : CheckArgs} {key : String} (apart : key ≠ args.tpmKey) :
    (checkTPM r args).1.slots key = r.slots key := by
  unfold checkTPM
  split
  · exact Redis.slots_put_ne apart _
  · rfl

theorem zset_checkTPM_ne {r : Redis} {args : CheckArgs} {key : String} (apart : key ≠ args.tpmKey) :
    (checkTPM r args).1.zset key = r.zset key := by
  rw [Redis.zset, Redis.zset, Redis.slot, Redis.slot, slots_checkTPM_ne apart, time_checkTPM]

theorem slots_addTick_ne {r : Redis} {args : CheckArgs} {key : String} (apart : key ≠ args.rpmKey) :
    (addTick r args).slots key = r.slots key := by
  unfold addTick
  split
  · exact (Redis.slots_put_ne apart _).trans (Redis.slots_put_ne apart _)
  · rfl

theorem Redis.Holds.checkTPM {r : Redis} {args : CheckArgs} {key : String} {e : ScoredMember String}
    {until_ : Int} (held : r.Holds key e until_) (apart : key ≠ args.tpmKey) :
    (checkTPM r args).1.Holds key e until_ := by
  unfold LlmGateway.checkTPM
  split
  · exact held.put_ne apart _
  · exact held

/-- The last step of `check.lua` holds the set for two windows. -/
theorem holds_tick (r : Redis) {args : CheckArgs} {e : ScoredMember String} (positive : 0 < args.window)
    (inside : e = ⟨args.reqID, args.now⟩ ∨ e ∈ r.zset args.rpmKey ∧ e.member ≠ args.reqID) :
    ((r.zadd args.rpmKey args.now args.reqID).expire args.rpmKey (ceilDiv (args.window * 2) 1000)).Holds
      args.rpmKey e (r.time + args.window * 2) := by
  obtain ⟨s, deadline, stored, member, atDeadline, later⟩ := Redis.holds_zadd_expire (ttl_pos positive) inside
  have enough := two_windows_le_ttl args.window
  exact ⟨s, deadline, stored, member, atDeadline, by omega⟩

/-- One execution of `check.lua` keeps every entry of the RPM set whose score is
less than a window old; only the deadline of the whole set may move, and then
to two windows from now. -/
theorem Redis.Holds.check {r : Redis} {args : CheckArgs} {e : ScoredMember String} {until_ : Int}
    (held : r.Holds args.rpmKey e until_) (now : r.time ≤ until_) (apart : args.rpmKey ≠ args.tpmKey)
    (positive : 0 < args.window) (live : args.now - args.window < e.score) (other : e.member ≠ args.reqID) :
    (check r args).2.Holds args.rpmKey e until_ ∨
      (check r args).2.Holds args.rpmKey e (r.time + args.window * 2) := by
  have kept : (args.pruned r).Holds args.rpmKey e until_ := held.zremrangebyscore now live
  have swept : (LlmGateway.checkTPM (args.pruned r) args).1.Holds args.rpmKey e until_ := kept.checkTPM apart
  rcases check_cases r args with ⟨_, _, _, _, after⟩ | ⟨_, _, _, _, _, after⟩ | ⟨_, _, _, _, after⟩
  · exact Or.inl (after ▸ kept)
  · exact Or.inl (after ▸ swept)
  · rw [after, addTick]
    split
    · have member := swept.mem_zset (by simpa [CheckArgs.pruned] using now)
      have held := holds_tick (LlmGateway.checkTPM (args.pruned r) args).1 positive (Or.inr ⟨member, other⟩)
      simp only [time_checkTPM, CheckArgs.pruned, Redis.time_zremrangebyscore] at held
      exact Or.inr held
    · exact Or.inl swept

/-- An admitted request's tick stays for two windows. -/
theorem holds_of_check_allowed {r : Redis} {args : CheckArgs} (limited : 0 < args.rpmLim)
    (positive : 0 < args.window) (allowed : (check r args).1.allowed = 1) :
    (check r args).2.Holds args.rpmKey ⟨args.reqID, args.now⟩ (r.time + args.window * 2) := by
  rcases check_cases r args with ⟨_, _, denied, _⟩ | ⟨_, _, _, denied, _⟩ | ⟨_, _, _, _, after⟩
  · omega
  · omega
  · rw [after, addTick, if_pos limited]
    have held := holds_tick (checkTPM (args.pruned r) args).1 positive (Or.inl rfl)
    simpa only [time_checkTPM, CheckArgs.pruned, Redis.time_zremrangebyscore] using held

/-- An admitted request found fewer live entries than the limit. -/
theorem card_lt_of_check_allowed {r : Redis} {args : CheckArgs} (limited : 0 < args.rpmLim)
    (allowed : (check r args).1.allowed = 1) : (args.pruned r).zcard args.rpmKey < args.rpmLim := by
  rcases check_cases r args with ⟨_, _, denied, _⟩ | ⟨_, _, _, denied, _⟩ | ⟨room, _⟩
  · omega
  · omega
  · by_contra full
    exact room ⟨limited, by omega⟩

@[simp] theorem time_check (r : Redis) (args : CheckArgs) : (check r args).2.time = r.time := by
  rcases check_cases r args with ⟨_, _, _, _, after⟩ | ⟨_, _, _, _, _, after⟩ | ⟨_, _, _, _, after⟩
  · rw [after]; rfl
  · rw [after, time_checkTPM]; rfl
  · rw [after, time_addTick, time_checkTPM]; rfl

theorem Redis.Holds.tpmRecord {r : Redis} {args : RecordArgs} {key : String} {e : ScoredMember String}
    {until_ : Int} (held : r.Holds key e until_) (apart : key ≠ args.key) :
    (tpmRecord r args).Holds key e until_ := by
  unfold LlmGateway.tpmRecord Redis.expire Redis.zadd
  exact (held.put_ne apart _).put_ne apart _

@[simp] theorem time_tpmRecord (r : Redis) (args : RecordArgs) : (tpmRecord r args).time = r.time := rfl

end LlmGateway
