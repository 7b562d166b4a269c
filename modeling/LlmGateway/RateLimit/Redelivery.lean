import LlmGateway.RateLimit.ScriptSpec

namespace LlmGateway

theorem RedisSlot.live_of_ttl (S : SortedSet String) {time seconds : Int} (positive : ¬seconds ≤ 0) :
    RedisSlot.live ⟨S, some (time + seconds * 1000)⟩ time = true := by
  simp only [RedisSlot.live, decide_eq_true_eq]
  omega

namespace Redis

variable {r t : Redis} {key : String} {bound : Int}

theorem put_put (r : Redis) (key : String) (s s' : Option RedisSlot) : (r.put key s).put key s' = r.put key s' := by
  simp [put]

/-- The set just written, as long as it is there. -/
theorem zset_put_some {s : RedisSlot} (alive : s.live r.time = true) : (r.put key (some s)).zset key = s.zset := by
  rw [zset, slot_put_self, Option.filter_some, if_pos alive]
  rfl

theorem zadd_expire_idem (r : Redis) (key : String) (score : Int) (member : String) (seconds : Int) :
    (((r.zadd key score member).expire key seconds).zadd key score member).expire key seconds =
      (r.zadd key score member).expire key seconds := by
  rw [zadd_expire, zadd_expire, put_put]
  split
  · rfl
  · rename_i positive
    rw [zset_put_some (RedisSlot.live_of_ttl _ positive), SortedSet.insert_insert]
    rfl

/-- Pruning at the key up to the bound has nothing left to remove. -/
def Swept (r : Redis) (key : String) (bound : Int) : Prop :=
  ∀ s, r.slots key = some s → s.live r.time = true ∧ s.zset.entries ≠ [] ∧ ∀ e ∈ s.zset, bound < e.score

theorem Swept.of_slots (swept : r.Swept key bound) (time : t.time = r.time) (slots : t.slots key = r.slots key) :
    t.Swept key bound := by
  intro s stored
  rw [time]
  exact swept s (slots ▸ stored)

theorem swept_zremrangebyscore (r : Redis) (key : String) (bound : Int) :
    (r.zremrangebyscore key bound).Swept key bound := by
  intro s stored
  rw [slots_zremrangebyscore] at stored
  obtain ⟨old, found, kept⟩ := Option.bind_eq_some_iff.mp stored
  split at kept
  · cases kept
  · rename_i filled
    cases kept
    have alive := slot_live found
    exact ⟨alive, filled, fun e member => (SortedSet.mem_removeUpTo.mp member).2⟩

theorem Swept.zremrangebyscore_eq (swept : r.Swept key bound) : r.zremrangebyscore key bound = r := by
  have same : (r.zremrangebyscore key bound).slots key = r.slots key := by
    rw [slots_zremrangebyscore, slot]
    cases stored : r.slots key with
    | none => rfl
    | some s =>
      obtain ⟨alive, filled, above⟩ := swept s stored
      rw [Option.filter_some, if_pos alive, Option.bind_some, SortedSet.removeUpTo_of_above above, if_neg filled]
  have restored : (r.zremrangebyscore key bound).slots = r.slots := by
    funext other
    by_cases here : other = key
    · rw [here, same]
    · exact slots_put_ne here _
  exact congrArg (Redis.mk · r.time) restored

theorem Swept.zadd_expire {score seconds : Int} {member : String} (swept : r.Swept key bound)
    (recent : 0 < seconds → bound < score) : ((r.zadd key score member).expire key seconds).Swept key bound := by
  rw [Redis.zadd_expire]
  intro s stored
  rw [slots_put_self] at stored
  split at stored
  · cases stored
  · rename_i positive
    cases stored
    refine ⟨RedisSlot.live_of_ttl _ positive, ?_, fun e inside => ?_⟩
    · exact List.ne_nil_of_mem (SortedSet.mem_insert.mpr (Or.inl rfl))
    · rcases SortedSet.mem_insert.mp inside with rfl | ⟨old, _⟩
      · exact recent (by omega)
      · rw [zset, slot] at old
        cases at_ : r.slots key with
        | none =>
          rw [at_] at old
          cases old
        | some s =>
          obtain ⟨alive, _, above⟩ := swept s at_
          rw [at_, Option.filter_some, if_pos alive] at old
          exact above e old

end Redis

section Redelivery

variable {r : Redis} {args : CheckArgs}

theorem checkTPM_swept (r : Redis) (args : CheckArgs) (limited : 0 < args.tpmLim) :
    (checkTPM r args).1.Swept args.tpmKey (args.now - args.window) := by
  rw [checkTPM, if_pos limited]
  exact Redis.swept_zremrangebyscore r _ _

/-- A state that agrees with a swept one at the TPM key is summed the same and
not changed. -/
theorem checkTPM_again {t : Redis} (time : t.time = r.time)
    (same : t.slots args.tpmKey = (checkTPM r args).1.slots args.tpmKey) :
    checkTPM t args = (t, (checkTPM r args).2) := by
  by_cases limited : 0 < args.tpmLim
  · have swept : t.Swept args.tpmKey (args.now - args.window) :=
      (checkTPM_swept r args limited).of_slots (time.trans (time_checkTPM r args).symm) same
    have sets : t.zset args.tpmKey = (checkTPM r args).1.zset args.tpmKey := by
      rw [Redis.zset, Redis.zset, Redis.slot, Redis.slot, same, time, time_checkTPM]
    rw [checkTPM, if_pos limited] at sets
    rw [checkTPM, checkTPM, if_pos limited, if_pos limited, swept.zremrangebyscore_eq]
    dsimp only at sets ⊢
    rw [Redis.zrange, Redis.zrange, oldestScore, oldestScore, sets]
  · rw [checkTPM, checkTPM, if_neg limited, if_neg limited]

theorem addTick_idem (r : Redis) (args : CheckArgs) : addTick (addTick r args) args = addTick r args := by
  unfold addTick
  split
  · exact Redis.zadd_expire_idem r _ _ _ _
  · rfl

theorem ttl_nonpos {window : Int} (closed : window ≤ 0) : ceilDiv (window * 2) 1000 ≤ 0 := by
  unfold ceilDiv
  omega

/-- After a check nothing is left to prune at the RPM key. -/
theorem check_swept (r : Redis) {args : CheckArgs} (apart : args.rpmKey ≠ args.tpmKey) :
    (check r args).2.Swept args.rpmKey (args.now - args.window) := by
  have pruned : (args.pruned r).Swept args.rpmKey (args.now - args.window) := Redis.swept_zremrangebyscore r _ _
  have swept : (checkTPM (args.pruned r) args).1.Swept args.rpmKey (args.now - args.window) :=
    pruned.of_slots (time_checkTPM _ _) (slots_checkTPM_ne apart)
  rcases check_cases r args with ⟨_, _, _, _, after⟩ | ⟨_, _, _, _, _, after⟩ | ⟨_, _, _, _, after⟩
  · rw [after]
    exact pruned
  · rw [after]
    exact swept
  · rw [after, addTick]
    split
    · refine swept.zadd_expire fun lasting => ?_
      have opened : 0 < args.window := by
        by_contra closed
        exact absurd (ttl_nonpos (not_lt.mp closed)) (not_le.mpr lasting)
      omega
    · exact swept

theorem pruned_check (r : Redis) {args : CheckArgs} (apart : args.rpmKey ≠ args.tpmKey) :
    args.pruned (check r args).2 = (check r args).2 :=
  (check_swept r apart).zremrangebyscore_eq

/-- A check that got past the RPM window finds the same tokens again. -/
theorem checkTPM_check (apart : args.rpmKey ≠ args.tpmKey) (room : ¬args.Full r) :
    checkTPM (check r args).2 args = ((check r args).2, (checkTPM (args.pruned r) args).2) := by
  refine checkTPM_again (time_check r args) ?_
  by_cases spent : args.Spent r
  · rw [check_of_spent room spent]
  · rw [check_of_room room spent]
    exact slots_addTick_ne apart.symm

theorem full_check_iff (r : Redis) {args : CheckArgs} (apart : args.rpmKey ≠ args.tpmKey) :
    args.Full (check r args).2 ↔ 0 < args.rpmLim ∧ args.rpmLim ≤ (check r args).2.zcard args.rpmKey := by
  rw [CheckArgs.Full, pruned_check r apart]

theorem spent_check_iff (apart : args.rpmKey ≠ args.tpmKey) (room : ¬args.Full r) :
    args.Spent (check r args).2 ↔ args.Spent r := by
  rw [CheckArgs.Spent, pruned_check r apart, checkTPM_check apart room, CheckArgs.Spent]

/-- A second execution leaves the server as the first one did. -/
theorem check_check (r : Redis) {args : CheckArgs} (apart : args.rpmKey ≠ args.tpmKey) :
    (check (check r args).2 args).2 = (check r args).2 := by
  by_cases again : args.Full (check r args).2
  · rw [check_of_full again, pruned_check r apart]
  · by_cases full : args.Full r
    · have denied := check_of_full full
      rw [full_check_iff r apart, denied] at again
      exact absurd full again
    · by_cases spent : args.Spent r
      · rw [check_of_spent again ((spent_check_iff apart full).mpr spent), pruned_check r apart,
          checkTPM_check apart full]
      · rw [check_of_room again (spent ∘ (spent_check_iff apart full).mp), pruned_check r apart,
          checkTPM_check apart full, check_of_room full spent]
        exact addTick_idem _ _

/-- The decision and the used counts of two replies agree. -/
def CheckReply.SameOutcome (reply reply' : CheckReply) : Prop :=
  reply.allowed = reply'.allowed ∧ reply.rejectCode = reply'.rejectCode ∧ reply.rpmUsed = reply'.rpmUsed ∧
    reply.tpmUsed = reply'.tpmUsed

instance (reply reply' : CheckReply) : Decidable (reply.SameOutcome reply') := inferInstanceAs (Decidable (_ ∧ _))

/-- The check does not count its own tick when it runs again: it writes none,
or its id is already among the live ticks. A window that is not positive keeps
no tick at all. -/
def CheckArgs.Repeatable (args : CheckArgs) (r : Redis) : Prop :=
  args.rpmLim ≤ 0 ∨ args.Full r ∨ args.Spent r ∨
    0 < args.window ∧ (∃ e ∈ (args.pruned r).zset args.rpmKey, e.member = args.reqID) ∨
    args.window ≤ 0 ∧ (args.pruned r).zcard args.rpmKey = 0

/-- The ticks that a second execution of an admitted check counts. -/
theorem zcard_addTick {args : CheckArgs} (limited : 0 < args.rpmLim) (r : Redis) :
    (addTick r args).zcard args.rpmKey =
      if 0 < args.window then (((r.zset args.rpmKey).insert args.reqID args.now).card : Int) else 0 := by
  rw [addTick, if_pos limited, Redis.zadd_expire, Redis.zcard]
  by_cases opened : 0 < args.window
  · have lasting := not_le.mpr (ttl_pos opened)
    rw [if_neg lasting, if_pos opened, Redis.zset_put_some (RedisSlot.live_of_ttl _ lasting)]
  · rw [if_pos (ttl_nonpos (not_lt.mp opened)), if_neg opened, Redis.zset, Redis.slot_put_self]
    rfl

theorem zcard_addTick_eq_iff {args : CheckArgs} (limited : 0 < args.rpmLim) (r : Redis) :
    (addTick r args).zcard args.rpmKey = r.zcard args.rpmKey ↔
      0 < args.window ∧ (∃ e ∈ r.zset args.rpmKey, e.member = args.reqID) ∨
        args.window ≤ 0 ∧ r.zcard args.rpmKey = 0 := by
  rw [zcard_addTick limited]
  by_cases opened : 0 < args.window
  · rw [if_pos opened]
    by_cases counted : ∃ e ∈ r.zset args.rpmKey, e.member = args.reqID
    · rw [SortedSet.card_insert_of_mem counted]
      exact iff_of_true rfl (Or.inl ⟨opened, counted⟩)
    · have fresh : ∀ e ∈ r.zset args.rpmKey, e.member ≠ args.reqID :=
        fun e member same => counted ⟨e, member, same⟩
      rw [SortedSet.card_insert_of_fresh fresh, Redis.zcard]
      refine iff_of_false (by omega) ?_
      rintro (⟨_, found⟩ | ⟨closed, _⟩)
      · exact counted found
      · omega
  · rw [if_neg opened]
    constructor
    · intro none
      exact Or.inr ⟨not_lt.mp opened, none.symm⟩
    · rintro (⟨yes, _⟩ | ⟨_, none⟩)
      · exact absurd yes opened
      · exact none.symm

theorem zcard_checkTPM (r : Redis) {args : CheckArgs} (apart : args.rpmKey ≠ args.tpmKey) :
    (checkTPM r args).1.zcard args.rpmKey = r.zcard args.rpmKey := by
  rw [Redis.zcard, zset_checkTPM_ne apart, Redis.zcard]

/-- A second execution that counts as many ticks as the first answers the same. -/
theorem sameOutcome_of_zcard (apart : args.rpmKey ≠ args.tpmKey) (room : ¬args.Full r)
    (counted : (check r args).2.zcard args.rpmKey = (args.pruned r).zcard args.rpmKey) :
    (check (check r args).2 args).1.SameOutcome (check r args).1 := by
  have again : ¬args.Full (check r args).2 := by
    rw [full_check_iff r apart, counted]
    exact room
  by_cases spent : args.Spent r
  · rw [check_of_spent again ((spent_check_iff apart room).mpr spent), pruned_check r apart,
      checkTPM_check apart room, counted, check_of_spent room spent]
    exact ⟨rfl, rfl, rfl, rfl⟩
  · rw [check_of_room again (spent ∘ (spent_check_iff apart room).mp), pruned_check r apart,
      checkTPM_check apart room, counted, check_of_room room spent]
    exact ⟨rfl, rfl, rfl, rfl⟩

/-- An admitted check that is answered the same again counted as many ticks. -/
theorem zcard_of_sameOutcome (apart : args.rpmKey ≠ args.tpmKey) (room : ¬args.Full r) (unspent : ¬args.Spent r)
    (same : (check (check r args).2 args).1.SameOutcome (check r args).1) :
    (check r args).2.zcard args.rpmKey = (args.pruned r).zcard args.rpmKey := by
  obtain ⟨allowed, _, used, _⟩ := same
  have first := congrArg Prod.fst (check_of_room room unspent)
  by_cases again : args.Full (check r args).2
  · rw [check_of_full again, first] at allowed
    cases allowed
  · rw [check_of_room again (unspent ∘ (spent_check_iff apart room).mp), pruned_check r apart, first] at used
    exact add_right_cancel used

/-- The same request asked again gets the same answer exactly when it does not
count itself. -/
theorem sameOutcome_iff (apart : args.rpmKey ≠ args.tpmKey) :
    (check (check r args).2 args).1.SameOutcome (check r args).1 ↔ args.Repeatable r := by
  unfold CheckArgs.Repeatable
  by_cases full : args.Full r
  · have again : args.Full (check r args).2 := by
      rw [full_check_iff r apart, check_of_full full]
      exact full
    rw [check_of_full again, pruned_check r apart, check_of_full full]
    exact iff_of_true ⟨rfl, rfl, rfl, rfl⟩ (Or.inr (Or.inl full))
  by_cases spent : args.Spent r
  · refine iff_of_true (sameOutcome_of_zcard apart full ?_) (Or.inr (Or.inr (Or.inl spent)))
    rw [check_of_spent full spent, zcard_checkTPM _ apart]
  have after : (check r args).2 = addTick (checkTPM (args.pruned r) args).1 args := by
    rw [check_of_room full spent]
  by_cases limited : 0 < args.rpmLim
  · have counts := zcard_addTick_eq_iff limited (checkTPM (args.pruned r) args).1
    rw [← after, zcard_checkTPM _ apart, zset_checkTPM_ne apart] at counts
    simp only [full, spent, not_le.mpr limited, false_or]
    rw [← counts]
    exact ⟨zcard_of_sameOutcome apart full spent, sameOutcome_of_zcard apart full⟩
  · refine iff_of_true (sameOutcome_of_zcard apart full ?_) (Or.inl (not_lt.mp limited))
    rw [after, addTick, if_neg limited, zcard_checkTPM _ apart]

/-- Both scripts may be delivered twice without harm to the sets, but the answer
of `check.lua` is the same only for a request that does not count itself: an
admitted request that takes the last free slot is rejected when its call is
delivered again, and any other is told one more used request. -/
theorem redelivered_iff (r : Redis) (args : CheckArgs) (record : RecordArgs) (apart : args.rpmKey ≠ args.tpmKey) :
    ((check (check r args).2 args).1.SameOutcome (check r args).1 ∧
        (check (check r args).2 args).2 = (check r args).2 ∧
        tpmRecord (tpmRecord r record) record = tpmRecord r record) ↔ args.Repeatable r := by
  have replayed : tpmRecord (tpmRecord r record) record = tpmRecord r record := Redis.zadd_expire_idem r _ _ _ _
  rw [← sameOutcome_iff apart]
  exact ⟨And.left, fun same => ⟨same, check_check r apart, replayed⟩⟩

/-- The call that `Reserve` sends under a limit of one request a minute. -/
def soleCheck : CheckArgs := ⟨"ratelimit:o:k:rpm", "ratelimit:o:k:tpm", 0, 60000, 1, 0, "i-0-1"⟩

/-- On an empty server the sole request is admitted, and rejected when the same
call is delivered again. -/
theorem not_redelivered :
    (check (Redis.fresh 0) soleCheck).1.allowed = 1 ∧
      (check (check (Redis.fresh 0) soleCheck).2 soleCheck).1.allowed = 0 := ⟨rfl, rfl⟩

/-- A second request in the same minute. -/
def lateCheck : CheckArgs := { soleCheck with reqID := "i-0-2" }

/-- A request that finds the window full is rejected as often as its call is
delivered. -/
theorem redelivered_iff_full :
    lateCheck.Full (check (Redis.fresh 0) soleCheck).2 ∧
      (check (check (check (Redis.fresh 0) soleCheck).2 lateCheck).2 lateCheck).1.SameOutcome
        (check (check (Redis.fresh 0) soleCheck).2 lateCheck).1 := by
  have full : lateCheck.Full (check (Redis.fresh 0) soleCheck).2 := ⟨by decide, by decide⟩
  refine ⟨full, ?_⟩
  exact ((redelivered_iff _ lateCheck ⟨"", 0, 0, "", 0⟩ (by decide)).mpr (Or.inr (Or.inl full))).1

end Redelivery

end LlmGateway
