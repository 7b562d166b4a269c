import LlmGateway.RateLimit.Tracking

namespace LlmGateway

/-- An entry without the id in its member. -/
def entryItem (e : ScoredMember String) : Int × Int := (e.score, memberTokens e.member)

/-- The sets hold the same items under perhaps different ids, and expire at the
same time. -/
structure RedisSlot.Alike (s s' : RedisSlot) : Prop where
  items : (s.zset.entries.map entryItem).Perm (s'.zset.entries.map entryItem)
  deadline : s.deadline = s'.deadline

theorem RedisSlot.Alike.live {s s' : RedisSlot} (alike : s.Alike s') (time : Int) : s.live time = s'.live time := by
  unfold RedisSlot.live
  rw [alike.deadline]

namespace Redis

variable {r r' : Redis} {key : String}

/-- The servers show the same time and hold alike sets at the key. -/
structure AlikeAt (r r' : Redis) (key : String) : Prop where
  time : r.time = r'.time
  slots : Option.Rel RedisSlot.Alike (r.slots key) (r'.slots key)

theorem AlikeAt.slot (alike : AlikeAt r r' key) : Option.Rel RedisSlot.Alike (r.slot key) (r'.slot key) := by
  have slots := alike.slots
  unfold Redis.slot
  rw [← alike.time]
  generalize r.slots key = o at slots ⊢
  generalize r'.slots key = o' at slots ⊢
  cases slots with
  | none => exact .none
  | some both =>
    rw [Option.filter_some, Option.filter_some, both.live]
    split
    · exact .some both
    · exact .none

theorem AlikeAt.items (alike : AlikeAt r r' key) :
    ((r.zset key).entries.map entryItem).Perm ((r'.zset key).entries.map entryItem) := by
  have slot := alike.slot
  unfold Redis.zset
  generalize r.slot key = o at slot ⊢
  generalize r'.slot key = o' at slot ⊢
  cases slot with
  | none => exact .refl _
  | some both => exact both.items

theorem AlikeAt.put (alike : AlikeAt r r' key) {s s' : Option RedisSlot} (both : Option.Rel RedisSlot.Alike s s') :
    AlikeAt (r.put key s) (r'.put key s') key where
  time := alike.time
  slots := by
    simp only [Redis.put, Function.update_self]
    exact both

theorem AlikeAt.of_slots {t t' : Redis} (alike : AlikeAt r r' key) (time : t.time = r.time) (time' : t'.time = r'.time)
    (slots : t.slots key = r.slots key) (slots' : t'.slots key = r'.slots key) : AlikeAt t t' key where
  time := time.trans (alike.time.trans time'.symm)
  slots := by
    rw [slots, slots']
    exact alike.slots

theorem AlikeAt.put_bind (alike : AlikeAt r r' key) {change change' : RedisSlot → Option RedisSlot}
    (both : ∀ s s', s.Alike s' → Option.Rel RedisSlot.Alike (change s) (change' s')) :
    AlikeAt (r.put key ((r.slot key).bind change)) (r'.put key ((r'.slot key).bind change')) key := by
  refine alike.put ?_
  have slot := alike.slot
  generalize r.slot key = o at slot ⊢
  generalize r'.slot key = o' at slot ⊢
  cases slot with
  | none => exact .none
  | some same => exact both _ _ same

theorem AlikeAt.zremrangebyscore (alike : AlikeAt r r' key) (bound : Int) :
    AlikeAt (r.zremrangebyscore key bound) (r'.zremrangebyscore key bound) key := by
  refine alike.put_bind fun s s' both => ?_
  have kept : ((s.zset.removeUpTo bound).entries.map entryItem).Perm
      ((s'.zset.removeUpTo bound).entries.map entryItem) := by
    have cut := both.items.filter fun x => decide (bound < x.1)
    rw [List.filter_map, List.filter_map] at cut
    exact cut
  have emptied : (s.zset.removeUpTo bound).entries = [] ↔ (s'.zset.removeUpTo bound).entries = [] := by
    have same := kept.length_eq
    rw [List.length_map, List.length_map] at same
    rw [← List.length_eq_zero_iff, ← List.length_eq_zero_iff, same]
  simp only [emptied]
  split
  · exact .none
  · exact .some ⟨kept, both.deadline⟩

theorem AlikeAt.zadd (alike : AlikeAt r r' key) {member member' : String}
    (tokens : memberTokens member = memberTokens member') (fresh : ∀ e ∈ r.zset key, e.member ≠ member)
    (fresh' : ∀ e ∈ r'.zset key, e.member ≠ member') (score : Int) :
    AlikeAt (r.zadd key score member) (r'.zadd key score member') key := by
  refine alike.put (.some ⟨?_, ?_⟩)
  · have added := (SortedSet.insert_perm_of_fresh fresh score).map entryItem
    have added' := (SortedSet.insert_perm_of_fresh fresh' score).map entryItem
    refine added.trans (.trans ?_ added'.symm)
    simp only [List.map_cons, entryItem, tokens]
    exact alike.items.cons _
  · have slot := alike.slot
    generalize r.slot key = o at slot ⊢
    generalize r'.slot key = o' at slot ⊢
    cases slot with
    | none => rfl
    | some both => exact both.deadline

theorem AlikeAt.expire (alike : AlikeAt r r' key) (seconds : Int) :
    AlikeAt (r.expire key seconds) (r'.expire key seconds) key := by
  refine alike.put_bind fun s s' both => ?_
  split
  · exact .none
  · exact .some ⟨both.items, by rw [alike.time]⟩

theorem AlikeAt.zcard (alike : AlikeAt r r' key) : r.zcard key = r'.zcard key := by
  have same := alike.items.length_eq
  rw [List.length_map, List.length_map] at same
  exact congrArg Int.ofNat same

theorem AlikeAt.oldestScore (alike : AlikeAt r r' key) (now : Int) :
    LlmGateway.oldestScore r key now = LlmGateway.oldestScore r' key now := by
  have scores : ((r.zset key).entries.map ScoredMember.score).Perm ((r'.zset key).entries.map ScoredMember.score) := by
    simpa [List.map_map, Function.comp_def, entryItem] using alike.items.map Prod.fst
  unfold LlmGateway.oldestScore
  rw [SortedSet.leastScore_congr scores]

theorem AlikeAt.sumTokens (alike : AlikeAt r r' key) :
    LlmGateway.sumTokens (r.zrange key) = LlmGateway.sumTokens (r'.zrange key) := by
  have tokens := (alike.items.map Prod.snd).sum_eq
  simpa [sumTokens_eq_sum, Redis.zrange, List.map_map, Function.comp_def, entryItem] using tokens

end Redis

section Check

variable {r r' : Redis} {args : CheckArgs}

/-- The servers are alike at both keys of the check. -/
structure CheckArgs.AlikeOn (args : CheckArgs) (r r' : Redis) : Prop where
  rpm : r.AlikeAt r' args.rpmKey
  tpm : r.AlikeAt r' args.tpmKey

/-- The same check under another request id. -/
def CheckArgs.withID (args : CheckArgs) (id : String) : CheckArgs := { args with reqID := id }

theorem CheckArgs.AlikeOn.pruned (alike : args.AlikeOn r r') (apart : args.rpmKey ≠ args.tpmKey) (id : String) :
    args.AlikeOn (args.pruned r) ((args.withID id).pruned r') where
  rpm := alike.rpm.zremrangebyscore _
  tpm := alike.tpm.of_slots rfl rfl (Redis.slots_put_ne apart.symm _) (Redis.slots_put_ne apart.symm _)

theorem CheckArgs.AlikeOn.checkTPM (alike : args.AlikeOn r r') (apart : args.rpmKey ≠ args.tpmKey) (id : String) :
    (checkTPM r args).2 = (checkTPM r' (args.withID id)).2 ∧
      args.AlikeOn (checkTPM r args).1 (checkTPM r' (args.withID id)).1 := by
  unfold LlmGateway.checkTPM
  by_cases limited : 0 < args.tpmLim
  · have swept := alike.tpm.zremrangebyscore (args.now - args.window)
    rw [if_pos limited, if_pos (show 0 < (args.withID id).tpmLim from limited)]
    refine ⟨Prod.ext swept.sumTokens (swept.oldestScore _), ?_, swept⟩
    exact alike.rpm.of_slots rfl rfl (Redis.slots_put_ne apart _) (Redis.slots_put_ne apart _)
  · rw [if_neg limited, if_neg (show ¬0 < (args.withID id).tpmLim from limited)]
    exact ⟨rfl, alike⟩

theorem CheckArgs.AlikeOn.addTick (alike : args.AlikeOn r r') (apart : args.rpmKey ≠ args.tpmKey) {id : String}
    (tokens : memberTokens args.reqID = memberTokens id) (fresh : ∀ e ∈ r.zset args.rpmKey, e.member ≠ args.reqID)
    (fresh' : ∀ e ∈ r'.zset args.rpmKey, e.member ≠ id) :
    args.AlikeOn (addTick r args) (addTick r' (args.withID id)) where
  rpm := by
    unfold LlmGateway.addTick
    by_cases limited : 0 < args.rpmLim
    · rw [if_pos limited, if_pos (show 0 < (args.withID id).rpmLim from limited)]
      exact (alike.rpm.zadd tokens fresh fresh' _).expire _
    · rw [if_neg limited, if_neg (show ¬0 < (args.withID id).rpmLim from limited)]
      exact alike.rpm
  tpm := alike.tpm.of_slots (time_addTick _ _) (time_addTick _ _) (slots_addTick_ne apart.symm)
    (slots_addTick_ne apart.symm)

theorem Redis.Stores.of_put_ne {key other : String} {s : Option RedisSlot} {e : ScoredMember String}
    (stores : (r.put other s).Stores key e) (apart : key ≠ other) : r.Stores key e := by
  obtain ⟨slot, stored, member⟩ := stores
  exact ⟨slot, (Redis.slots_put_ne apart s).symm.trans stored, member⟩

theorem Redis.Stores.of_prune {key other : String} {bound : Int} {e : ScoredMember String}
    (stores : (r.zremrangebyscore other bound).Stores key e) : r.Stores key e := by
  by_cases same : key = other
  · subst same
    exact stores.of_zremrangebyscore
  · exact stores.of_put_ne same

theorem Redis.Stores.of_checkTPM {key : String} {e : ScoredMember String}
    (stores : (checkTPM r args).1.Stores key e) : r.Stores key e := by
  unfold LlmGateway.checkTPM at stores
  split at stores
  · exact stores.of_prune
  · exact stores

/-- What `ZADD` and `EXPIRE` leave at a key was there before or is the new entry. -/
theorem Redis.Stores.of_zadd_expire {key other member : String} {score seconds : Int} {e : ScoredMember String}
    (stores : ((r.zadd other score member).expire other seconds).Stores key e) :
    r.Stores key e ∨ key = other ∧ e = ⟨member, score⟩ := by
  by_cases same : key = other
  · subst same
    obtain ⟨s, stored, inside⟩ := stores
    rw [Redis.zadd_expire, Redis.slots_put_self] at stored
    split at stored
    · cases stored
    · cases stored
      rcases SortedSet.mem_insert.mp inside with rfl | ⟨old, _⟩
      · exact Or.inr ⟨rfl, rfl⟩
      · exact Or.inl (Redis.stores_of_mem_zset old)
  · exact Or.inl (Redis.Stores.of_put_ne (stores.of_put_ne same) same)

theorem Redis.Stores.of_check {key : String} {e : ScoredMember String}
    (stores : (check r args).2.Stores key e) : r.Stores key e ∨ key = args.rpmKey ∧ e = ⟨args.reqID, args.now⟩ := by
  rcases check_cases r args with ⟨_, _, _, _, after⟩ | ⟨_, _, _, _, _, after⟩ | ⟨_, _, _, _, after⟩
  · rw [after] at stores
    exact Or.inl stores.of_prune
  · rw [after] at stores
    exact Or.inl stores.of_checkTPM.of_prune
  · rw [after, addTick] at stores
    split at stores
    · rcases stores.of_zadd_expire with old | new
      · exact Or.inl old.of_checkTPM.of_prune
      · exact Or.inr new
    · exact Or.inl stores.of_checkTPM.of_prune

/-- `check.lua` answers alike servers alike, whatever fresh id the request has. -/
theorem CheckArgs.AlikeOn.check (alike : args.AlikeOn r r') (apart : args.rpmKey ≠ args.tpmKey) {id : String}
    (tokens : memberTokens args.reqID = memberTokens id)
    (fresh : ∀ e, r.Stores args.rpmKey e → e.member ≠ args.reqID)
    (fresh' : ∀ e, r'.Stores args.rpmKey e → e.member ≠ id) :
    (check r args).1 = (check r' (args.withID id)).1 ∧
      args.AlikeOn (check r args).2 (check r' (args.withID id)).2 := by
  have pruned := alike.pruned apart id
  obtain ⟨totals, swept⟩ := pruned.checkTPM apart id
  have ticked := swept.addTick apart tokens
    (fun e member => fresh e (Redis.stores_of_mem_zset member).of_checkTPM.of_prune)
    (fun e member => fresh' e (Redis.stores_of_mem_zset member).of_checkTPM.of_prune)
  have sameFull : args.Full r ↔ (args.withID id).Full r' := by
    unfold CheckArgs.Full
    rw [pruned.rpm.zcard]
    exact Iff.rfl
  have sameSpent : args.Spent r ↔ (args.withID id).Spent r' := by
    unfold CheckArgs.Spent
    rw [totals]
    exact Iff.rfl
  by_cases full : args.Full r
  · rw [check_of_full full, check_of_full (sameFull.mp full), pruned.rpm.zcard, pruned.rpm.oldestScore]
    exact ⟨rfl, pruned⟩
  · have room := full ∘ sameFull.mpr
    by_cases spent : args.Spent r
    · rw [check_of_spent full spent, check_of_spent room (sameSpent.mp spent), pruned.rpm.zcard,
        swept.rpm.oldestScore, totals]
      exact ⟨rfl, swept⟩
    · rw [check_of_room full spent, check_of_room room (spent ∘ sameSpent.mpr), pruned.rpm.zcard,
        ticked.rpm.oldestScore, totals]
      exact ⟨rfl, ticked⟩

/-- A check touches no key but its own two. -/
theorem slots_check_ne {key : String} (rpm : key ≠ args.rpmKey) (tpm : key ≠ args.tpmKey) :
    (check r args).2.slots key = r.slots key := by
  have pruned : (args.pruned r).slots key = r.slots key := Redis.slots_put_ne rpm _
  have swept : (checkTPM (args.pruned r) args).1.slots key = r.slots key := (slots_checkTPM_ne tpm).trans pruned
  rcases check_cases r args with ⟨_, _, _, _, after⟩ | ⟨_, _, _, _, _, after⟩ | ⟨_, _, _, _, after⟩
  · rw [after, pruned]
  · rw [after, swept]
  · rw [after, slots_addTick_ne rpm, swept]

theorem slots_tpmRecord_ne {record : RecordArgs} {key : String} (apart : key ≠ record.key) :
    (tpmRecord r record).slots key = r.slots key :=
  (Redis.slots_put_ne apart _).trans (Redis.slots_put_ne apart _)

end Check

end LlmGateway
