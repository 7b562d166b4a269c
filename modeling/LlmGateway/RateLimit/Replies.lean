import LlmGateway.RateLimit.Reference

namespace LlmGateway

/-- The earliest of some stamps that are not after `now`; `now` if there are none. -/
def earliest (now : Int) (stamps : List Int) : Int := stamps.foldr min now

theorem earliest_perm {now : Int} {stamps others : List Int} (same : stamps.Perm others) :
    earliest now stamps = earliest now others := same.foldr_eq now

theorem earliest_le_now (now : Int) (stamps : List Int) : earliest now stamps ≤ now := by
  induction stamps with
  | nil => exact le_rfl
  | cons stamp stamps ih => exact (min_le_right _ _).trans ih

theorem earliest_le {now stamp : Int} {stamps : List Int} (member : stamp ∈ stamps) : earliest now stamps ≤ stamp := by
  induction stamps with
  | nil => cases member
  | cons first stamps ih =>
    rcases List.mem_cons.mp member with rfl | later
    · exact min_le_left _ _
    · exact (min_le_right _ _).trans (ih later)

/-- The earliest of some stamps is one of them. -/
theorem earliest_mem {now : Int} {stamps : List Int} (past : ∀ stamp ∈ stamps, stamp ≤ now) (some : stamps ≠ []) :
    earliest now stamps ∈ stamps := by
  induction stamps with
  | nil => exact absurd rfl some
  | cons first stamps ih =>
    obtain ⟨here, past⟩ := List.forall_mem_cons.mp past
    by_cases single : stamps = []
    · subst single
      exact List.mem_singleton.mpr (min_eq_left here)
    · rcases min_choice first (earliest now stamps) with least | least
      · exact List.mem_cons.mpr (.inl least)
      · exact List.mem_cons.mpr (.inr ((congrArg (· ∈ stamps) least).mpr (ih past single)))

namespace UsageLog

variable (log : UsageLog) (window : Int)

/-- The stamps of the requests in the window that ends now. -/
def liveTicks (now : Int) : List Int := log.ticks.filter fun t => now - window < t ∧ t ≤ now

def liveRecords (now : Int) : List (Int × Int) := log.records.filter fun u => now - window < u.1 ∧ u.1 ≤ now

/-- The tokens spent and the stamp of the oldest record, which are not looked at
without a limit. -/
def spent (tpm now : Int) : Int × Int :=
  if 0 < tpm then (log.tokensAt window now, earliest now ((log.liveRecords window now).map Prod.fst)) else (0, now)

/-- The reply of `check.lua` in terms of the log. A request that is rejected for
the requests is told nothing about the tokens. -/
def reply (rpm tpm now : Int) : CheckReply :=
  let requests := log.requestsAt window now
  let oldest := earliest now (log.liveTicks window now)
  match log.decision window rpm tpm now with
  | .rejectedRPM => ⟨0, 1, requests, oldest, 0, now⟩
  | .rejectedTPM => ⟨0, 2, requests, oldest, (log.spent window tpm now).1, (log.spent window tpm now).2⟩
  | .allowed => ⟨1, 0, requests + 1, oldest, (log.spent window tpm now).1, (log.spent window tpm now).2⟩

end UsageLog

section Check

variable {log : UsageLog} {r : Redis} {args : CheckArgs} {known knownTokens : String → Prop}

/-- The oldest entry of a set of known scores. -/
theorem oldestScore_eq {key : String} {now : Int} {stamps : List Int}
    (scores : ((r.zset key).entries.map ScoredMember.score).Perm stamps) (past : ∀ stamp ∈ stamps, stamp ≤ now) :
    oldestScore r key now = earliest now stamps := by
  rw [oldestScore, SortedSet.leastScore_getD fun e member => past _ (scores.subset (List.mem_map_of_mem member))]
  exact earliest_perm scores

theorem scores_pruned (now : args.now = r.time)
    (ticks : Mirrors r args.rpmKey args.window (fun e => e.score) id log.ticks known) :
    (((args.pruned r).zset args.rpmKey).entries.map ScoredMember.score).Perm (log.liveTicks args.window args.now) := by
  rw [CheckArgs.pruned, UsageLog.liveTicks, now]
  rw [show (log.ticks.filter fun t => r.time - args.window < t ∧ t ≤ r.time) = _ from filter_past ticks.past]
  exact ticks.entries_pruned

theorem scores_swept (now : args.now = r.time)
    (records : Mirrors r args.tpmKey args.window (fun e => (e.score, memberTokens e.member)) Prod.fst log.records
      knownTokens) :
    (((r.zremrangebyscore args.tpmKey (args.now - args.window)).zset args.tpmKey).entries.map
      ScoredMember.score).Perm ((log.liveRecords args.window args.now).map Prod.fst) := by
  have seen := records.entries_pruned.map Prod.fst
  rw [List.map_map] at seen
  rw [now, UsageLog.liveRecords, filter_past records.past]
  exact seen

theorem UsageLog.live_of_liveTicks (log : UsageLog) (window now : Int) :
    ∀ t ∈ log.liveTicks window now, now - window < t ∧ t ≤ now :=
  fun _ member => of_decide_eq_true (List.mem_filter.mp member).2

theorem UsageLog.live_of_liveRecords (log : UsageLog) (window now : Int) :
    ∀ t ∈ (log.liveRecords window now).map Prod.fst, now - window < t ∧ t ≤ now :=
  List.forall_mem_map.mpr fun _ member => of_decide_eq_true (List.mem_filter.mp member).2

theorem UsageLog.liveTicks_le (log : UsageLog) (window now : Int) : ∀ t ∈ log.liveTicks window now, t ≤ now :=
  fun t member => (log.live_of_liveTicks window now t member).2

theorem UsageLog.liveRecords_le (log : UsageLog) (window now : Int) :
    ∀ t ∈ (log.liveRecords window now).map Prod.fst, t ≤ now :=
  fun t member => (log.live_of_liveRecords window now t member).2

variable (at_ : LogAt r args log known knownTokens) (now : args.now = r.time) (apart : args.rpmKey ≠ args.tpmKey)

include at_ now

theorem LogAt.full_iff : args.Full r ↔ 0 < args.rpmLim ∧ args.rpmLim ≤ log.requestsAt args.window args.now := by
  rw [CheckArgs.Full, zcard_pruned now at_.ticks, now]

/-- The oldest tick after pruning. -/
theorem LogAt.oldest_pruned :
    oldestScore (args.pruned r) args.rpmKey args.now = earliest args.now (log.liveTicks args.window args.now) :=
  oldestScore_eq (scores_pruned now at_.ticks) (log.liveTicks_le _ _)

include apart

/-- The sum and the oldest record that `check.lua` finds. -/
theorem LogAt.spent : (LlmGateway.checkTPM (args.pruned r) args).2 = log.spent args.window args.tpmLim args.now := by
  have pruned := at_.pruned now apart
  have same : args.now = (args.pruned r).time := now
  rw [UsageLog.spent]
  split
  · rename_i limited
    have total := tokens_checkTPM same limited pruned.records
    rw [← same] at total
    have oldest : (LlmGateway.checkTPM (args.pruned r) args).2.2 =
        earliest args.now ((log.liveRecords args.window args.now).map Prod.fst) := by
      rw [LlmGateway.checkTPM, if_pos limited]
      exact oldestScore_eq (scores_swept same pruned.records) (log.liveRecords_le _ _)
    exact Prod.ext total oldest
  · rename_i unlimited
    rw [LlmGateway.checkTPM, if_neg unlimited]

theorem LogAt.spent_iff : args.Spent r ↔ 0 < args.tpmLim ∧ args.tpmLim ≤ log.tokensAt args.window args.now := by
  rw [CheckArgs.Spent, at_.spent now apart, UsageLog.spent]
  constructor
  · rintro ⟨limited, reached⟩
    rw [if_pos limited] at reached
    exact ⟨limited, reached⟩
  · rintro ⟨limited, reached⟩
    rw [if_pos limited]
    exact ⟨limited, reached⟩

/-- Sweeping the tokens leaves the oldest tick as it is. -/
theorem LogAt.oldest_swept :
    oldestScore (LlmGateway.checkTPM (args.pruned r) args).1 args.rpmKey args.now =
      earliest args.now (log.liveTicks args.window args.now) := by
  rw [← at_.oldest_pruned now, oldestScore, zset_checkTPM_ne apart, oldestScore]

/-- A new tick is not older than those before it. -/
theorem LogAt.oldest_ticked (positive : 0 < args.window) (new : ¬ known args.reqID) :
    oldestScore (LlmGateway.addTick (LlmGateway.checkTPM (args.pruned r) args).1 args) args.rpmKey args.now =
      earliest args.now (log.liveTicks args.window args.now) := by
  rw [LlmGateway.addTick]
  split
  · have fresh : ∀ e ∈ (args.pruned r).zset args.rpmKey, e.member ≠ args.reqID := by
      intro e inside same
      exact new (same ▸ (at_.pruned now apart).ticks.members e (Redis.stores_of_mem_zset inside))
    have added := (SortedSet.insert_perm_of_fresh fresh args.now).map ScoredMember.score
    have scores : (((LlmGateway.checkTPM (args.pruned r) args).1.zadd args.rpmKey args.now args.reqID).expire
        args.rpmKey (ceilDiv (args.window * 2) 1000)).zset args.rpmKey =
        ((args.pruned r).zset args.rpmKey).insert args.reqID args.now := by
      rw [Redis.zset_zadd_expire (ttl_pos positive), zset_checkTPM_ne apart]
    rw [oldestScore_eq (scores ▸ added.trans ((scores_pruned now at_.ticks).cons _))
      (List.forall_mem_cons.mpr ⟨le_rfl, log.liveTicks_le _ _⟩)]
    exact min_eq_right (earliest_le_now _ _)
  · exact at_.oldest_swept now apart

/-- The reply of `check.lua` is the one the log gives. -/
theorem LogAt.reply (positive : 0 < args.window) (new : ¬ known args.reqID) :
    (LlmGateway.check r args).1 = log.reply args.window args.rpmLim args.tpmLim args.now := by
  have count : (args.pruned r).zcard args.rpmKey = log.requestsAt args.window args.now := by
    rw [zcard_pruned now at_.ticks, now]
  unfold UsageLog.reply UsageLog.decision
  by_cases full : args.Full r
  · rw [check_of_full full, if_pos ((at_.full_iff now).mp full), count, at_.oldest_pruned now]
  · rw [if_neg (mt (at_.full_iff now).mpr full)]
    by_cases spent : args.Spent r
    · rw [check_of_spent full spent, if_pos ((at_.spent_iff now apart).mp spent), count, at_.oldest_swept now apart,
        at_.spent now apart]
    · rw [check_of_room full spent, if_neg (mt (at_.spent_iff now apart).mpr spent), count,
        at_.oldest_ticked now apart positive new, at_.spent now apart]

end Check

/-- The reply as `parseCheckResult` reads it. -/
def CheckReply.parsed (reply : CheckReply) : CheckResult :=
  ⟨reply.allowed = 1, reply.rejectCode, reply.rpmUsed, reply.rpmOldestMs, reply.tpmUsed, reply.tpmOldestMs⟩

/-- The reservation `Reserve` makes out of the log. -/
def UsageLog.reservation (log : UsageLog) (lim : RedisLimiter) (rpm tpm now : Int) : Reservation :=
  if rpm ≤ 0 ∧ tpm ≤ 0 then { allowed := true }
  else lim.reservationOf rpm tpm now (log.reply lim.windowMs rpm tpm now).parsed

namespace UsageLog

variable {log : UsageLog} {window rpm tpm now : Int} {lim : RedisLimiter}

theorem decision_eq_rejectedRPM :
    log.decision window rpm tpm now = .rejectedRPM ↔ 0 < rpm ∧ rpm ≤ log.requestsAt window now := by
  unfold decision
  split
  · simp [*]
  · split <;> simp [*]

theorem decision_eq_rejectedTPM :
    log.decision window rpm tpm now = .rejectedTPM ↔
      ¬ (0 < rpm ∧ rpm ≤ log.requestsAt window now) ∧ 0 < tpm ∧ tpm ≤ log.tokensAt window now := by
  unfold decision
  split
  · simp [*]
  · split <;> simp [*]

theorem decision_eq_allowed :
    log.decision window rpm tpm now = .allowed ↔
      ¬ (0 < rpm ∧ rpm ≤ log.requestsAt window now) ∧ ¬ (0 < tpm ∧ tpm ≤ log.tokensAt window now) := by
  unfold decision
  split
  · simp [*]
  · split <;> simp [*]

theorem reservation_rejectedRPM (rejected : log.decision lim.windowMs rpm tpm now = .rejectedRPM) :
    log.reservation lim rpm tpm now = lim.reservationOf rpm tpm now
      ⟨false, 1, log.requestsAt lim.windowMs now, earliest now (log.liveTicks lim.windowMs now), 0, now⟩ := by
  have limited := (decision_eq_rejectedRPM.mp rejected).1
  rw [reservation, if_neg (by omega), reply, rejected]
  rfl

theorem reservation_rejectedTPM (rejected : log.decision lim.windowMs rpm tpm now = .rejectedTPM) :
    log.reservation lim rpm tpm now = lim.reservationOf rpm tpm now
      ⟨false, 2, log.requestsAt lim.windowMs now, earliest now (log.liveTicks lim.windowMs now),
        log.tokensAt lim.windowMs now, earliest now ((log.liveRecords lim.windowMs now).map Prod.fst)⟩ := by
  have limited := (decision_eq_rejectedTPM.mp rejected).2.1
  rw [reservation, if_neg (by omega), reply, rejected, spent, if_pos limited]
  rfl

theorem reservation_allowed (limited : ¬ (rpm ≤ 0 ∧ tpm ≤ 0))
    (admitted : log.decision lim.windowMs rpm tpm now = .allowed) :
    log.reservation lim rpm tpm now = lim.reservationOf rpm tpm now
      ⟨true, 0, log.requestsAt lim.windowMs now + 1, earliest now (log.liveTicks lim.windowMs now),
        (log.spent lim.windowMs tpm now).1, (log.spent lim.windowMs tpm now).2⟩ := by
  rw [reservation, if_neg limited, reply, admitted]
  rfl

/-- The reservation passes the request iff the reference admits it. -/
theorem allowed_reservation :
    (log.reservation lim rpm tpm now).allowed ↔ log.decision lim.windowMs rpm tpm now = .allowed := by
  cases decided : log.decision lim.windowMs rpm tpm now with
  | rejectedRPM => simp [reservation_rejectedRPM decided, RedisLimiter.reservationOf]
  | rejectedTPM => simp [reservation_rejectedTPM decided, RedisLimiter.reservationOf]
  | allowed =>
    by_cases unlimited : rpm ≤ 0 ∧ tpm ≤ 0
    · simp [reservation, unlimited]
    · simp [reservation_allowed unlimited decided, RedisLimiter.reservationOf]

end UsageLog

/-- The state when the server's clock shows the given time. -/
def LimiterState.clockAt {ι : Type} (s : LimiterState ι) (time : Int) : LimiterState ι :=
  ⟨s.gateways, { s.redis with time := time }⟩

namespace Fleet

variable {ι : Type} [DecidableEq ι] (F : Fleet ι) (key : KeyInfo)

/-- `Reserve` at one instance. The server's clock shows the stamp. -/
def reserve (s : LimiterState ι) (i : ι) (rpm tpm nowMs : Int) : RedisLimiter.ReserveResult :=
  (F.limiter i).reserve ((s.clockAt nowMs).gateways i) (s.clockAt nowMs).redis { key with rpm := rpm, tpm := tpm }
    nowMs

def after (s : LimiterState ι) (calls : List (LimiterCall ι)) : LimiterState ι :=
  calls.foldl (fun s c => (F.call key s c).2) s

/-- The limits in effect at an instance. -/
def limits (i : ι) (rpm tpm : Int) : Int × Int :=
  ((F.limiter i).effectiveRPM { key with rpm := rpm, tpm := tpm },
    (F.limiter i).effectiveTPM { key with rpm := rpm, tpm := tpm })

end Fleet

section Runs

variable {ι : Type} {F : Fleet ι} {key : KeyInfo} {window : Int} {s : LimiterState ι} {log : UsageLog}

theorem Simulates.reservation {nowMs : Int} (sim : Simulates F key window (s.clockAt nowMs) log) {i : ι}
    (windowed : (F.limiter i).windowMs = window) (rpm tpm : Int) :
    (F.reserve key s i rpm tpm nowMs).reservation =
      .ok (log.reservation (F.limiter i) (F.limits key i rpm tpm).1 (F.limits key i rpm tpm).2 nowMs) := by
  subst windowed
  rw [UsageLog.reservation, Fleet.reserve]
  split
  · rename_i unlimited
    rw [RedisLimiter.reserve_of_none (if_pos unlimited)]
  · rename_i limited
    let args : CheckArgs := ⟨rpmKey key, tpmKey key, nowMs, (F.limiter i).windowMs, (F.limits key i rpm tpm).1,
      (F.limits key i rpm tpm).2, ((s.gateways i).newReqID nowMs).1⟩
    have sent : (F.limiter i).reserveCall ((s.clockAt nowMs).gateways i) { key with rpm := rpm, tpm := tpm } nowMs =
        (some args, ((s.gateways i).newReqID nowMs).2) := if_neg limited
    have at_ : LogAt (s.clockAt nowMs).redis args log (Issued s.gateways) (KnownTokens s.gateways) :=
      ⟨sim.ticks, sim.records⟩
    have replied := at_.reply rfl (rpmKey_ne_tpmKey key key) (F.limiter i).windowMs_pos
      (newReqID_not_issued sim.owned i nowMs)
    simp only [RedisLimiter.reserve, sent, parseCheckResult_toResp, replied]
    rfl

variable [DecidableEq ι] {calls : List (LimiterCall ι)}

/-- The state a reservation leaves. -/
theorem Simulates.reserved {nowMs : Int} (sim : Simulates F key window (s.clockAt nowMs) log) {i : ι}
    (windowed : (F.limiter i).windowMs = window) (rpm tpm : Int) :
    let res := F.reserve key s i rpm tpm nowMs
    res.redis.time = nowMs ∧ Simulates F key window ⟨Function.update s.gateways i res.gateway, res.redis⟩
      (log.reserve window (F.limits key i rpm tpm).1 (F.limits key i rpm tpm).2 nowMs).2 := by
  obtain ⟨-, clock, next⟩ := sim.reserve windowed rpm tpm rfl
  exact ⟨clock, next⟩

/-- The state after some calls simulates the reference's log. -/
theorem Simulates.after (sim : Simulates F key window s log) (windowed : ∀ i, (F.limiter i).windowMs = window)
    (later : ∀ c ∈ calls, s.redis.time ≤ c.stamp) (ordered : calls.Pairwise fun a b => a.stamp ≤ b.stamp)
    {now : Int} (start : s.redis.time ≤ now) (latest : ∀ c ∈ calls, c.stamp ≤ now) :
    (F.after key s calls).redis.time ≤ now ∧
      Simulates F key window (F.after key s calls) (F.referenceLog key window log calls) := by
  induction calls generalizing s log with
  | nil => exact ⟨start, sim⟩
  | cons c calls ih =>
    obtain ⟨first, rest⟩ := List.pairwise_cons.mp ordered
    obtain ⟨here, latest⟩ := List.forall_mem_cons.mp latest
    obtain ⟨-, clock, next⟩ := sim.call windowed c (later c List.mem_cons_self)
    exact ih next (fun c' member => clock ▸ first c' member) rest (clock ▸ here) latest

/-- The state that some calls reach from the start, when its clock shows a later time. -/
theorem Fleet.simulates_after (windowed : ∀ i, (F.limiter i).windowMs = window) (time : Int)
    (ordered : calls.Pairwise fun a b => a.stamp ≤ b.stamp) {now : Int} (latest : ∀ c ∈ calls, c.stamp ≤ now) :
    Simulates F key window ((F.after key (F.idle time) calls).clockAt now)
      (F.referenceLog key window ⟨[], []⟩ calls) := by
  cases calls with
  | nil => exact Simulates.idle F key window now
  | cons c calls =>
    have reset : F.after key (F.idle time) (c :: calls) = F.after key (F.idle c.stamp) (c :: calls) := by
      cases c <;> rfl
    have since : ∀ c' ∈ c :: calls, c.stamp ≤ c'.stamp :=
      List.forall_mem_cons.mpr ⟨le_rfl, (List.pairwise_cons.mp ordered).1⟩
    obtain ⟨clock, sim⟩ := (Simulates.idle F key window c.stamp).after windowed since ordered
      (latest c List.mem_cons_self) latest
    rw [reset]
    exact sim.later clock

/-- The decision taken after some calls. -/
theorem Fleet.decision_after (F : Fleet ι) (key : KeyInfo) (windowed : ∀ i, (F.limiter i).windowMs = window)
    (time : Int) (ordered : calls.Pairwise fun a b => a.stamp ≤ b.stamp) {now : Int}
    (latest : ∀ c ∈ calls, c.stamp ≤ now) (i : ι) (rpm tpm : Int) :
    (F.reserve key (F.after key (F.idle time) calls) i rpm tpm now).decision =
      .ok ((F.referenceLog key window ⟨[], []⟩ calls).decision window (F.limits key i rpm tpm).1
        (F.limits key i rpm tpm).2 now) := by
  obtain ⟨decided, -⟩ := (Fleet.simulates_after windowed time ordered latest).reserve (windowed i) rpm tpm rfl
  exact decided

/-- The reservation made after some calls. -/
theorem Fleet.reservation_after (F : Fleet ι) (key : KeyInfo) (windowed : ∀ i, (F.limiter i).windowMs = window)
    (time : Int) (ordered : calls.Pairwise fun a b => a.stamp ≤ b.stamp) {now : Int}
    (latest : ∀ c ∈ calls, c.stamp ≤ now) (i : ι) (rpm tpm : Int) :
    (F.reserve key (F.after key (F.idle time) calls) i rpm tpm now).reservation =
      .ok ((F.referenceLog key window ⟨[], []⟩ calls).reservation (F.limiter i) (F.limits key i rpm tpm).1
        (F.limits key i rpm tpm).2 now) :=
  (Fleet.simulates_after windowed time ordered latest).reservation (windowed i) rpm tpm

end Runs

end LlmGateway
