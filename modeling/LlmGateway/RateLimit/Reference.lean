import LlmGateway.RateLimit.Fleet
import LlmGateway.RateLimit.Tracking

namespace LlmGateway

inductive LimitDecision where
  | allowed
  | rejectedRPM
  | rejectedTPM
deriving DecidableEq, Repr

/-- The decision a `Reserve` result stands for: the reservation says whether the
request passes, the script's code which dimension rejected it. -/
def RedisLimiter.ReserveResult.decision (res : RedisLimiter.ReserveResult) : Except String LimitDecision :=
  match res.reservation with
  | .error e => .error e
  | .ok reservation =>
    if reservation.allowed then .ok .allowed
    else match res.parsed.map CheckResult.code with
      | some 1 => .ok .rejectedRPM
      | some 2 => .ok .rejectedTPM
      | _ => .error "unknown reject code"

/-- A call on one API key: the instance that makes it, the limits the key record
carries at that moment, the stamp and, for `RecordTokens`, the count. -/
inductive LimiterCall (ι : Type) where
  | reserve (i : ι) (rpm tpm nowMs : Int)
  | recordTokens (i : ι) (rpm tpm nowMs tokens : Int)

def LimiterCall.stamp {ι : Type} : LimiterCall ι → Int
  | .reserve _ _ _ nowMs => nowMs
  | .recordTokens _ _ _ nowMs _ => nowMs

structure LimiterState (ι : Type) where
  gateways : ι → Gateway
  redis : Redis

namespace Fleet

variable {ι : Type} [DecidableEq ι] (F : Fleet ι) (key : KeyInfo)

def idle (time : Int) : LimiterState ι := ⟨fun i => ⟨F.instanceID i, 0⟩, Redis.fresh time⟩

/-- One call. The server's clock shows the stamp of the call. -/
def call (s : LimiterState ι) : LimiterCall ι → Option (Except String LimitDecision) × LimiterState ι
  | .reserve i rpm tpm nowMs =>
    let res := (F.limiter i).reserve (s.gateways i) { s.redis with time := nowMs }
      { key with rpm := rpm, tpm := tpm } nowMs
    (some res.decision, ⟨Function.update s.gateways i res.gateway, res.redis⟩)
  | .recordTokens i rpm tpm nowMs tokens =>
    let (g, redis) := (F.limiter i).recordTokens (s.gateways i) { s.redis with time := nowMs }
      { key with rpm := rpm, tpm := tpm } nowMs tokens
    (none, ⟨Function.update s.gateways i g, redis⟩)

/-- The decisions of a sequence of calls, in order. -/
def decisions (s : LimiterState ι) : List (LimiterCall ι) → List (Except String LimitDecision)
  | [] => []
  | c :: calls => (F.call key s c).1.toList ++ decisions (F.call key s c).2 calls

end Fleet

/-- A limiter that never forgets: the stamps of the admitted requests and the
stamped token counts, newest first. -/
structure UsageLog where
  ticks : List Int
  records : List (Int × Int)
deriving DecidableEq, Repr

namespace UsageLog

variable (log : UsageLog) (window : Int)

def requestsAt (now : Int) : Int := (log.ticks.filter fun t => now - window < t ∧ t ≤ now).length

def tokensAt (now : Int) : Int :=
  ((log.records.filter fun u => now - window < u.1 ∧ u.1 ≤ now).map Prod.snd).sum

def decision (rpm tpm now : Int) : LimitDecision :=
  if 0 < rpm ∧ rpm ≤ log.requestsAt window now then .rejectedRPM
  else if 0 < tpm ∧ tpm ≤ log.tokensAt window now then .rejectedTPM
  else .allowed

def addRequest (rpm now : Int) : UsageLog :=
  if 0 < rpm then { log with ticks := now :: log.ticks } else log

def reserve (rpm tpm now : Int) : LimitDecision × UsageLog :=
  let d := log.decision window rpm tpm now
  (d, if d = .allowed then log.addRequest rpm now else log)

def recordTokens (tpm now tokens : Int) : UsageLog :=
  if 0 < tokens ∧ 0 < tpm then { log with records := (now, tokens) :: log.records } else log

theorem reserve_unlimited {rpm tpm now : Int} (noRPM : rpm ≤ 0) (noTPM : tpm ≤ 0) :
    log.reserve window rpm tpm now = (.allowed, log) := by
  have passes : log.decision window rpm tpm now = .allowed := by
    rw [decision, if_neg (by omega), if_neg (by omega)]
  simp only [reserve, passes, addRequest]
  rw [if_pos trivial, if_neg (by omega)]

theorem reserve_rejected {rpm tpm now : Int} (rejected : (log.reserve window rpm tpm now).1 ≠ .allowed) :
    (log.reserve window rpm tpm now).2 = log := if_neg rejected

end UsageLog

namespace Fleet

variable {ι : Type} (F : Fleet ι) (key : KeyInfo) (window : Int)

/-- The reference's answer to a call, with the limits in effect for it. -/
def referenceCall (log : UsageLog) : LimiterCall ι → Option LimitDecision × UsageLog
  | .reserve i rpm tpm nowMs =>
    let limits := { key with rpm := rpm, tpm := tpm }
    let (d, log) := log.reserve window ((F.limiter i).effectiveRPM limits) ((F.limiter i).effectiveTPM limits) nowMs
    (some d, log)
  | .recordTokens i rpm tpm nowMs tokens =>
    let limits := { key with rpm := rpm, tpm := tpm }
    (none, log.recordTokens ((F.limiter i).effectiveTPM limits) nowMs tokens)

def referenceDecisions (log : UsageLog) : List (LimiterCall ι) → List LimitDecision
  | [] => []
  | c :: calls =>
    (F.referenceCall key window log c).1.toList ++ referenceDecisions (F.referenceCall key window log c).2 calls

/-- The reference's log after the calls. -/
def referenceLog (log : UsageLog) (calls : List (LimiterCall ι)) : UsageLog :=
  calls.foldl (fun log c => (F.referenceCall key window log c).2) log

theorem referenceDecisions_append (log : UsageLog) (before after : List (LimiterCall ι)) :
    F.referenceDecisions key window log (before ++ after) = F.referenceDecisions key window log before ++
      F.referenceDecisions key window (F.referenceLog key window log before) after := by
  induction before generalizing log with
  | nil => rfl
  | cons c before ih =>
    rw [List.cons_append, referenceDecisions, referenceDecisions, ih, List.append_assoc]
    rfl

end Fleet

section Simulation

variable {ι : Type} {F : Fleet ι} {key : KeyInfo} {window : Int} {s : LimiterState ι} {log : UsageLog}

/-- A token member under an id that has been drawn. -/
def KnownTokens (gateways : ι → Gateway) (m : String) : Prop :=
  ∃ id tokens, Issued gateways id ∧ 0 < tokens ∧ m = tpmMember id tokens

/-- The two sets of the key mirror the two halves of the log. -/
structure Simulates (F : Fleet ι) (key : KeyInfo) (window : Int) (s : LimiterState ι) (log : UsageLog) : Prop where
  owned : Owned F s.gateways
  ticks : Mirrors s.redis (rpmKey key) window (fun e => e.score) id log.ticks (Issued s.gateways)
  records : Mirrors s.redis (tpmKey key) window (fun e => (e.score, memberTokens e.member)) Prod.fst
    log.records (KnownTokens s.gateways)

theorem Simulates.idle (F : Fleet ι) (key : KeyInfo) (window time : Int) :
    Simulates F key window (F.idle time) ⟨[], []⟩ :=
  ⟨fun _ => rfl, Mirrors.fresh time, Mirrors.fresh time⟩

theorem Simulates.later (sim : Simulates F key window s log) {t : Int} (le : s.redis.time ≤ t) :
    Simulates F key window { s with redis := { s.redis with time := t } } log :=
  ⟨sim.owned, sim.ticks.later le, sim.records.later le⟩

theorem KnownTokens.newReqID [DecidableEq ι] {gateways : ι → Gateway} {m : String}
    (known : KnownTokens gateways m) (i : ι) (nowMs : Int) :
    KnownTokens (Function.update gateways i ((gateways i).newReqID nowMs).2) m := by
  obtain ⟨id, tokens, issued, rest⟩ := known
  exact ⟨id, tokens, issued.newReqID i nowMs, rest⟩

theorem Simulates.newReqID [DecidableEq ι] (sim : Simulates F key window s log) (i : ι) (nowMs : Int) :
    Simulates F key window { s with gateways := Function.update s.gateways i ((s.gateways i).newReqID nowMs).2 }
      log :=
  ⟨sim.owned.newReqID i nowMs, sim.ticks.known_mono fun _ issued => issued.newReqID i nowMs,
    sim.records.known_mono fun _ known => known.newReqID i nowMs⟩

theorem filter_past {α : Type} {stamp : α → Int} {log : List α} {now window : Int}
    (past : ∀ a ∈ log, stamp a ≤ now) :
    (log.filter fun a => now - window < stamp a ∧ stamp a ≤ now) = log.filter fun a => now - window < stamp a :=
  List.filter_congr fun a member => by simp [past a member]

/-- The decision a reply of `check.lua` stands for. -/
def CheckReply.decision (reply : CheckReply) : Except String LimitDecision :=
  if reply.allowed = 1 then .ok .allowed
  else match reply.rejectCode with
    | 1 => .ok .rejectedRPM
    | 2 => .ok .rejectedTPM
    | _ => .error "unknown reject code"

theorem zcard_pruned {r : Redis} {args : CheckArgs} {known : String → Prop} (now : args.now = r.time)
    (ticks : Mirrors r args.rpmKey args.window (fun e => e.score) id log.ticks known) :
    (args.pruned r).zcard args.rpmKey = log.requestsAt args.window r.time := by
  have counted := ticks.entries_pruned.length_eq
  rw [List.length_map, ← filter_past ticks.past] at counted
  rw [CheckArgs.pruned, now]
  exact congrArg Nat.cast counted

theorem tokens_checkTPM {r : Redis} {args : CheckArgs} {known : String → Prop} (now : args.now = r.time)
    (limited : 0 < args.tpmLim)
    (records : Mirrors r args.tpmKey args.window (fun e => (e.score, memberTokens e.member)) Prod.fst
      log.records known) :
    (checkTPM r args).2.1 = log.tokensAt args.window r.time := by
  have summed := (records.entries_pruned.map Prod.snd).sum_eq
  rw [List.map_map] at summed
  rw [UsageLog.tokensAt, filter_past records.past, ← summed, checkTPM, if_pos limited, now]
  dsimp only
  rw [sumTokens_eq_sum, Redis.zrange, List.map_map]
  rfl

section Check

variable {r : Redis} {args : CheckArgs} {known knownTokens : String → Prop}

/-- The log as the two sets a check reads show it. -/
structure LogAt (r : Redis) (args : CheckArgs) (log : UsageLog) (known knownTokens : String → Prop) : Prop where
  ticks : Mirrors r args.rpmKey args.window (fun e => e.score) id log.ticks known
  records : Mirrors r args.tpmKey args.window (fun e => (e.score, memberTokens e.member)) Prod.fst
    log.records knownTokens

theorem LogAt.pruned (at_ : LogAt r args log known knownTokens) (now : args.now = r.time)
    (apart : args.rpmKey ≠ args.tpmKey) : LogAt (args.pruned r) args log known knownTokens := by
  rw [CheckArgs.pruned, now]
  exact ⟨at_.ticks.prune, at_.records.of_slots (Redis.slots_put_ne apart.symm _) rfl⟩

theorem LogAt.checkTPM (at_ : LogAt r args log known knownTokens) (now : args.now = r.time)
    (apart : args.rpmKey ≠ args.tpmKey) : LogAt (checkTPM r args).1 args log known knownTokens := by
  unfold LlmGateway.checkTPM
  split
  · rw [now]
    exact ⟨at_.ticks.of_slots (Redis.slots_put_ne apart _) rfl, at_.records.prune⟩
  · exact at_

theorem LogAt.addTick (at_ : LogAt r args log known knownTokens) (now : args.now = r.time)
    (apart : args.rpmKey ≠ args.tpmKey) (positive : 0 < args.window) (new : ¬known args.reqID) :
    LogAt (addTick r args) args (log.addRequest args.rpmLim args.now) (fun m => m = args.reqID ∨ known m)
      knownTokens := by
  unfold LlmGateway.addTick UsageLog.addRequest
  split
  · rw [now]
    refine ⟨at_.ticks.add (fun _ => rfl) new positive (two_windows_le_ttl _), at_.records.of_slots ?_ rfl⟩
    exact (Redis.slots_put_ne apart.symm _).trans (Redis.slots_put_ne apart.symm _)
  · exact ⟨at_.ticks.known_mono fun _ => Or.inr, at_.records⟩

/-- `check.lua` decides as the reference does and leaves the sets that mirror
the reference's next log. -/
theorem LogAt.check (at_ : LogAt r args log known knownTokens) (now : args.now = r.time)
    (apart : args.rpmKey ≠ args.tpmKey) (positive : 0 < args.window) (new : ¬known args.reqID) :
    (check r args).1.decision = .ok (log.reserve args.window args.rpmLim args.tpmLim args.now).1 ∧
      LogAt (check r args).2 args (log.reserve args.window args.rpmLim args.tpmLim args.now).2
        (fun m => m = args.reqID ∨ known m) knownTokens := by
  have weaker {r' : Redis} (at' : LogAt r' args log known knownTokens) :
      LogAt r' args log (fun m => m = args.reqID ∨ known m) knownTokens :=
    ⟨at'.ticks.known_mono fun _ => Or.inr, at'.records⟩
  have pruned := at_.pruned now apart
  have swept := pruned.checkTPM now apart
  have count : (args.pruned r).zcard args.rpmKey = log.requestsAt args.window args.now := by
    rw [zcard_pruned now at_.ticks, now]
  have total (limited : 0 < args.tpmLim) :
      (LlmGateway.checkTPM (args.pruned r) args).2.1 = log.tokensAt args.window args.now := by
    have same : args.now = (args.pruned r).time := now
    rw [tokens_checkTPM same limited pruned.records, same]
  unfold UsageLog.reserve UsageLog.decision CheckReply.decision
  rcases check_cases r args with
    ⟨limited, full, denied, code, after⟩ | ⟨room, limited, spent, denied, code, after⟩ |
      ⟨room, left, passed, code, after⟩
  · rw [count] at full
    simp only [limited, full, and_self, if_true, denied, code, after]
    exact ⟨rfl, weaker pruned⟩
  · rw [count] at room
    rw [total limited] at spent
    simp only [if_neg room, limited, spent, and_self, if_true, denied, code, after]
    exact ⟨rfl, weaker swept⟩
  · rw [count] at room
    have left' : ¬(0 < args.tpmLim ∧ args.tpmLim ≤ log.tokensAt args.window args.now) := by
      rintro ⟨limited, spent⟩
      rw [← total limited] at spent
      exact left ⟨limited, spent⟩
    simp only [if_neg room, if_neg left', passed, after, if_true]
    exact ⟨trivial, swept.addTick (by simpa [CheckArgs.pruned] using now) apart positive new⟩

end Check

theorem RedisLimiter.reserve_of_none {lim : RedisLimiter} {g : Gateway} {key : KeyInfo} {nowMs : Int}
    (unlimited : lim.reserveCall g key nowMs = (none, g)) (r : Redis) :
    lim.reserve g r key nowMs = ⟨.ok { allowed := true }, none, g, r⟩ := by
  simp only [RedisLimiter.reserve, unlimited]

theorem RedisLimiter.reserve_of_some {lim : RedisLimiter} {g g' : Gateway} {key : KeyInfo} {nowMs : Int}
    {args : CheckArgs} (sent : lim.reserveCall g key nowMs = (some args, g')) (r : Redis) :
    (lim.reserve g r key nowMs).decision = (check r args).1.decision ∧
      (lim.reserve g r key nowMs).gateway = g' ∧ (lim.reserve g r key nowMs).redis = (check r args).2 := by
  simp only [RedisLimiter.reserve, sent, parseCheckResult_toResp, and_self, and_true]
  simp only [RedisLimiter.ReserveResult.decision, RedisLimiter.reservationOf, CheckReply.decision,
    decide_eq_true_eq, Option.map_some]
  split
  · rfl
  · split <;> simp_all

variable [DecidableEq ι]

/-- A `Reserve` at the server's present time answers as the reference does and
keeps the simulation. -/
theorem Simulates.reserve (sim : Simulates F key window s log) {i : ι} (windowed : (F.limiter i).windowMs = window)
    (rpm tpm : Int) {nowMs : Int} (now : nowMs = s.redis.time) :
    let limits := { key with rpm := rpm, tpm := tpm }
    let res := (F.limiter i).reserve (s.gateways i) s.redis limits nowMs
    let ref := log.reserve window ((F.limiter i).effectiveRPM limits) ((F.limiter i).effectiveTPM limits) nowMs
    res.decision = .ok ref.1 ∧ res.redis.time = s.redis.time ∧
      Simulates F key window ⟨Function.update s.gateways i res.gateway, res.redis⟩ ref.2 := by
  intro limits res ref
  subst windowed
  rcases (F.limiter i).reserveCall_cases (s.gateways i) limits nowMs with ⟨noRPM, noTPM, idle⟩ | sent
  · have admitted : ref = (.allowed, log) := UsageLog.reserve_unlimited log _ noRPM noTPM
    simp only [res, RedisLimiter.reserve_of_none idle, admitted, Function.update_eq_self]
    exact ⟨rfl, trivial, sim⟩
  · obtain ⟨decided, gateway, redis⟩ := RedisLimiter.reserve_of_some sent s.redis
    have at_ : LogAt s.redis ⟨rpmKey key, tpmKey key, nowMs, (F.limiter i).windowMs,
        (F.limiter i).effectiveRPM limits, (F.limiter i).effectiveTPM limits, ((s.gateways i).newReqID nowMs).1⟩
        log (Issued s.gateways) (KnownTokens s.gateways) := ⟨sim.ticks, sim.records⟩
    obtain ⟨same, next⟩ := at_.check now (rpmKey_ne_tpmKey key key) (F.limiter i).windowMs_pos
      (newReqID_not_issued sim.owned i nowMs)
    have drawn := sim.newReqID i nowMs
    refine ⟨decided.trans same, ?_, ?_⟩
    · rw [redis, time_check]
    · rw [gateway, redis]
      refine ⟨drawn.owned, next.ticks.known_mono ?_, next.records.known_mono ?_⟩
      · rintro m (rfl | issued)
        · exact issued_newReqID s.gateways i nowMs
        · exact issued.newReqID i nowMs
      · exact fun m known => known.newReqID i nowMs

/-- A `RecordTokens` at the server's present time keeps the simulation. -/
theorem Simulates.recordTokens (sim : Simulates F key window s log) {i : ι}
    (windowed : (F.limiter i).windowMs = window) (rpm tpm tokens : Int) {nowMs : Int}
    (now : nowMs = s.redis.time) :
    let limits := { key with rpm := rpm, tpm := tpm }
    let res := (F.limiter i).recordTokens (s.gateways i) s.redis limits nowMs tokens
    res.2.time = s.redis.time ∧ Simulates F key window ⟨Function.update s.gateways i res.1, res.2⟩
      (log.recordTokens ((F.limiter i).effectiveTPM limits) nowMs tokens) := by
  intro limits res
  subst windowed
  rcases (F.limiter i).recordCall_cases (s.gateways i) limits nowMs tokens with ⟨idle, none⟩ | ⟨some, limited, sent⟩
  · have nothing : res = (s.gateways i, s.redis) := by
      simp only [res, RedisLimiter.recordTokens, none]
    rw [nothing, UsageLog.recordTokens, if_neg idle, Function.update_eq_self]
    exact ⟨rfl, sim⟩
  · have recorded : res = (((s.gateways i).newReqID nowMs).2, tpmRecord s.redis
        ⟨tpmKey key, nowMs, (F.limiter i).windowMs, ((s.gateways i).newReqID nowMs).1, tokens⟩) := by
      simp only [res, RedisLimiter.recordTokens, sent]
      rfl
    have drawn := sim.newReqID i nowMs
    have positive := (F.limiter i).windowMs_pos
    rw [recorded, UsageLog.recordTokens, if_pos ⟨some, limited⟩]
    refine ⟨rfl, drawn.owned, drawn.ticks.of_slots ?_ rfl, ?_⟩
    · have apart := rpmKey_ne_tpmKey key key
      exact (Redis.slots_put_ne apart _).trans (Redis.slots_put_ne apart _)
    · have new : ¬KnownTokens s.gateways (tpmMember ((s.gateways i).newReqID nowMs).1 tokens) := by
        rintro ⟨id, tokens', issued, some', same⟩
        rw [← tpmMember_injective some some' same] at issued
        exact newReqID_not_issued sim.owned i nowMs issued
      have added := sim.records.add (fun _ => rfl) new positive
        (by omega : (F.limiter i).windowMs * 2 ≤ (F.limiter i).windowMs * 2 * 1000)
      rw [memberTokens_tpmMember _ some, ← now] at added
      rw [tpmRecord]
      refine added.known_mono ?_
      rintro m (rfl | known)
      · exact ⟨_, tokens, issued_newReqID s.gateways i nowMs, some, rfl⟩
      · exact known.newReqID i nowMs

/-- One call answers as the reference does and keeps the simulation. -/
theorem Simulates.call (sim : Simulates F key window s log) (windowed : ∀ i, (F.limiter i).windowMs = window)
    (c : LimiterCall ι) (later : s.redis.time ≤ c.stamp) :
    (F.call key s c).1 = (F.referenceCall key window log c).1.map .ok ∧
      (F.call key s c).2.redis.time = c.stamp ∧
      Simulates F key window (F.call key s c).2 (F.referenceCall key window log c).2 := by
  have advanced := sim.later later
  cases c with
  | reserve i rpm tpm nowMs =>
    obtain ⟨same, time, next⟩ := advanced.reserve (windowed i) rpm tpm rfl
    exact ⟨congrArg some same, time, next⟩
  | recordTokens i rpm tpm nowMs tokens =>
    obtain ⟨time, next⟩ := advanced.recordTokens (windowed i) rpm tpm tokens rfl
    exact ⟨rfl, time, next⟩

theorem Simulates.decisions_eq (sim : Simulates F key window s log)
    (windowed : ∀ i, (F.limiter i).windowMs = window) {calls : List (LimiterCall ι)}
    (later : ∀ c ∈ calls, s.redis.time ≤ c.stamp)
    (ordered : calls.Pairwise fun a b => a.stamp ≤ b.stamp) :
    F.decisions key s calls = (F.referenceDecisions key window log calls).map .ok := by
  induction calls generalizing s log with
  | nil => rfl
  | cons c calls ih =>
    obtain ⟨first, rest⟩ := List.pairwise_cons.mp ordered
    obtain ⟨same, time, next⟩ := sim.call windowed c (later c List.mem_cons_self)
    rw [Fleet.decisions, Fleet.referenceDecisions, same, List.map_append,
      ih next (fun c' member => time ▸ first c' member) rest]
    cases (F.referenceCall key window log c).1 <;> rfl

/-- The first call sets the server's clock, so the time before it does not matter. -/
theorem Fleet.decisions_idle (windowed : ∀ i, (F.limiter i).windowMs = window) (time : Int)
    {calls : List (LimiterCall ι)} (ordered : calls.Pairwise fun a b => a.stamp ≤ b.stamp) :
    F.decisions key (F.idle time) calls = (F.referenceDecisions key window ⟨[], []⟩ calls).map .ok := by
  cases calls with
  | nil => rfl
  | cons c calls =>
    have reset : F.call key (F.idle time) c = F.call key (F.idle c.stamp) c := by cases c <;> rfl
    rw [← (Simulates.idle F key window c.stamp).decisions_eq windowed ?_ ordered, Fleet.decisions,
      Fleet.decisions, reset]
    intro c' member
    rcases List.mem_cons.mp member with rfl | tail
    · exact le_rfl
    · exact (List.pairwise_cons.mp ordered).1 c' tail

/-- For calls with non-decreasing stamps the limiter decides as the reference
that keeps everything, and a rejected request leaves no trace: without it the
other decisions are the same. -/
theorem decisions_refine_log (F : Fleet ι) (key : KeyInfo) {window : Int}
    (windowed : ∀ i, (F.limiter i).windowMs = window) (time : Int) {calls : List (LimiterCall ι)}
    (ordered : calls.Pairwise fun a b => a.stamp ≤ b.stamp) :
    F.decisions key (F.idle time) calls = (F.referenceDecisions key window ⟨[], []⟩ calls).map .ok ∧
      ∀ before i rpm tpm nowMs after d later, calls = before ++ .reserve i rpm tpm nowMs :: after →
        d ≠ .allowed → F.decisions key (F.idle time) calls = F.decisions key (F.idle time) before ++ .ok d :: later →
        F.decisions key (F.idle time) (before ++ after) = F.decisions key (F.idle time) before ++ later := by
  refine ⟨Fleet.decisions_idle windowed time ordered, ?_⟩
  rintro before i rpm tpm nowMs after d later rfl rejected decided
  have shorter : (before ++ after).Pairwise fun a b => a.stamp ≤ b.stamp :=
    ordered.sublist ((List.sublist_cons_self _ _).append_left before)
  have first : before.Pairwise fun a b => a.stamp ≤ b.stamp := (List.pairwise_append.mp ordered).1
  rw [Fleet.decisions_idle windowed time ordered, Fleet.decisions_idle windowed time first,
    Fleet.referenceDecisions_append, List.map_append, List.append_cancel_left_eq] at decided
  rw [Fleet.decisions_idle windowed time shorter, Fleet.decisions_idle windowed time first,
    Fleet.referenceDecisions_append, List.map_append, List.append_cancel_left_eq]
  rw [Fleet.referenceDecisions, List.map_append] at decided
  obtain ⟨same, rest⟩ := List.cons.inj decided
  rw [← rest, Fleet.referenceCall]
  dsimp only
  rw [UsageLog.reserve_rejected]
  · rfl
  exact fun allowed => rejected ((Except.ok.inj same).symm.trans allowed)

end Simulation

/-- One request and ten tokens a minute, at two instances. An entry that is
exactly a window old no longer counts. -/
theorem decisions_refine_log_pair :
    pairFleet.decisions ⟨"k", "o", "", 0, 0, [], none⟩ (pairFleet.idle 0)
      [.reserve true 0 10 0, .recordTokens false 0 10 5 12, .reserve false 0 10 59999,
        .reserve false 0 10 60000, .reserve true 0 10 60005] =
      [.ok .allowed, .ok .rejectedRPM, .ok .rejectedTPM, .ok .allowed] := by
  have windowed : ∀ i, (pairFleet.limiter i).windowMs = 60000 := fun _ => rfl
  exact (decisions_refine_log pairFleet _ windowed 0 (by simp [LimiterCall.stamp])).1.trans rfl

end LlmGateway
