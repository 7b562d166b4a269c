import LlmGateway.Auth.Minted
import LlmGateway.Config.Load
import LlmGateway.RateLimit.Reference

namespace LlmGateway

/-- The two limits are the same, or neither is in effect. -/
def SameLimit (a b : Int) : Prop := 0 < a ∨ 0 < b → a = b

theorem SameLimit.cases {a b : Int} (same : SameLimit a b) : a = b ∨ a ≤ 0 ∧ b ≤ 0 := by
  by_cases inEffect : 0 < a ∨ 0 < b
  · exact Or.inl (same inEffect)
  · exact Or.inr (by omega)

theorem SameLimit.nonpos_iff {a b : Int} (same : SameLimit a b) : a ≤ 0 ↔ b ≤ 0 := by
  rcases same.cases with rfl | ⟨left, right⟩
  · rfl
  · exact iff_of_true left right

/-- A limit given for the key stands unless it is zero and the default is not off. -/
theorem sameLimit_effective {given default : Int} (nonneg : 0 ≤ given) :
    SameLimit (if 0 < given then given else default) given ↔ 0 < given ∨ default ≤ 0 := by
  unfold SameLimit
  split <;> omega

theorem check_rpmLim_congr {rpm : Int} (r : Redis) (args : CheckArgs) (same : SameLimit args.rpmLim rpm) :
    check r args = check r { args with rpmLim := rpm } := by
  rcases same.cases with equal | ⟨off, off'⟩
  · rw [← equal]
  · have left : ¬ 0 < args.rpmLim := by omega
    have right : ¬ 0 < rpm := by omega
    simp only [check, checkTPM, addTick, left, right, false_and, if_false]

theorem check_tpmLim_congr {tpm : Int} (r : Redis) (args : CheckArgs) (same : SameLimit args.tpmLim tpm) :
    check r args = check r { args with tpmLim := tpm } := by
  rcases same.cases with equal | ⟨off, off'⟩
  · rw [← equal]
  · have left : ¬ 0 < args.tpmLim := by omega
    have right : ¬ 0 < tpm := by omega
    simp only [check, checkTPM, addTick, left, right, false_and, if_false]

namespace UsageLog

variable {ι : Type} (window rpm tpm : Int)

/-- The answer to a call under fixed limits, whatever limits the call carries. -/
def answer (log : UsageLog) : LimiterCall ι → Option LimitDecision × UsageLog
  | .reserve _ _ _ nowMs => (some (log.reserve window rpm tpm nowMs).1, (log.reserve window rpm tpm nowMs).2)
  | .recordTokens _ _ _ nowMs tokens => (none, log.recordTokens tpm nowMs tokens)

def answers (log : UsageLog) : List (LimiterCall ι) → List LimitDecision
  | [] => []
  | c :: calls => (answer window rpm tpm log c).1.toList ++ answers (answer window rpm tpm log c).2 calls

variable {window rpm tpm} {rpm' tpm' : Int} {log : UsageLog}

theorem reserve_congr (sameRPM : SameLimit rpm rpm') (sameTPM : SameLimit tpm tpm') (log : UsageLog) (now : Int) :
    log.reserve window rpm tpm now = log.reserve window rpm' tpm' now := by
  have requests : log.reserve window rpm tpm now = log.reserve window rpm' tpm now := by
    rcases sameRPM.cases with rfl | ⟨off, off'⟩
    · rfl
    · have left : ¬ 0 < rpm := by omega
      have right : ¬ 0 < rpm' := by omega
      simp only [reserve, decision, addRequest, left, right, false_and, if_false]
  rw [requests]
  rcases sameTPM.cases with rfl | ⟨off, off'⟩
  · rfl
  · have left : ¬ 0 < tpm := by omega
    have right : ¬ 0 < tpm' := by omega
    simp only [reserve, decision, left, right, false_and, if_false]

theorem recordTokens_congr (same : SameLimit tpm tpm') (log : UsageLog) (now tokens : Int) :
    log.recordTokens tpm now tokens = log.recordTokens tpm' now tokens := by
  rcases same.cases with rfl | ⟨off, off'⟩
  · rfl
  · rw [recordTokens, recordTokens, if_neg (by omega), if_neg (by omega)]

theorem answers_congr (sameRPM : SameLimit rpm rpm') (sameTPM : SameLimit tpm tpm') (log : UsageLog)
    (calls : List (LimiterCall ι)) : answers window rpm tpm log calls = answers window rpm' tpm' log calls := by
  induction calls generalizing log with
  | nil => rfl
  | cons c calls ih =>
    have head : answer window rpm tpm log c = answer window rpm' tpm' log c := by
      cases c with
      | reserve i r t now => rw [answer, answer, reserve_congr sameRPM sameTPM]
      | recordTokens i r t now tokens => rw [answer, answer, recordTokens_congr sameTPM]
    rw [answers, answers, head, ih]

theorem decision_untouched (records : log.records = []) (now : Int) :
    log.decision window rpm tpm now =
      if 0 < rpm ∧ rpm ≤ log.requestsAt window now then .rejectedRPM else .allowed := by
  have none : log.tokensAt window now = 0 := by rw [tokensAt, records]; rfl
  rw [decision, none, if_neg (by omega : ¬(0 < tpm ∧ tpm ≤ 0))]

/-- Requests at one moment are all allowed as long as they stay within the limit. -/
theorem answers_reserves (positive : 0 < window) {i : ι} {r t : Int} (n : Nat) (records : log.records = [])
    (together : ∀ tick ∈ log.ticks, tick = 0) :
    answers window rpm tpm log (List.replicate n (.reserve i r t 0)) = List.replicate n .allowed ↔
      rpm ≤ 0 ∨ n = 0 ∨ (log.ticks.length + n : Int) ≤ rpm := by
  induction n generalizing log with
  | zero => simp [answers]
  | succ n ih =>
    have count : log.requestsAt window 0 = log.ticks.length := by
      have all : (log.ticks.filter fun tick => 0 - window < tick ∧ tick ≤ 0) = log.ticks := by
        refine List.filter_eq_self.mpr fun tick member => ?_
        rw [together tick member]
        simpa using positive
      rw [requestsAt, all]
    have decided : log.decision window rpm tpm 0 = _ := decision_untouched records 0
    rw [count] at decided
    rw [List.replicate_succ, List.replicate_succ, answers, answer]
    dsimp only [Option.toList_some, List.singleton_append]
    rw [List.cons.injEq]
    by_cases full : 0 < rpm ∧ rpm ≤ log.ticks.length
    · rw [if_pos full] at decided
      have refused : (log.reserve window rpm tpm 0).1 ≠ .allowed := by
        rw [reserve, decided]
        exact LimitDecision.noConfusion
      refine iff_of_false (fun both => refused both.1) (by omega)
    · rw [if_neg full] at decided
      have admitted : log.reserve window rpm tpm 0 = (.allowed, log.addRequest rpm 0) := by
        rw [reserve, decided]
        rfl
      rw [admitted]
      by_cases limited : 0 < rpm
      · have next : log.addRequest rpm 0 = { log with ticks := 0 :: log.ticks } := if_pos limited
        rw [next, @ih { log with ticks := 0 :: log.ticks } records (List.forall_mem_cons.mpr ⟨rfl, together⟩)]
        simp only [List.length_cons, Nat.cast_add, Nat.cast_one, true_and]
        omega
      · have next : log.addRequest rpm 0 = log := if_neg limited
        rw [next, ih records together]
        simp only [true_and]
        omega

/-- Tokens recorded before a request let it pass as long as they stay below the
limit. -/
theorem answers_tokens (positive : 0 < window) {i : ι} {r t : Int} {n : Nat} (used : 0 < n) :
    answers window rpm tpm ⟨[], []⟩ [.recordTokens i r t 0 n, .reserve i r t 0] = [.allowed] ↔
      tpm ≤ 0 ∨ (n : Int) < tpm := by
  have idle : ∀ records, (⟨[], records⟩ : UsageLog).requestsAt window 0 = 0 := fun _ => rfl
  have free : ¬(0 < rpm ∧ rpm ≤ 0) := by omega
  simp only [answers, answer, Option.toList_none, Option.toList_some, List.nil_append, List.append_nil,
    List.cons.injEq, and_true, reserve]
  by_cases limited : 0 < tpm
  · have recorded : recordTokens ⟨[], []⟩ tpm 0 n = ⟨[], [(0, n)]⟩ := if_pos ⟨by omega, limited⟩
    have total : (⟨[], [(0, n)]⟩ : UsageLog).tokensAt window 0 = n := by simp [tokensAt, positive]
    rw [recorded, decision, idle, if_neg free, total]
    split
    · exact iff_of_false LimitDecision.noConfusion (by omega)
    · exact iff_of_true rfl (by omega)
  · have nothing : recordTokens ⟨[], []⟩ tpm 0 n = ⟨[], []⟩ := if_neg fun both => limited both.2
    rw [nothing, decision_untouched rfl, idle, if_neg free]
    exact iff_of_true rfl (Or.inl (not_lt.mp limited))

end UsageLog

/-- The limits a call carries. -/
def LimiterCall.limits {ι : Type} : LimiterCall ι → Int × Int
  | .reserve _ rpm tpm _ => (rpm, tpm)
  | .recordTokens _ rpm tpm _ _ => (rpm, tpm)

/-- The call with other limits. -/
def LimiterCall.under {ι : Type} (rpm tpm : Int) : LimiterCall ι → LimiterCall ι
  | .reserve i _ _ nowMs => .reserve i rpm tpm nowMs
  | .recordTokens i _ _ nowMs tokens => .recordTokens i rpm tpm nowMs tokens

/-- Limits that answer all calls alike act alike. -/
theorem UsageLog.sameLimit_of_answers {window rpm tpm rpm' tpm' : Int} (r t : Int) (positive : 0 < window)
    (alike : ∀ calls : List (LimiterCall Unit), (∀ c ∈ calls, c.limits = (r, t)) →
      calls.Pairwise (fun a b => a.stamp ≤ b.stamp) →
      answers window rpm tpm ⟨[], []⟩ calls = answers window rpm' tpm' ⟨[], []⟩ calls) :
    SameLimit rpm rpm' ∧ SameLimit tpm tpm' := by
  have burst (n : Nat) : (rpm ≤ 0 ∨ n = 0 ∨ (n : Int) ≤ rpm) ↔ (rpm' ≤ 0 ∨ n = 0 ∨ (n : Int) ≤ rpm') := by
    let calls : List (LimiterCall Unit) := List.replicate n (.reserve () r t 0)
    have allowed (rpm tpm : Int) : answers window rpm tpm ⟨[], []⟩ calls = List.replicate n .allowed ↔
        rpm ≤ 0 ∨ n = 0 ∨ (n : Int) ≤ rpm := by
      have bound := @answers_reserves Unit window rpm tpm ⟨[], []⟩ positive () r t n rfl (List.forall_mem_nil _)
      simpa using bound
    rw [← allowed rpm tpm, ← allowed rpm' tpm', alike calls ?_ (List.pairwise_replicate.mpr (Or.inr le_rfl))]
    intro c member
    rw [List.eq_of_mem_replicate member, LimiterCall.limits]
  have tokens {n : Nat} (used : 0 < n) : (tpm ≤ 0 ∨ (n : Int) < tpm) ↔ (tpm' ≤ 0 ∨ (n : Int) < tpm') := by
    let calls : List (LimiterCall Unit) := [.recordTokens () r t 0 n, .reserve () r t 0]
    have allowed (rpm tpm : Int) : answers window rpm tpm ⟨[], []⟩ calls = [.allowed] ↔
        tpm ≤ 0 ∨ (n : Int) < tpm := answers_tokens positive used
    rw [← allowed rpm tpm, ← allowed rpm' tpm', alike calls ?_ (by simp [calls, LimiterCall.stamp])]
    intro c member
    rcases List.mem_cons.mp member with rfl | member
    · rfl
    · rw [List.mem_singleton.mp member, LimiterCall.limits]
  constructor
  · -- one request more than either limit allows tells them apart
    intro inEffect
    have first := burst (rpm.toNat + 1)
    have second := burst (rpm'.toNat + 1)
    omega
  · intro inEffect
    have first (limited : 0 < tpm) := tokens (n := tpm.toNat) (by omega)
    have second (limited : 0 < tpm') := tokens (n := tpm'.toNat) (by omega)
    by_cases limited : 0 < tpm
    · have bound := first limited
      by_cases limited' : 0 < tpm'
      · have bound' := second limited'
        omega
      · omega
    · have limited' : 0 < tpm' := inEffect.resolve_left limited
      have bound' := second limited'
      omega

namespace RedisLimiter

variable {lim lim' : RedisLimiter} {key : KeyInfo} {rpm tpm : Int}

theorem windowMs_congr (window : lim'.window = lim.window) : lim'.windowMs = lim.windowMs := by
  rw [windowMs, window]
  rfl

/-- Limiters whose limits act alike decide alike and leave the same behind. -/
theorem reserve_congr (window : lim'.window = lim.window)
    (sameRPM : SameLimit (lim.effectiveRPM key) (lim'.effectiveRPM { key with rpm := rpm, tpm := tpm }))
    (sameTPM : SameLimit (lim.effectiveTPM key) (lim'.effectiveTPM { key with rpm := rpm, tpm := tpm }))
    (g : Gateway) (r : Redis) (nowMs : Int) :
    let res := lim.reserve g r key nowMs
    let res' := lim'.reserve g r { key with rpm := rpm, tpm := tpm } nowMs
    res.decision = res'.decision ∧ res.gateway = res'.gateway ∧ res.redis = res'.redis := by
  intro res res'
  by_cases unlimited : lim.effectiveRPM key ≤ 0 ∧ lim.effectiveTPM key ≤ 0
  · have unlimited' := unlimited
    rw [sameRPM.nonpos_iff, sameTPM.nonpos_iff] at unlimited'
    rw [show res = _ from reserve_of_none (if_pos unlimited) r,
      show res' = _ from reserve_of_none (if_pos unlimited') r]
    exact ⟨rfl, rfl, rfl⟩
  · have unlimited' := unlimited
    rw [sameRPM.nonpos_iff, sameTPM.nonpos_iff] at unlimited'
    obtain ⟨decided, gateway, redis⟩ := reserve_of_some (if_neg unlimited : lim.reserveCall g key nowMs = _) r
    obtain ⟨decided', gateway', redis'⟩ := reserve_of_some
      (if_neg unlimited' : lim'.reserveCall g { key with rpm := rpm, tpm := tpm } nowMs = _) r
    have same : check r ⟨rpmKey key, tpmKey key, nowMs, lim.windowMs, lim.effectiveRPM key, lim.effectiveTPM key,
        (g.newReqID nowMs).1⟩ = check r ⟨rpmKey key, tpmKey key, nowMs, lim'.windowMs,
          lim'.effectiveRPM { key with rpm := rpm, tpm := tpm },
          lim'.effectiveTPM { key with rpm := rpm, tpm := tpm }, (g.newReqID nowMs).1⟩ := by
      rw [windowMs_congr window]
      exact (check_rpmLim_congr r _ sameRPM).trans (check_tpmLim_congr r _ sameTPM)
    refine ⟨decided.trans (Eq.trans ?_ decided'.symm), gateway.trans gateway'.symm,
      redis.trans (Eq.trans ?_ redis'.symm)⟩
    · exact congrArg (fun out => out.1.decision) same
    · exact congrArg Prod.snd same

theorem recordTokens_congr (window : lim'.window = lim.window)
    (sameTPM : SameLimit (lim.effectiveTPM key) (lim'.effectiveTPM { key with rpm := rpm, tpm := tpm }))
    (g : Gateway) (r : Redis) (nowMs tokens : Int) :
    lim.recordTokens g r key nowMs tokens =
      lim'.recordTokens g r { key with rpm := rpm, tpm := tpm } nowMs tokens := by
  have same : lim.recordCall g key nowMs tokens =
      lim'.recordCall g { key with rpm := rpm, tpm := tpm } nowMs tokens := by
    have sameKey : tpmKey { key with rpm := rpm, tpm := tpm } = tpmKey key := rfl
    simp only [recordCall, sameTPM.nonpos_iff, windowMs_congr window, sameKey]
  rw [recordTokens, recordTokens, same]

end RedisLimiter

namespace Fleet

variable {ι : Type} {F : Fleet ι} {cfg : RateLimitConfig} {info : KeyInfo} {rpm tpm : Int}

/-- The instances without defaults: a limit that is not positive is off. -/
def exact (F : Fleet ι) : Fleet ι :=
  { F with limiter := fun i => { F.limiter i with defaultRPM := 0, defaultTPM := 0 } }

/-- The reference's answers when all calls carry the fields of one key. -/
theorem referenceDecisions_eq_answers (configured : ∀ i, F.limiter i = newRedis cfg) (window : Int)
    (log : UsageLog) {calls : List (LimiterCall ι)} (carried : ∀ c ∈ calls, c.limits = (info.rpm, info.tpm)) :
    F.referenceDecisions info window log calls =
      UsageLog.answers window ((newRedis cfg).effectiveRPM info) ((newRedis cfg).effectiveTPM info) log calls := by
  induction calls generalizing log with
  | nil => rfl
  | cons c calls ih =>
    obtain ⟨first, others⟩ := List.forall_mem_cons.mp carried
    have head : F.referenceCall info window log c =
        UsageLog.answer window ((newRedis cfg).effectiveRPM info) ((newRedis cfg).effectiveTPM info) log c := by
      cases c with
      | reserve i r t now =>
        cases first
        rw [referenceCall, configured]
        rfl
      | recordTokens i r t now tokens =>
        cases first
        rw [referenceCall, configured]
        rfl
    rw [referenceDecisions, UsageLog.answers, head, ih _ others]

variable [DecidableEq ι]

/-- With limits that act alike a call has the same outcome without defaults. -/
theorem call_exact (configured : ∀ i, F.limiter i = newRedis cfg)
    (sameRPM : SameLimit ((newRedis cfg).effectiveRPM info) rpm)
    (sameTPM : SameLimit ((newRedis cfg).effectiveTPM info) tpm) (s : LimiterState ι) {c : LimiterCall ι}
    (carried : c.limits = (info.rpm, info.tpm)) : F.call info s c = F.exact.call info s (c.under rpm tpm) := by
  have effective {a b : Int} (same : SameLimit a b) : SameLimit a (if 0 < b then b else 0) := by
    unfold SameLimit at same ⊢
    split <;> omega
  have requests (i : ι) : SameLimit ((F.limiter i).effectiveRPM info)
      ((F.exact.limiter i).effectiveRPM { info with rpm := rpm, tpm := tpm }) := by
    rw [configured i]
    exact effective sameRPM
  have tokens (i : ι) : SameLimit ((F.limiter i).effectiveTPM info)
      ((F.exact.limiter i).effectiveTPM { info with rpm := rpm, tpm := tpm }) := by
    rw [configured i]
    exact effective sameTPM
  have window (i : ι) : (F.exact.limiter i).window = (F.limiter i).window := rfl
  cases c with
  | reserve i r t now =>
    cases carried
    obtain ⟨decided, gateway, redis⟩ := RedisLimiter.reserve_congr (window i) (requests i) (tokens i)
      (s.gateways i) { s.redis with time := now } now
    refine Prod.ext (congrArg some decided) ?_
    dsimp only [call, LimiterCall.under]
    rw [gateway, redis]
  | recordTokens i r t now tokens' =>
    cases carried
    have same := RedisLimiter.recordTokens_congr (window i) (tokens i) (s.gateways i) { s.redis with time := now } now
      tokens'
    refine Prod.ext rfl ?_
    dsimp only [call, LimiterCall.under]
    rw [same]

theorem decisions_exact (configured : ∀ i, F.limiter i = newRedis cfg)
    (sameRPM : SameLimit ((newRedis cfg).effectiveRPM info) rpm)
    (sameTPM : SameLimit ((newRedis cfg).effectiveTPM info) tpm) (s : LimiterState ι) {calls : List (LimiterCall ι)}
    (carried : ∀ c ∈ calls, c.limits = (info.rpm, info.tpm)) :
    F.decisions info s calls = F.exact.decisions info s (calls.map (·.under rpm tpm)) := by
  induction calls generalizing s with
  | nil => rfl
  | cons c calls ih =>
    obtain ⟨first, others⟩ := List.forall_mem_cons.mp carried
    rw [List.map_cons, decisions, decisions, call_exact configured sameRPM sameTPM s first, ih _ others]

end Fleet

/-- Requests that carry the fields of the key are decided under these limits by
all instances with the configuration: as without defaults, whatever came before
and whatever the clocks show, and for clocks that do not run back as by a limiter
that counts what the window holds. -/
structure Enforces (cfg : RateLimitConfig) (info : KeyInfo) (rpm tpm : Int) : Prop where
  exact : ∀ {ι : Type} [DecidableEq ι] (F : Fleet ι), (∀ i, F.limiter i = newRedis cfg) →
    ∀ (s : LimiterState ι) (calls : List (LimiterCall ι)), (∀ c ∈ calls, c.limits = (info.rpm, info.tpm)) →
      F.decisions info s calls = F.exact.decisions info s (calls.map (·.under rpm tpm))
  counted : ∀ {ι : Type} [DecidableEq ι] (F : Fleet ι), (∀ i, F.limiter i = newRedis cfg) →
    ∀ (time : Int) (calls : List (LimiterCall ι)), (∀ c ∈ calls, c.limits = (info.rpm, info.tpm)) →
      calls.Pairwise (fun a b => a.stamp ≤ b.stamp) →
      F.decisions info (F.idle time) calls = (UsageLog.answers 60000 rpm tpm ⟨[], []⟩ calls).map .ok

/-- One instance on its own. -/
def soloFleet (cfg : RateLimitConfig) : Fleet Unit where
  limiter := fun _ => newRedis cfg
  instanceID := fun _ => newInstanceID none 0
  distinct := fun _ _ _ => rfl
  made := fun _ => ⟨none, 0, rfl⟩

theorem Fleet.decisions_configured {ι : Type} [DecidableEq ι] {F : Fleet ι} {cfg : RateLimitConfig} {info : KeyInfo}
    (configured : ∀ i, F.limiter i = newRedis cfg) (time : Int) {calls : List (LimiterCall ι)}
    (carried : ∀ c ∈ calls, c.limits = (info.rpm, info.tpm))
    (ordered : calls.Pairwise fun a b => a.stamp ≤ b.stamp) :
    F.decisions info (F.idle time) calls = (UsageLog.answers 60000 ((newRedis cfg).effectiveRPM info)
      ((newRedis cfg).effectiveTPM info) ⟨[], []⟩ calls).map .ok := by
  have windowed : ∀ i, (F.limiter i).windowMs = 60000 := by
    intro i
    rw [configured i]
    rfl
  rw [Fleet.decisions_idle windowed time ordered, Fleet.referenceDecisions_eq_answers configured 60000 _ carried]

theorem enforces_iff {cfg : RateLimitConfig} {info : KeyInfo} {rpm tpm : Int} :
    Enforces cfg info rpm tpm ↔
      SameLimit ((newRedis cfg).effectiveRPM info) rpm ∧ SameLimit ((newRedis cfg).effectiveTPM info) tpm := by
  constructor
  · intro enforced
    refine UsageLog.sameLimit_of_answers info.rpm info.tpm (by decide : (0 : Int) < 60000) ?_
    intro calls carried ordered
    have solo : ∀ i, (soloFleet cfg).limiter i = newRedis cfg := fun _ => rfl
    have decided := enforced.counted (soloFleet cfg) solo 0 calls carried ordered
    rw [Fleet.decisions_configured solo 0 carried ordered] at decided
    exact List.map_injective_iff.mpr (fun _ _ same => Except.ok.inj same) decided
  · rintro ⟨sameRPM, sameTPM⟩
    refine ⟨fun F configured s calls carried => ?_, fun F configured time calls carried ordered => ?_⟩
    · exact Fleet.decisions_exact configured sameRPM sameTPM s carried
    · rw [Fleet.decisions_configured configured time carried ordered, UsageLog.answers_congr sameRPM sameTPM]

/-- A default that was left out is filled in, so only a negative one is off. -/
theorem orDefault_nonpos {default value : Int} (positive : 0 < default) :
    orDefault 0 default value ≤ 0 ↔ value < 0 := by
  unfold orDefault
  split <;> omega

/-- The limits given when a key was minted are enforced iff those that are zero
meet a default that the configuration turns off. -/
theorem minted_limits_enforced_iff {K : KeyService} (m : MintedKey K) {v w : Int}
    (givenRPM : m.req.rateLimitRPM = some v) (givenTPM : m.req.rateLimitTPM = some w) (nonnegRPM : 0 ≤ v)
    (nonnegTPM : 0 ≤ w) {info : KeyInfo} (authenticates : m.Authenticates info) {raw cfg : Config}
    (loaded : load (.ok raw) = .ok cfg) :
    Enforces cfg.rateLimit info v w ↔
      (0 < v ∨ raw.rateLimit.defaultRPM < 0) ∧ (0 < w ∨ raw.rateLimit.defaultTPM < 0) := by
  obtain rfl := m.eq_keyInfo authenticates
  obtain rfl := eq_applyDefaults_of_load loaded
  have rpm : m.keyInfo.rpm = v := congrArg (Option.getD · defaultRateLimitRPM) givenRPM
  have tpm : m.keyInfo.tpm = w := congrArg (Option.getD · defaultRateLimitTPM) givenTPM
  rw [enforces_iff, RedisLimiter.effectiveRPM, RedisLimiter.effectiveTPM, rpm, tpm, sameLimit_effective nonnegRPM,
    sameLimit_effective nonnegTPM]
  exact and_congr (or_congr_right (orDefault_nonpos (by decide))) (or_congr_right (orDefault_nonpos (by decide)))

/-- A provider, and a default of one request a minute. -/
def oneRequestConfig : Config :=
  { Config.zero with
    providers := AList.singleton "openai" ⟨"sk", "", 0, ["gpt-4o"], 0, 0⟩
    rateLimit := ⟨true, 1, 0⟩
    database := ⟨⟨"", false, 0⟩, ⟨"redis://localhost:6379"⟩⟩ }

/-- `Create` with the given limits on an empty table. -/
def mintCall (rpm tpm : Int) : CreateCall :=
  ⟨some { orgID := "org", name := "ci", rateLimitRPM := some rpm, rateLimitTPM := some tpm },
    KeyService.sampleBytes, "id", false⟩

def mintedKey (rpm tpm : Int) : MintedKey KeyService.sample where
  store := ⟨[], .nil, .nil⟩
  now := 0
  before := []
  found := KeyService.start ⟨[], .nil, .nil⟩ 0
  reached := rfl
  call := mintCall rpm tpm
  req := { orgID := "org", name := "ci", rateLimitRPM := some rpm, rateLimitTPM := some tpm }
  body := rfl
  response := ⟨"id", "sk-gw-bbbbbbbbbbbbbbbbbbbbbbbbbbbbbbbb", "sk-gw-bbbbbbbb", "ci", rpm, tpm, none⟩
  minted := rfl

/-- The row that `Create` has added. -/
theorem mintedKey_found (rpm tpm : Int) :
    let hash := KeyService.sample.hash "sk-gw-bbbbbbbbbbbbbbbbbbbbbbbbbbbbbbbb"
    (mintedKey rpm tpm).left.store.getByHash hash 0 = some ((mintedKey rpm tpm).req.newKey.row "id" hash) := rfl

theorem mintedKey_authenticates (rpm tpm : Int) :
    (mintedKey rpm tpm).Authenticates ⟨"id", "org", "ci", rpm, tpm, [], none⟩ := by
  let reached (pc : AuthPC) : AdminState :=
    { (mintedKey rpm tpm).left with auths := [⟨"sk-gw-bbbbbbbbbbbbbbbbbbbbbbbbbbbbbbbb", pc, []⟩] }
  have asked : Transition.run KeyService.sample.keyStep (mintedKey rpm tpm).left
      [.admin (.authenticate "sk-gw-bbbbbbbbbbbbbbbbbbbbbbbbbbbbbbbb"), .admin (.authStep 0 false),
        .admin (.authStep 0 false)] = some (reached .getByHash) := rfl
  have found : KeyService.sample.lookup (reached .getByHash) "sk-gw-bbbbbbbbbbbbbbbbbbbbbbbbbbbbbbbb" false =
      .ok (some _) := congrArg Except.ok (mintedKey_found rpm tpm)
  have looked : KeyService.sample.keyStep (reached .getByHash) (.admin (.authStep 0 false)) =
      some (reached (.addPos ⟨"id", "org", "ci", rpm, tpm, [], none⟩)) := by
    have here : (reached .getByHash).auths[0]? = some ⟨"sk-gw-bbbbbbbbbbbbbbbbbbbbbbbbbbbbbbbb", .getByHash, []⟩ := rfl
    simp only [KeyService.keyStep, KeyService.step, here, Option.bind_some, found, AuthPC.next, Option.map_some]
    rfl
  have published : Transition.run KeyService.sample.keyStep
      (reached (.addPos ⟨"id", "org", "ci", rpm, tpm, [], none⟩)) [.admin (.authStep 0 false)] = some _ := rfl
  exact ⟨_, _, Transition.run_append.mpr ⟨_, asked, Transition.run_cons.mpr ⟨_, looked, published⟩⟩, _,
    List.mem_cons_self, rfl, rfl⟩

theorem minted_limits_enforced_five :
    ∃ cfg, load (.ok oneRequestConfig) = .ok cfg ∧ Enforces cfg.rateLimit ⟨"id", "org", "ci", 5, 7, [], none⟩ 5 7 := by
  have loaded : load (.ok oneRequestConfig) = .ok _ := rfl
  have limits := minted_limits_enforced_iff (mintedKey 5 7) rfl rfl (by decide) (by decide)
    (mintedKey_authenticates 5 7) loaded
  exact ⟨_, loaded, limits.mpr (by decide)⟩

/-- A key minted with both limits zero: its second request within the minute is
rejected. -/
theorem minted_zero_rejected :
    ∃ cfg info, load (.ok oneRequestConfig) = .ok cfg ∧ (mintedKey 0 0).Authenticates info ∧
      (soloFleet cfg.rateLimit).decisions info ((soloFleet cfg.rateLimit).idle 0)
        [.reserve () info.rpm info.tpm 0, .reserve () info.rpm info.tpm 0] = [.ok .allowed, .ok .rejectedRPM] ∧
      ¬ Enforces cfg.rateLimit info 0 0 := by
  have loaded : load (.ok oneRequestConfig) = .ok _ := rfl
  refine ⟨_, _, loaded, mintedKey_authenticates 0 0, ?_, fun enforced => ?_⟩
  · refine (Fleet.decisions_configured (fun _ => rfl) 0 (by simp [LimiterCall.limits]) (by simp)).trans ?_
    decide
  · have same := (enforces_iff.mp enforced).1 (Or.inl (by decide))
    exact absurd same (by decide)

end LlmGateway
