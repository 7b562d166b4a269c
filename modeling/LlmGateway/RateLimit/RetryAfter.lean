import LlmGateway.Middleware.RateLimit
import LlmGateway.RateLimit.Truth

namespace LlmGateway

theorem filter_sublist_filter {α : Type} {items : List α} {p q : α → Bool} (implied : ∀ a ∈ items.filter p, q a) :
    (items.filter p).Sublist (items.filter q) := by
  have kept : ((items.filter p).filter q).Sublist (items.filter q) := List.filter_sublist.filter q
  rwa [List.filter_eq_self.mpr implied] at kept

namespace UsageLog

variable {log log' : UsageLog} {window rpm tpm now t : Int}

/-- What is in the log stays in it. -/
structure GrowsTo (log log' : UsageLog) : Prop where
  ticks : log.ticks <:+ log'.ticks
  records : log.records <:+ log'.records

theorem GrowsTo.refl (log : UsageLog) : GrowsTo log log := ⟨List.suffix_rfl, List.suffix_rfl⟩

theorem GrowsTo.trans {log'' : UsageLog} (first : GrowsTo log log') (next : GrowsTo log' log'') : GrowsTo log log'' :=
  ⟨first.ticks.trans next.ticks, first.records.trans next.records⟩

theorem growsTo_reserve (log : UsageLog) (window rpm tpm now : Int) :
    GrowsTo log (log.reserve window rpm tpm now).2 := by
  simp only [UsageLog.reserve, addRequest]
  split
  · split
    · exact ⟨List.suffix_cons _ _, List.suffix_rfl⟩
    · exact .refl log
  · exact .refl log

theorem growsTo_recordTokens (log : UsageLog) (tpm now tokens : Int) :
    GrowsTo log (log.recordTokens tpm now tokens) := by
  unfold UsageLog.recordTokens
  split
  · exact ⟨List.suffix_rfl, List.suffix_cons _ _⟩
  · exact .refl log

/-- Until the oldest request leaves the window the requests do not become fewer. -/
theorem GrowsTo.requestsAt_le (grows : GrowsTo log log') (later : now ≤ t)
    (soon : t < earliest now (log.liveTicks window now) + window) :
    log.requestsAt window now ≤ log'.requestsAt window t := by
  have still : ∀ a ∈ log.liveTicks window now, decide (t - window < a ∧ a ≤ t) = true := by
    intro a member
    have first : earliest now (log.liveTicks window now) ≤ a := earliest_le member
    have past := log.liveTicks_le window now a member
    simp only [decide_eq_true_eq]
    omega
  have kept := (filter_sublist_filter still).trans (grows.ticks.sublist.filter _)
  exact Nat.cast_le.mpr kept.length_le

/-- Until the oldest record leaves the window the tokens do not become fewer. -/
theorem GrowsTo.tokensAt_le (grows : GrowsTo log log') (positive : log'.Positive) (later : now ≤ t)
    (soon : t < earliest now ((log.liveRecords window now).map Prod.fst) + window) :
    log.tokensAt window now ≤ log'.tokensAt window t := by
  have still : ∀ u ∈ log.liveRecords window now, decide (t - window < u.1 ∧ u.1 ≤ t) = true := by
    intro u member
    have stamped := List.mem_map_of_mem (f := Prod.fst) member
    have first : earliest now ((log.liveRecords window now).map Prod.fst) ≤ u.1 := earliest_le stamped
    have past := log.liveRecords_le window now u.1 stamped
    simp only [decide_eq_true_eq]
    omega
  have kept := (filter_sublist_filter still).trans (grows.records.sublist.filter _)
  refine (kept.map Prod.snd).sum_le_sum ?_
  exact List.forall_mem_map.mpr fun u member => (positive u (List.mem_of_mem_filter member)).le

/-- Without new requests, those in a later window are among those in the present one. -/
theorem liveTicks_sublist (past : ∀ a ∈ log.ticks, a ≤ now) (later : now ≤ t) :
    (log.liveTicks window t).Sublist (log.liveTicks window now) := by
  refine filter_sublist_filter fun a member => ?_
  have bound := past a (List.mem_of_mem_filter member)
  have live : t - window < a := lt_liveTicks a member
  simp only [decide_eq_true_eq]
  omega

theorem requestsAt_antitone (past : ∀ a ∈ log.ticks, a ≤ now) (later : now ≤ t) :
    log.requestsAt window t ≤ log.requestsAt window now :=
  Nat.cast_le.mpr (liveTicks_sublist past later).length_le

/-- When the oldest request has left the window there are fewer. -/
theorem requestsAt_lt (past : ∀ a ∈ log.ticks, a ≤ now) (later : now ≤ t) (some : log.liveTicks window now ≠ [])
    (gone : earliest now (log.liveTicks window now) + window ≤ t) :
    log.requestsAt window t < log.requestsAt window now := by
  have kept : (log.liveTicks window t).Sublist (log.liveTicks window now) := liveTicks_sublist past later
  refine Nat.cast_lt.mpr (lt_of_le_of_ne kept.length_le fun all => ?_)
  have oldest : earliest now (log.liveTicks window now) ∈ log.liveTicks window t := by
    rw [kept.eq_of_length all]
    exact earliest_mem (log.liveTicks_le window now) some
  have live := lt_liveTicks _ oldest
  omega

/-- The requests of the log are not of the future, and no more are in the window than the limit. -/
structure Within (log : UsageLog) (window rpm now : Int) : Prop where
  past : ∀ a ∈ log.ticks, a ≤ now
  bounded : log.requestsAt window now ≤ rpm

theorem Within.later (within : log.Within window rpm now) (le : now ≤ t) : log.Within window rpm t where
  past := fun a member => (within.past a member).trans le
  bounded := (requestsAt_antitone within.past le).trans within.bounded

theorem Within.reserve (within : log.Within window rpm now) (limited : 0 < rpm) (positive : 0 < window) (tpm : Int) :
    (log.reserve window rpm tpm now).2.Within window rpm now := by
  simp only [UsageLog.reserve]
  split
  · rename_i admitted
    have room := (decision_eq_allowed.mp admitted).1
    refine ⟨?_, ?_⟩
    · rw [addRequest, if_pos limited]
      exact List.forall_mem_cons.mpr ⟨le_rfl, within.past⟩
    · rw [requestsAt_addRequest limited positive]
      omega
  · exact within

theorem Within.recordTokens (within : log.Within window rpm now) (tpm stamp tokens : Int) :
    (log.recordTokens tpm stamp tokens).Within window rpm now := by
  unfold UsageLog.recordTokens
  split <;> exact ⟨within.past, within.bounded⟩

end UsageLog

/-- The limits in effect for a call. -/
def Fleet.effective {ι : Type} (F : Fleet ι) (key : KeyInfo) : LimiterCall ι → Int × Int
  | .reserve i rpm tpm _ => F.limits key i rpm tpm
  | .recordTokens i rpm tpm _ _ => F.limits key i rpm tpm

namespace Fleet

variable {ι : Type} {F : Fleet ι} {key : KeyInfo} {window rpm tpm now t : Int} {log : UsageLog}
  {calls : List (LimiterCall ι)}

theorem referenceCall_reserve {i : ι} {r t nowMs : Int} (limits : F.limits key i r t = (rpm, tpm)) :
    F.referenceCall key window log (.reserve i r t nowMs) =
      (some (log.reserve window rpm tpm nowMs).1, (log.reserve window rpm tpm nowMs).2) := by
  obtain ⟨rfl, rfl⟩ := Prod.mk.inj limits
  rfl

theorem growsTo_referenceLog (F : Fleet ι) (key : KeyInfo) (window : Int) (log : UsageLog)
    (calls : List (LimiterCall ι)) : log.GrowsTo (F.referenceLog key window log calls) :=
  F.referenceLog_invariant key
    (fun log' rpm tpm now grown => grown.trans (log'.growsTo_reserve window rpm tpm now))
    (fun log' tpm now tokens grown => grown.trans (log'.growsTo_recordTokens tpm now tokens)) (.refl log) calls

/-- Under one limit the window never holds more requests than it. -/
theorem within_referenceLog (limited : 0 < rpm) (positive : 0 < window)
    (constant : ∀ c ∈ calls, F.effective key c = (rpm, tpm)) (within : log.Within window rpm now)
    (later : ∀ c ∈ calls, now ≤ c.stamp) (ordered : calls.Pairwise fun a b => a.stamp ≤ b.stamp) (le : now ≤ t)
    (latest : ∀ c ∈ calls, c.stamp ≤ t) : (F.referenceLog key window log calls).Within window rpm t := by
  induction calls generalizing log now with
  | nil => exact within.later le
  | cons c calls ih =>
    obtain ⟨first, rest⟩ := List.pairwise_cons.mp ordered
    obtain ⟨limits, others⟩ := List.forall_mem_cons.mp constant
    obtain ⟨here, latest⟩ := List.forall_mem_cons.mp latest
    have advanced := within.later (later c List.mem_cons_self)
    have next : (F.referenceCall key window log c).2.Within window rpm c.stamp := by
      cases c with
      | reserve i r t nowMs =>
        rw [referenceCall_reserve limits]
        exact advanced.reserve limited positive tpm
      | recordTokens i r t nowMs tokens => exact advanced.recordTokens _ _ _
    exact ih others next first rest here latest

/-- The same from the start of the limiter. -/
theorem within_start (limited : 0 < rpm) (positive : 0 < window)
    (constant : ∀ c ∈ calls, F.effective key c = (rpm, tpm)) (ordered : calls.Pairwise fun a b => a.stamp ≤ b.stamp)
    (latest : ∀ c ∈ calls, c.stamp ≤ t) : (F.referenceLog key window ⟨[], []⟩ calls).Within window rpm t := by
  have empty (u : Int) : UsageLog.Within ⟨[], []⟩ window rpm u := ⟨List.forall_mem_nil _, limited.le⟩
  cases calls with
  | nil => exact empty t
  | cons c calls =>
    have since : ∀ c' ∈ c :: calls, c.stamp ≤ c'.stamp :=
      List.forall_mem_cons.mpr ⟨le_rfl, (List.pairwise_cons.mp ordered).1⟩
    exact within_referenceLog limited positive constant (empty c.stamp) since ordered (latest c List.mem_cons_self)
      latest

theorem referenceLog_append (F : Fleet ι) (key : KeyInfo) (window : Int) (log : UsageLog)
    (before calls : List (LimiterCall ι)) :
    F.referenceLog key window log (before ++ calls) =
      F.referenceLog key window (F.referenceLog key window log before) calls := List.foldl_append

/-- No request is admitted while the window stays full. -/
theorem ticks_referenceLog (limited : 0 < rpm) (constant : ∀ c ∈ calls, F.effective key c = (rpm, tpm))
    (full : rpm ≤ log.requestsAt window now) (later : ∀ c ∈ calls, now ≤ c.stamp)
    (soon : ∀ i r t nowMs, .reserve i r t nowMs ∈ calls → nowMs < earliest now (log.liveTicks window now) + window) :
    (F.referenceLog key window log calls).ticks = log.ticks := by
  induction calls using List.reverseRecOn with
  | nil => rfl
  | append_singleton calls c ih =>
    have before {c' : LimiterCall ι} (member : c' ∈ calls) : c' ∈ calls ++ [c] := List.mem_append_left _ member
    have last : c ∈ calls ++ [c] := List.mem_append_right _ (List.mem_singleton_self c)
    have same := ih (fun c' member => constant c' (before member)) (fun c' member => later c' (before member))
      (fun i r t nowMs member => soon i r t nowMs (before member))
    rw [referenceLog_append, ← same]
    cases c with
    | reserve i r t nowMs =>
      have grown := (growsTo_referenceLog F key window log calls).requestsAt_le (later _ last) (soon i r t nowMs last)
      have rejected : (F.referenceLog key window log calls).decision window rpm tpm nowMs = .rejectedRPM :=
        UsageLog.decision_eq_rejectedRPM.mpr ⟨limited, full.trans grown⟩
      change (F.referenceCall key window _ _).2.ticks = _
      rw [referenceCall_reserve (constant _ last), UsageLog.reserve_rejected]
      simp [UsageLog.reserve, rejected]
    | recordTokens i r t nowMs tokens =>
      change (UsageLog.recordTokens _ _ _ _).ticks = _
      unfold UsageLog.recordTokens
      split <;> rfl

end Fleet

namespace UsageLog

variable {log : UsageLog} {lim : RedisLimiter} {rpm tpm now : Int}

theorem retryAfter_rejectedRPM (rejected : log.decision lim.windowMs rpm tpm now = .rejectedRPM) :
    (log.reservation lim rpm tpm now).retryAfter =
        (earliest now (log.liveTicks lim.windowMs now) + lim.windowMs - now) * 1000000 ∧
      (log.reservation lim rpm tpm now).reset = (log.reservation lim rpm tpm now).retryAfter ∧
      now < earliest now (log.liveTicks lim.windowMs now) + lim.windowMs := by
  have positive := lim.windowMs_pos
  have young : now - lim.windowMs < earliest now (log.liveTicks lim.windowMs now) :=
    lt_earliest (by omega) lt_liveTicks
  rw [reservation_rejectedRPM rejected]
  simp only [RedisLimiter.reservationOf, computeReset_earliest positive lt_liveTicks, if_true]
  rw [if_neg (by simp), if_neg (by omega)]
  exact ⟨rfl, rfl, by omega⟩

theorem retryAfter_rejectedTPM (rejected : log.decision lim.windowMs rpm tpm now = .rejectedTPM) :
    (log.reservation lim rpm tpm now).retryAfter =
        (earliest now ((log.liveRecords lim.windowMs now).map Prod.fst) + lim.windowMs - now) * 1000000 ∧
      now < earliest now ((log.liveRecords lim.windowMs now).map Prod.fst) + lim.windowMs := by
  have positive := lim.windowMs_pos
  have young : now - lim.windowMs < earliest now ((log.liveRecords lim.windowMs now).map Prod.fst) :=
    lt_earliest (by omega) lt_liveRecords
  rw [reservation_rejectedTPM rejected]
  have code : (2 : Int) ≠ 1 := by decide
  simp only [RedisLimiter.reservationOf, computeReset_earliest positive lt_liveRecords, code, if_true, if_false]
  rw [if_neg (by simp), if_neg (by omega)]
  exact ⟨rfl, by omega⟩

end UsageLog

section Rejections

variable {log : UsageLog} {lim : RedisLimiter} {rpm tpm now : Int}

/-- A rejection, and how long it lasts: until the retry time every log that grows
out of this one rejects. -/
theorem UsageLog.rejected_until (rejected : log.decision lim.windowMs rpm tpm now ≠ .allowed) :
    0 < (log.reservation lim rpm tpm now).retryAfter ∧
      ∀ log', log.GrowsTo log' → log'.Positive → ∀ t, now ≤ t →
        t * 1000000 < now * 1000000 + (log.reservation lim rpm tpm now).retryAfter →
        log'.decision lim.windowMs rpm tpm t ≠ .allowed := by
  cases decided : log.decision lim.windowMs rpm tpm now with
  | allowed => exact absurd decided rejected
  | rejectedRPM =>
    obtain ⟨wait, -, soon⟩ := retryAfter_rejectedRPM decided
    obtain ⟨limited, full⟩ := decision_eq_rejectedRPM.mp decided
    rw [wait]
    refine ⟨by omega, fun log' grows _ t later early => ?_⟩
    have grown : log.requestsAt lim.windowMs now ≤ log'.requestsAt lim.windowMs t :=
      grows.requestsAt_le later (by omega)
    rw [decision_eq_rejectedRPM.mpr ⟨limited, full.trans grown⟩]
    decide
  | rejectedTPM =>
    obtain ⟨wait, soon⟩ := retryAfter_rejectedTPM decided
    obtain ⟨-, limited, spent⟩ := decision_eq_rejectedTPM.mp decided
    rw [wait]
    refine ⟨by omega, fun log' grows positive' t later early admitted => ?_⟩
    have grown : log.tokensAt lim.windowMs now ≤ log'.tokensAt lim.windowMs t :=
      grows.tokensAt_le positive' later (by omega)
    exact (decision_eq_allowed.mp admitted).2 ⟨limited, spent.trans grown⟩

variable {ι : Type} {F : Fleet ι} {key : KeyInfo} {t : Int} {calls : List (LimiterCall ι)}

/-- After a rejection for the requests, the first request from the retry time on is
not rejected for them. -/
theorem Fleet.not_rejectedRPM_at (within : log.Within lim.windowMs rpm now)
    (rejected : log.decision lim.windowMs rpm tpm now = .rejectedRPM)
    (constant : ∀ c ∈ calls, F.effective key c = (rpm, tpm)) (later : ∀ c ∈ calls, now ≤ c.stamp) (le : now ≤ t)
    (early : ∀ i r t nowMs, .reserve i r t nowMs ∈ calls →
      nowMs * 1000000 < now * 1000000 + (log.reservation lim rpm tpm now).retryAfter)
    (due : now * 1000000 + (log.reservation lim rpm tpm now).retryAfter ≤ t * 1000000) :
    (F.referenceLog key lim.windowMs log calls).decision lim.windowMs rpm tpm t ≠ .rejectedRPM := by
  obtain ⟨wait, -, soon⟩ := UsageLog.retryAfter_rejectedRPM rejected
  obtain ⟨limited, full⟩ := UsageLog.decision_eq_rejectedRPM.mp rejected
  rw [wait] at early due
  have quiet : (F.referenceLog key lim.windowMs log calls).ticks = log.ticks := by
    refine Fleet.ticks_referenceLog limited constant full later fun i r t nowMs member => ?_
    have bound := early i r t nowMs member
    omega
  have some : log.liveTicks lim.windowMs now ≠ [] := by
    intro none
    have nothing : log.requestsAt lim.windowMs now = 0 := by
      change (List.length (log.liveTicks lim.windowMs now) : Int) = 0
      rw [none]
      rfl
    omega
  have fewer := UsageLog.requestsAt_lt within.past le some (by omega)
  have same : (F.referenceLog key lim.windowMs log calls).requestsAt lim.windowMs t =
      log.requestsAt lim.windowMs t := by
    rw [UsageLog.requestsAt, quiet, UsageLog.requestsAt]
  intro again
  have filled := (UsageLog.decision_eq_rejectedRPM.mp again).2
  have bounded := within.bounded
  omega

end Rejections

/-- The header fields of a rejected request. -/
theorem throttled_headers {parts : Serving} {info : KeyInfo} {res : Reservation}
    (reserved : parts.reserve info = .ok res) (rejected : res.allowed = false) (handler : List HandlerCall)
    (w : ResponseWriter) :
    ∃ headers w' secs, serve parts (some info) handler w = .throttled headers w' ∧
      headers.lookup "Retry-After" = some (toString secs) ∧
      IsLeast {k : Int | max res.retryAfter second ≤ k * second} secs ∧
      (0 < res.limit → 0 < res.retryAfter → res.reset = res.retryAfter →
        headers.lookup "X-RateLimit-Reset-Requests" = some (durationString (secs * second))) := by
  obtain ⟨w', throttled⟩ := serve_throttled reserved rejected handler w
  refine ⟨_, w', retrySeconds res.retryAfter, throttled, lookup_retryAfter res _, isLeast_retrySeconds _, ?_⟩
  intro limited positive same
  rw [lookup_resetRequests limited, same, roundDurationToSecond_eq positive]

theorem LimitDecision.eq_of_ne_allowed {d : LimitDecision} (rejected : d ≠ .allowed) :
    d = .rejectedRPM ∨ d = .rejectedTPM := by
  cases d with
  | allowed => exact absurd rfl rejected
  | rejectedRPM => exact .inl rfl
  | rejectedTPM => exact .inr rfl

theorem LimitDecision.eq_of_ne_rejectedRPM {d : LimitDecision} (other : d ≠ .rejectedRPM) :
    d = .allowed ∨ d = .rejectedTPM := by
  cases d with
  | allowed => exact .inl rfl
  | rejectedRPM => exact absurd rfl other
  | rejectedTPM => exact .inr rfl

section Retry

variable {ι : Type} [DecidableEq ι] (F : Fleet ι) (key : KeyInfo) {window : Int}
  (windowed : ∀ i, (F.limiter i).windowMs = window) (time : Int) {before between : List (LimiterCall ι)} {i j : ι}
  {r t r' t' now later rpm tpm : Int}
  (ordered : (before ++ LimiterCall.reserve i r t now :: (between ++ [LimiterCall.reserve j r' t' later])).Pairwise
    fun a b => a.stamp ≤ b.stamp)
  (constant : ∀ c ∈ before ++ LimiterCall.reserve i r t now :: (between ++ [LimiterCall.reserve j r' t' later]),
    F.effective key c = (rpm, tpm))

include windowed ordered constant

/-- A request and a retry, in terms of the log before the request. -/
theorem Fleet.retry_log :
    let first := F.reserve key (F.after key (F.idle time) before) i r t now
    let retry := F.reserve key (F.after key (F.idle time) (before ++ .reserve i r t now :: between)) j r' t' later
    ∃ log : UsageLog, log.Positive ∧ (0 < rpm → log.Within window rpm now) ∧
      first.reservation = .ok (log.reservation (F.limiter i) rpm tpm now) ∧
      first.decision = .ok (log.decision window rpm tpm now) ∧
      (log.decision window rpm tpm now ≠ .allowed →
        retry.decision = .ok ((F.referenceLog key window log between).decision window rpm tpm later)) := by
  intro first retry
  have whole : before ++ LimiterCall.reserve i r t now :: (between ++ [LimiterCall.reserve j r' t' later]) =
      (before ++ .reserve i r t now :: between) ++ [.reserve j r' t' later] := by simp
  rw [whole] at ordered constant
  obtain ⟨orderedRun, -, beforeRetry⟩ := List.pairwise_append.mp ordered
  obtain ⟨constantRun, limits'⟩ := List.forall_mem_append.mp constant
  obtain ⟨orderedBefore, -, across⟩ := List.pairwise_append.mp orderedRun
  obtain ⟨constantBefore, constantFrom⟩ := List.forall_mem_append.mp constantRun
  have limits : F.limits key i r t = (rpm, tpm) := constantFrom _ List.mem_cons_self
  have limits' : F.limits key j r' t' = (rpm, tpm) := limits' _ (List.mem_singleton_self _)
  have latest : ∀ c ∈ before, c.stamp ≤ now := fun c member => across c member _ List.mem_cons_self
  have latest' : ∀ c ∈ before ++ .reserve i r t now :: between, c.stamp ≤ later := fun c member =>
    beforeRetry c member _ (List.mem_singleton_self _)
  have positive : 0 < window := windowed i ▸ (F.limiter i).windowMs_pos
  refine ⟨F.referenceLog key window ⟨[], []⟩ before, F.positive_referenceLog key _ UsageLog.positive_empty before,
    fun limited => Fleet.within_start limited positive constantBefore orderedBefore latest, ?_, ?_, fun denied => ?_⟩
  · rw [F.reservation_after key windowed time orderedBefore latest i r t, limits]
  · rw [F.decision_after key windowed time orderedBefore latest i r t, limits]
  · rw [F.decision_after key windowed time orderedRun latest' j r' t', limits', Fleet.referenceLog_append]
    have kept (log : UsageLog) (denied : log.decision window rpm tpm now ≠ .allowed) :
        F.referenceLog key window log (.reserve i r t now :: between) = F.referenceLog key window log between := by
      change F.referenceLog key window (F.referenceCall key window log _).2 between = _
      rw [Fleet.referenceCall_reserve limits, UsageLog.reserve_rejected _ _ denied]
    rw [kept _ denied]

/-- A rejected `Reserve` names the earliest useful retry: every later one stamped
before it is rejected too, whatever happens in between, and after a rejection for the
requests the first one stamped from then on is not rejected for them. The response
names the same time in whole seconds. -/
theorem retryAfter_is_earliest {res : Reservation}
    (replied : (F.reserve key (F.after key (F.idle time) before) i r t now).reservation = .ok res)
    (rejected : res.allowed = false) :
    let first := F.reserve key (F.after key (F.idle time) before) i r t now
    let retry := F.reserve key (F.after key (F.idle time) (before ++ .reserve i r t now :: between)) j r' t' later
    0 < res.retryAfter ∧
      (later * 1000000 < now * 1000000 + res.retryAfter →
        retry.decision = .ok .rejectedRPM ∨ retry.decision = .ok .rejectedTPM) ∧
      (first.decision = .ok .rejectedRPM →
        (∀ i r t nowMs, .reserve i r t nowMs ∈ between → nowMs * 1000000 < now * 1000000 + res.retryAfter) →
        now * 1000000 + res.retryAfter ≤ later * 1000000 →
        retry.decision = .ok .allowed ∨ retry.decision = .ok .rejectedTPM) ∧
      ∀ parts info handler w, parts.reserve info = .ok res →
        ∃ headers w' secs, serve parts (some info) handler w = .throttled headers w' ∧
          headers.lookup "Retry-After" = some (toString secs) ∧
          IsLeast {k : Int | max res.retryAfter second ≤ k * second} secs ∧
          (first.decision = .ok .rejectedRPM →
            headers.lookup "X-RateLimit-Reset-Requests" = some (durationString (secs * second))) := by
  intro first retry
  obtain ⟨log, positive, within, said, decided, retried⟩ := F.retry_log key windowed time ordered constant
  obtain rfl := windowed i
  obtain rfl := Except.ok.inj (replied.symm.trans said)
  have denied := mt UsageLog.allowed_reservation.mpr (Bool.eq_false_iff.mp rejected)
  obtain ⟨wait, lasts⟩ := UsageLog.rejected_until denied
  have since := (List.pairwise_cons.mp (List.pairwise_append.mp ordered).2.1).1
  have le : now ≤ later := since _ (List.mem_append_right _ (List.mem_singleton_self _))
  rw [show retry.decision = _ from retried denied, show first.decision = _ from decided]
  simp only [Except.ok.injEq]
  refine ⟨wait, fun early => ?_, fun full early due => ?_, fun parts info handler w reserved => ?_⟩
  · exact LimitDecision.eq_of_ne_allowed (lasts (F.referenceLog key _ log between) (F.growsTo_referenceLog key _ log _)
      (F.positive_referenceLog key _ positive _) later le early)
  · have limited := (UsageLog.decision_eq_rejectedRPM.mp full).1
    have inside {c : LimiterCall ι} (member : c ∈ between) : c ∈ between ++ [.reserve j r' t' later] :=
      List.mem_append_left _ member
    refine LimitDecision.eq_of_ne_rejectedRPM (Fleet.not_rejectedRPM_at (within limited) full ?_ ?_ le early due)
    · exact fun c member => constant c (List.mem_append_right _ (List.mem_cons_of_mem _ (inside member)))
    · exact fun c member => since c (inside member)
  · obtain ⟨headers, w', secs, throttled, retryAfter, least, reset⟩ := throttled_headers reserved rejected handler w
    refine ⟨headers, w', secs, throttled, retryAfter, least, fun full => ?_⟩
    obtain ⟨-, same, -⟩ := UsageLog.retryAfter_rejectedRPM full
    have limited : 0 < (log.reservation (F.limiter i) rpm tpm now).limit := by
      rw [UsageLog.reservation_rejectedRPM full]
      exact (UsageLog.decision_eq_rejectedRPM.mp full).1
    exact reset limited wait same

end Retry

/-- One request a minute: the second one is told to come back when the first has
left the window, and is admitted then. -/
theorem retryAfter_is_earliest_minute :
    let key : KeyInfo := ⟨"k", "o", "", 0, 0, [], none⟩
    let run : List (LimiterCall Bool) := [.reserve true 0 0 0, .reserve false 0 0 100]
    let retry := pairFleet.reserve key (pairFleet.after key (pairFleet.idle 0) run) true 0 0 60000
    retry.decision = .ok .allowed ∨ retry.decision = .ok .rejectedTPM := by
  intro key run retry
  have replied : (pairFleet.reserve key (pairFleet.after key (pairFleet.idle 0) [.reserve true 0 0 0]) false 0 0
      100).reservation = .ok ⟨false, 1, 0, 59900000000, 0, 0, 60000000000, 59900000000⟩ := by decide +kernel
  have full : (pairFleet.reserve key (pairFleet.after key (pairFleet.idle 0) [.reserve true 0 0 0]) false 0 0
      100).decision = .ok .rejectedRPM := by decide +kernel
  let calls : List (LimiterCall Bool) :=
    [.reserve true 0 0 0] ++ .reserve false 0 0 100 :: ([] ++ [.reserve true 0 0 60000])
  have ordered : calls.Pairwise fun a b => a.stamp ≤ b.stamp := by simp [calls, LimiterCall.stamp]
  have constant : ∀ c ∈ calls, pairFleet.effective key c = (1, 0) := by
    simp only [calls, List.cons_append, List.nil_append, List.forall_mem_cons]
    exact ⟨rfl, rfl, rfl, List.forall_mem_nil _⟩
  exact (retryAfter_is_earliest pairFleet key (fun _ => rfl) 0 ordered constant replied rfl).2.2.1 full
    (by simp) (by decide)

end LlmGateway
