import Mathlib.Algebra.Order.BigOperators.Group.List
import LlmGateway.RateLimit.Replies

namespace LlmGateway

theorem clampRemaining_eq {limit : Int} (limited : 0 < limit) (used : Int) :
    clampRemaining limit used = max 0 (limit - used) := by
  unfold clampRemaining
  split <;> omega

theorem computeReset_eq {now oldest window : Int} (live : now - window < oldest) :
    computeReset now oldest window = (oldest + window - now) * 1000000 := by
  simp only [computeReset]
  rw [if_neg (by omega)]
  omega

theorem lt_earliest {now bound : Int} {stamps : List Int} (present : bound < now)
    (above : ∀ stamp ∈ stamps, bound < stamp) : bound < earliest now stamps := by
  induction stamps with
  | nil => exact present
  | cons stamp stamps ih =>
    obtain ⟨first, rest⟩ := List.forall_mem_cons.mp above
    exact lt_min first (ih rest)

/-- The reset that is computed from the oldest of some live stamps. -/
theorem computeReset_earliest {now window : Int} {stamps : List Int} (positive : 0 < window)
    (live : ∀ stamp ∈ stamps, now - window < stamp) :
    computeReset now (earliest now stamps) window = (earliest now stamps + window - now) * 1000000 :=
  computeReset_eq (lt_earliest (by omega) live)

namespace UsageLog

variable {log : UsageLog} {window rpm tpm now : Int}

theorem lt_liveTicks : ∀ t ∈ log.liveTicks window now, now - window < t :=
  fun t member => (log.live_of_liveTicks window now t member).1

theorem lt_liveRecords : ∀ t ∈ (log.liveRecords window now).map Prod.fst, now - window < t :=
  fun t member => (log.live_of_liveRecords window now t member).1

/-- Every record is of some tokens. -/
def Positive (log : UsageLog) : Prop := ∀ u ∈ log.records, 0 < u.2

theorem positive_empty : Positive ⟨[], []⟩ := List.forall_mem_nil _

theorem Positive.reserve (positive : log.Positive) (window rpm tpm now : Int) :
    (log.reserve window rpm tpm now).2.Positive := by
  simp only [UsageLog.reserve, addRequest]
  split
  · split <;> exact positive
  · exact positive

theorem Positive.recordTokens (positive : log.Positive) (tpm now tokens : Int) :
    (log.recordTokens tpm now tokens).Positive := by
  unfold UsageLog.recordTokens
  split
  · rename_i some
    exact List.forall_mem_cons.mpr ⟨some.1, positive⟩
  · exact positive

theorem Positive.tokensAt_pos (positive : log.Positive) (some : log.liveRecords window now ≠ []) :
    0 < log.tokensAt window now := by
  refine List.sum_pos _ ?_ (mt List.map_eq_nil_iff.mp some)
  refine List.forall_mem_map.mpr fun u member => positive u (List.mem_of_mem_filter member)

end UsageLog

/-- What both methods keep of the log, a run keeps. -/
theorem Fleet.referenceLog_invariant {ι : Type} (F : Fleet ι) (key : KeyInfo) {window : Int} {inv : UsageLog → Prop}
    (reserve : ∀ log rpm tpm now, inv log → inv (log.reserve window rpm tpm now).2)
    (recordTokens : ∀ log tpm now tokens, inv log → inv (log.recordTokens tpm now tokens)) {log : UsageLog}
    (initial : inv log) (calls : List (LimiterCall ι)) : inv (F.referenceLog key window log calls) := by
  induction calls generalizing log with
  | nil => exact initial
  | cons c calls ih =>
    cases c with
    | reserve i rpm tpm nowMs => exact ih (reserve _ _ _ _ initial)
    | recordTokens i rpm tpm nowMs tokens => exact ih (recordTokens _ _ _ _ initial)

/-- The log of a run has no record of nothing. -/
theorem Fleet.positive_referenceLog {ι : Type} (F : Fleet ι) (key : KeyInfo) (window : Int) {log : UsageLog}
    (positive : log.Positive) (calls : List (LimiterCall ι)) : (F.referenceLog key window log calls).Positive :=
  F.referenceLog_invariant key (fun _ rpm tpm now held => held.reserve window rpm tpm now)
    (fun _ tpm now tokens held => held.recordTokens tpm now tokens) positive calls

namespace UsageLog

variable {log : UsageLog} {window rpm tpm now : Int}

/-- The fields of the reservation say how the log stands. -/
structure Explains (log : UsageLog) (window rpm tpm now : Int) (res : Reservation) : Prop where
  remaining : res.remaining = max 0 (rpm - log.requestsAt window now)
  tpmRemaining : res.tpmRemaining = max 0 (tpm - log.tokensAt window now)
  reset : log.liveTicks window now ≠ [] →
    res.reset = (earliest now (log.liveTicks window now) + window - now) * 1000000
  tpmReset : log.liveRecords window now ≠ [] →
    res.tpmReset = (earliest now ((log.liveRecords window now).map Prod.fst) + window - now) * 1000000

theorem liveTicks_addRequest (limited : 0 < rpm) (positive : 0 < window) :
    (log.addRequest rpm now).liveTicks window now = now :: log.liveTicks window now := by
  rw [addRequest, if_pos limited, liveTicks, List.filter_cons_of_pos (by simpa using positive), liveTicks]

theorem liveRecords_addRequest : (log.addRequest rpm now).liveRecords window now = log.liveRecords window now := by
  unfold addRequest
  split <;> rfl

theorem earliest_now_cons (now : Int) (stamps : List Int) : earliest now (now :: stamps) = earliest now stamps :=
  min_eq_right (earliest_le_now now stamps)

theorem requestsAt_addRequest (limited : 0 < rpm) (positive : 0 < window) :
    (log.addRequest rpm now).requestsAt window now = log.requestsAt window now + 1 := by
  have ticks : ((log.addRequest rpm now).liveTicks window now).length = (log.liveTicks window now).length + 1 := by
    rw [liveTicks_addRequest limited positive, List.length_cons]
  exact congrArg Nat.cast ticks

theorem tokensAt_addRequest : (log.addRequest rpm now).tokensAt window now = log.tokensAt window now :=
  congrArg (fun live => (live.map Prod.snd).sum) liveRecords_addRequest

section Reservations

variable {lim : RedisLimiter}

theorem explains_rejectedRPM_iff (positive : log.Positive) (limitedTPM : 0 < tpm)
    (rejected : log.decision lim.windowMs rpm tpm now = .rejectedRPM) :
    log.Explains lim.windowMs rpm tpm now (log.reservation lim rpm tpm now) ↔
      log.liveRecords lim.windowMs now = [] := by
  obtain ⟨limited, -⟩ := decision_eq_rejectedRPM.mp rejected
  rw [reservation_rejectedRPM rejected]
  constructor
  · intro explains
    by_contra told
    have sum := positive.tokensAt_pos told
    have said : clampRemaining tpm 0 = max 0 (tpm - log.tokensAt lim.windowMs now) := explains.tpmRemaining
    rw [clampRemaining_eq limitedTPM] at said
    omega
  · intro silent
    have nothing : log.tokensAt lim.windowMs now = 0 := by
      rw [tokensAt, show log.records.filter _ = [] from silent]
      rfl
    exact {
      remaining := clampRemaining_eq limited _
      tpmRemaining := nothing ▸ clampRemaining_eq limitedTPM 0
      reset := fun _ => computeReset_earliest lim.windowMs_pos lt_liveTicks
      tpmReset := fun told => absurd silent told }

theorem explains_rejectedTPM (limited : 0 < rpm) (rejected : log.decision lim.windowMs rpm tpm now = .rejectedTPM) :
    log.Explains lim.windowMs rpm tpm now (log.reservation lim rpm tpm now) := by
  obtain ⟨-, limitedTPM, -⟩ := decision_eq_rejectedTPM.mp rejected
  rw [reservation_rejectedTPM rejected]
  exact {
    remaining := clampRemaining_eq limited _
    tpmRemaining := clampRemaining_eq limitedTPM _
    reset := fun _ => computeReset_earliest lim.windowMs_pos lt_liveTicks
    tpmReset := fun _ => computeReset_earliest lim.windowMs_pos lt_liveRecords }

theorem explains_allowed (limited : 0 < rpm) (limitedTPM : 0 < tpm)
    (admitted : log.decision lim.windowMs rpm tpm now = .allowed) :
    (log.addRequest rpm now).Explains lim.windowMs rpm tpm now (log.reservation lim rpm tpm now) := by
  rw [reservation_allowed (by omega) admitted, spent, if_pos limitedTPM]
  exact {
    remaining := by
      rw [requestsAt_addRequest limited lim.windowMs_pos]
      exact clampRemaining_eq limited _
    tpmRemaining := by
      rw [tokensAt_addRequest]
      exact clampRemaining_eq limitedTPM _
    reset := fun _ => by
      rw [liveTicks_addRequest limited lim.windowMs_pos, earliest_now_cons]
      exact computeReset_earliest lim.windowMs_pos lt_liveTicks
    tpmReset := fun _ => by
      rw [liveRecords_addRequest]
      exact computeReset_earliest lim.windowMs_pos lt_liveRecords }

/-- A reservation explains the log it leaves iff it was not rejected for the
requests while there were tokens to tell about. -/
theorem explains_iff (positive : log.Positive) (limited : 0 < rpm) (limitedTPM : 0 < tpm) :
    (log.reserve lim.windowMs rpm tpm now).2.Explains lim.windowMs rpm tpm now (log.reservation lim rpm tpm now) ↔
      log.requestsAt lim.windowMs now < rpm ∨ log.liveRecords lim.windowMs now = [] := by
  simp only [UsageLog.reserve]
  cases decided : log.decision lim.windowMs rpm tpm now with
  | rejectedRPM =>
    have full := (decision_eq_rejectedRPM.mp decided).2
    rw [if_neg (by decide), explains_rejectedRPM_iff positive limitedTPM decided, or_iff_right (by omega)]
  | rejectedTPM =>
    have room := (decision_eq_rejectedTPM.mp decided).1
    rw [if_neg (by decide)]
    exact iff_of_true (explains_rejectedTPM limited decided) (.inl (by omega))
  | allowed =>
    have room := (decision_eq_allowed.mp decided).1
    rw [if_pos rfl]
    exact iff_of_true (explains_allowed limited limitedTPM decided) (.inl (by omega))

end Reservations

end UsageLog

/-- The entries at the key that are in the window that ends now. -/
def Redis.live (r : Redis) (key : String) (window now : Int) : List (ScoredMember String) :=
  (r.liveEntries key window now).filter fun e => e.score ≤ now

/-- The fields of the reservation say how the server's two sets stand. -/
structure Truthful (key : KeyInfo) (window rpm tpm now : Int) (r : Redis) (res : Reservation) : Prop where
  remaining : res.remaining = max 0 (rpm - (r.live (rpmKey key) window now).length)
  tpmRemaining : res.tpmRemaining =
    max 0 (tpm - ((r.live (tpmKey key) window now).map fun e => memberTokens e.member).sum)
  reset : ∀ e ∈ r.live (rpmKey key) window now, (∀ e' ∈ r.live (rpmKey key) window now, e.score ≤ e'.score) →
    res.reset = (e.score + window - now) * 1000000
  tpmReset : ∀ e ∈ r.live (tpmKey key) window now, (∀ e' ∈ r.live (tpmKey key) window now, e.score ≤ e'.score) →
    res.tpmReset = (e.score + window - now) * 1000000

theorem Mirrors.live {α : Type} {r : Redis} {key : String} {window : Int} {view : ScoredMember String → α}
    {stamp : α → Int} {log : List α} {known : String → Prop} (mirrors : Mirrors r key window view stamp log known)
    (stamped : ∀ e, stamp (view e) = e.score) :
    ((r.live key window r.time).map view).Perm
      (log.filter fun a => r.time - window < stamp a ∧ stamp a ≤ r.time) := by
  have tracked := mirrors.tracks r.time le_rfl
  have past : ∀ e ∈ r.liveEntries key window r.time, e.score ≤ r.time := by
    intro e member
    have logged := List.mem_of_mem_filter (tracked.subset (List.mem_map_of_mem member))
    exact stamped e ▸ mirrors.past _ logged
  rw [Redis.live, List.filter_eq_self.mpr (by simpa using past), filter_past mirrors.past]
  exact tracked

/-- Stamps and their earliest, against entries and the least of their scores. -/
theorem forall_least_iff {entries : List (ScoredMember String)} {stamps : List Int} {now : Int} (value : Int)
    (f : Int → Int) (scores : (entries.map ScoredMember.score).Perm stamps) (past : ∀ stamp ∈ stamps, stamp ≤ now) :
    (∀ e ∈ entries, (∀ e' ∈ entries, e.score ≤ e'.score) → value = f e.score) ↔
      (stamps ≠ [] → value = f (earliest now stamps)) := by
  have listed {stamp : Int} : stamp ∈ stamps ↔ ∃ e ∈ entries, e.score = stamp := by
    rw [← scores.mem_iff, List.mem_map]
  constructor
  · intro least some
    obtain ⟨e, member, same⟩ := listed.mp (earliest_mem past some)
    rw [← same]
    refine least e member fun e' other => ?_
    rw [same]
    exact earliest_le (listed.mpr ⟨e', other, rfl⟩)
  · intro told e member minimal
    have some : stamps ≠ [] := List.ne_nil_of_mem (listed.mpr ⟨e, member, rfl⟩)
    obtain ⟨e', other, same⟩ := listed.mp (earliest_mem past some)
    have lower : earliest now stamps ≤ e.score := earliest_le (listed.mpr ⟨e, member, rfl⟩)
    have upper := minimal e' other
    rw [told some, ← same, le_antisymm upper (same ▸ lower)]

section Runs

variable {ι : Type} {F : Fleet ι} {key : KeyInfo} {window rpm tpm : Int} {s : LimiterState ι} {log : UsageLog}
  {res : Reservation}

theorem Simulates.live_ticks (sim : Simulates F key window s log) :
    ((s.redis.live (rpmKey key) window s.redis.time).map ScoredMember.score).Perm
      (log.liveTicks window s.redis.time) := sim.ticks.live fun _ => rfl

theorem Simulates.live_records (sim : Simulates F key window s log) :
    ((s.redis.live (tpmKey key) window s.redis.time).map fun e => (e.score, memberTokens e.member)).Perm
      (log.liveRecords window s.redis.time) := sim.records.live fun _ => rfl

theorem Simulates.length_live {now : Int} (sim : Simulates F key window s log) (clock : s.redis.time = now) :
    ((s.redis.live (rpmKey key) window now).length : Int) = log.requestsAt window now := by
  subst clock
  have lengths := sim.live_ticks.length_eq
  rw [List.length_map] at lengths
  exact congrArg Nat.cast lengths

theorem Simulates.live_eq_nil_iff {now : Int} (sim : Simulates F key window s log) (clock : s.redis.time = now) :
    s.redis.live (tpmKey key) window now = [] ↔ log.liveRecords window now = [] := by
  subst clock
  have lengths := sim.live_records.length_eq
  rw [List.length_map] at lengths
  rw [← List.length_eq_zero_iff, lengths, List.length_eq_zero_iff]

/-- The server makes true what the log makes true. -/
theorem Simulates.truthful_iff {now : Int} (sim : Simulates F key window s log) (clock : s.redis.time = now) :
    Truthful key window rpm tpm now s.redis res ↔ log.Explains window rpm tpm now res := by
  have count := sim.length_live clock
  subst clock
  have sum : ((s.redis.live (tpmKey key) window s.redis.time).map fun e => memberTokens e.member).sum =
      log.tokensAt window s.redis.time := by
    have sums := (sim.live_records.map Prod.snd).sum_eq
    rwa [List.map_map] at sums
  have stamps : ((s.redis.live (tpmKey key) window s.redis.time).map ScoredMember.score).Perm
      ((log.liveRecords window s.redis.time).map Prod.fst) := by
    have scores := sim.live_records.map Prod.fst
    rwa [List.map_map] at scores
  have resets := forall_least_iff res.reset (fun oldest => (oldest + window - s.redis.time) * 1000000)
    sim.live_ticks (log.liveTicks_le _ _)
  have tpmResets := forall_least_iff res.tpmReset (fun oldest => (oldest + window - s.redis.time) * 1000000)
    stamps (log.liveRecords_le _ _)
  rw [Ne, List.map_eq_nil_iff] at tpmResets
  constructor
  · intro truth
    exact ⟨count ▸ truth.remaining, sum ▸ truth.tpmRemaining, resets.mp truth.reset, tpmResets.mp truth.tpmReset⟩
  · intro explains
    exact ⟨count.symm ▸ explains.remaining, sum.symm ▸ explains.tpmRemaining, resets.mpr explains.reset,
      tpmResets.mpr explains.tpmReset⟩

variable [DecidableEq ι] {calls : List (LimiterCall ι)}

/-- In every state that calls with non-decreasing stamps reach, and for every next
`Reserve`: what the reservation says is true of the server after it, if and only if
there was room for the request, or no token is in the window. -/
theorem reservation_truthful_iff (F : Fleet ι) (key : KeyInfo) {window : Int}
    (windowed : ∀ i, (F.limiter i).windowMs = window) (time : Int)
    (ordered : calls.Pairwise fun a b => a.stamp ≤ b.stamp) {now : Int} (latest : ∀ c ∈ calls, c.stamp ≤ now)
    (i : ι) {rpm tpm : Int} (limitedRPM : 0 < (F.limits key i rpm tpm).1)
    (limitedTPM : 0 < (F.limits key i rpm tpm).2) :
    let s := F.after key (F.idle time) calls
    let res := F.reserve key s i rpm tpm now
    ∃ reservation, res.reservation = .ok reservation ∧
      (Truthful key window (F.limits key i rpm tpm).1 (F.limits key i rpm tpm).2 now res.redis reservation ↔
        (s.redis.live (rpmKey key) window now).length < (F.limits key i rpm tpm).1 ∨
          s.redis.live (tpmKey key) window now = []) := by
  intro s res
  obtain rfl := windowed i
  have sim : Simulates F key _ (s.clockAt now) (F.referenceLog key _ ⟨[], []⟩ calls) :=
    Fleet.simulates_after windowed time ordered latest
  obtain ⟨clock, next⟩ := sim.reserved rfl rpm tpm
  have count : ((s.redis.live (rpmKey key) _ now).length : Int) = _ := sim.length_live rfl
  have silent : s.redis.live (tpmKey key) _ now = [] ↔ _ := sim.live_eq_nil_iff rfl
  rw [count, silent]
  refine ⟨_, sim.reservation rfl rpm tpm, (next.truthful_iff clock).trans ?_⟩
  exact UsageLog.explains_iff (F.positive_referenceLog key _ UsageLog.positive_empty calls) limitedRPM limitedTPM

end Runs

/-- A second request in the same minute, before any token is recorded. -/
theorem reservation_truthful_iff_pair :
    let key : KeyInfo := ⟨"k", "o", "", 0, 0, [], none⟩
    let s := pairFleet.after key (pairFleet.idle 0) [.reserve true 0 10 0]
    let res := pairFleet.reserve key s false 0 10 2
    ∃ reservation, res.reservation = .ok reservation ∧
      (Truthful key 60000 1 10 2 res.redis reservation ↔
        (s.redis.live (rpmKey key) 60000 2).length < (1 : Int) ∨ s.redis.live (tpmKey key) 60000 2 = []) :=
  reservation_truthful_iff pairFleet ⟨"k", "o", "", 0, 0, [], none⟩ (fun _ => rfl) 0
    (by simp) (by simp [LimiterCall.stamp]) false (by decide) (by decide)

/-- The second request of a minute is rejected, and is told that all ten tokens are
left although seven are spent. -/
theorem rejected_request_untold_tokens :
    let key : KeyInfo := ⟨"k", "o", "", 0, 0, [], none⟩
    let s := pairFleet.after key (pairFleet.idle 0) [.reserve true 0 10 0, .recordTokens true 0 10 1 7]
    let res := pairFleet.reserve key s false 0 10 2
    ∃ reservation, res.reservation = .ok reservation ∧ reservation.tpmRemaining = 10 ∧
      (res.redis.live (tpmKey key) 60000 2).map (fun e => memberTokens e.member) = [7] ∧
      ¬ Truthful key 60000 1 10 2 res.redis reservation := by
  intro key s res
  have spent : (res.redis.live (tpmKey key) 60000 2).map (fun e => memberTokens e.member) = [7] := by decide +kernel
  have replied : res.reservation = .ok ⟨false, 1, 0, 59998000000, 10, 10, 60000000000, 59998000000⟩ := by
    decide +kernel
  refine ⟨_, replied, rfl, spent, fun truth => ?_⟩
  have said := truth.tpmRemaining
  rw [spent] at said
  exact absurd said (by decide)

end LlmGateway
