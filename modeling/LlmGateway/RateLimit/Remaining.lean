import LlmGateway.RateLimit.RetryAfter

namespace LlmGateway

/-- The call is a `Reserve` with the given stamp, under the given limits. -/
def Fleet.ReservesAt {ι : Type} (F : Fleet ι) (key : KeyInfo) (rpm tpm now : Int) (c : LimiterCall ι) : Prop :=
  ∃ i r t, c = .reserve i r t now ∧ F.limits key i r t = (rpm, tpm)

namespace UsageLog

variable {log : UsageLog} {window rpm tpm now : Int}

theorem tokensAt_reserve : (log.reserve window rpm tpm now).2.tokensAt window now = log.tokensAt window now := by
  simp only [UsageLog.reserve]
  split
  · exact tokensAt_addRequest
  · rfl

/-- A request is counted as long as there is room. -/
theorem requestsAt_reserve (limited : 0 < rpm) (positive : 0 < window) (within : log.requestsAt window now ≤ rpm)
    (unspent : ¬ (0 < tpm ∧ tpm ≤ log.tokensAt window now)) :
    (log.reserve window rpm tpm now).2.requestsAt window now = min rpm (log.requestsAt window now + 1) := by
  simp only [UsageLog.reserve]
  split
  · rename_i admitted
    have room := (decision_eq_allowed.mp admitted).1
    rw [requestsAt_addRequest limited positive]
    omega
  · rename_i rejected
    have full : ¬ ¬ (0 < rpm ∧ rpm ≤ log.requestsAt window now) :=
      fun room => rejected (decision_eq_allowed.mpr ⟨room, unspent⟩)
    omega

end UsageLog

section Burst

variable {ι : Type} {F : Fleet ι} {key : KeyInfo} {window rpm tpm now : Int} {log : UsageLog}
  {burst : List (LimiterCall ι)}

/-- A burst of requests at one time fills the window up to its limit, and records nothing. -/
theorem Fleet.referenceLog_burst (limited : 0 < rpm) (positive : 0 < window)
    (within : log.requestsAt window now ≤ rpm) (unspent : ¬ (0 < tpm ∧ tpm ≤ log.tokensAt window now))
    (reserves : ∀ c ∈ burst, F.ReservesAt key rpm tpm now c) :
    (F.referenceLog key window log burst).requestsAt window now =
        min rpm (log.requestsAt window now + burst.length) ∧
      (F.referenceLog key window log burst).tokensAt window now = log.tokensAt window now := by
  induction burst generalizing log with
  | nil =>
    refine ⟨?_, rfl⟩
    change log.requestsAt window now = _
    simp only [List.length_nil, Nat.cast_zero]
    omega
  | cons c burst ih =>
    obtain ⟨⟨i, r, t, rfl, limits⟩, others⟩ := List.forall_mem_cons.mp reserves
    have counted := UsageLog.requestsAt_reserve limited positive within unspent
    have spent : (log.reserve window rpm tpm now).2.tokensAt window now = log.tokensAt window now :=
      UsageLog.tokensAt_reserve
    change (F.referenceLog key window (F.referenceCall key window log _).2 burst).requestsAt window now = _ ∧
      (F.referenceLog key window (F.referenceCall key window log _).2 burst).tokensAt window now = _
    rw [Fleet.referenceCall_reserve limits]
    have room : (log.reserve window rpm tpm now).2.requestsAt window now ≤ rpm := by omega
    obtain ⟨requests, tokens⟩ := ih room (spent ▸ unspent) others
    rw [requests, tokens, counted, spent, List.length_cons]
    refine ⟨?_, rfl⟩
    push_cast
    omega

end Burst

namespace UsageLog

variable {log : UsageLog} {lim : RedisLimiter} {rpm tpm now : Int}

/-- An admitted request is told how much room it leaves. -/
theorem remaining_allowed (limited : 0 < rpm) (admitted : log.decision lim.windowMs rpm tpm now = .allowed) :
    (log.reservation lim rpm tpm now).remaining = rpm - (log.requestsAt lim.windowMs now + 1) := by
  have room := (decision_eq_allowed.mp admitted).1
  rw [reservation_allowed (by omega) admitted]
  change clampRemaining rpm (log.requestsAt lim.windowMs now + 1) = _
  rw [clampRemaining_eq limited]
  omega

end UsageLog

/-- What a request is told after an admitted one and a burst, in terms of the log. -/
theorem Fleet.reservation_burst {ι : Type} {F : Fleet ι} {key : KeyInfo} {log : UsageLog} {lim lim' : RedisLimiter}
    {rpm tpm now : Int} {burst : List (LimiterCall ι)} (limited : 0 < rpm) (windows : lim'.windowMs = lim.windowMs)
    (admitted : log.decision lim.windowMs rpm tpm now = .allowed)
    (reserves : ∀ c ∈ burst, F.ReservesAt key rpm tpm now c) :
    let res := log.reservation lim rpm tpm now
    let next := (F.referenceLog key lim.windowMs (log.addRequest rpm now) burst).reservation lim' rpm tpm now
    (burst.length < res.remaining → next.allowed = true ∧ next.remaining = res.remaining - 1 - burst.length) ∧
      (res.remaining ≤ burst.length → next.allowed = false) := by
  intro res next
  have told : res.remaining = rpm - (log.requestsAt lim.windowMs now + 1) :=
    UsageLog.remaining_allowed limited admitted
  obtain ⟨room, unspent⟩ := UsageLog.decision_eq_allowed.mp admitted
  have counted : (log.addRequest rpm now).requestsAt lim.windowMs now = log.requestsAt lim.windowMs now + 1 :=
    UsageLog.requestsAt_addRequest limited lim.windowMs_pos
  have spent : (log.addRequest rpm now).tokensAt lim.windowMs now = log.tokensAt lim.windowMs now :=
    UsageLog.tokensAt_addRequest
  have within : (log.addRequest rpm now).requestsAt lim.windowMs now ≤ rpm := by omega
  obtain ⟨requests, tokens⟩ := Fleet.referenceLog_burst limited lim.windowMs_pos within (spent ▸ unspent) reserves
  rw [counted] at requests
  rw [spent] at tokens
  constructor
  · intro more
    have passes :
        (F.referenceLog key lim.windowMs (log.addRequest rpm now) burst).decision lim'.windowMs rpm tpm now =
          .allowed := by
      rw [windows]
      exact UsageLog.decision_eq_allowed.mpr ⟨by omega, tokens ▸ unspent⟩
    refine ⟨UsageLog.allowed_reservation.mpr passes, (UsageLog.remaining_allowed limited passes).trans ?_⟩
    rw [windows]
    omega
  · intro used
    rw [Bool.eq_false_iff]
    refine mt UsageLog.allowed_reservation.mp fun passes => ?_
    rw [windows] at passes
    have left := (UsageLog.decision_eq_allowed.mp passes).1
    omega

/-- A `Reserve` that is admitted with some number of requests remaining: exactly so
many more with the same stamp are admitted, counting down, and the next is rejected. -/
theorem remaining_is_exact {ι : Type} [DecidableEq ι] (F : Fleet ι) (key : KeyInfo) {window : Int}
    (windowed : ∀ i, (F.limiter i).windowMs = window) (time : Int) {before burst : List (LimiterCall ι)} {i j : ι}
    {r t r' t' now rpm tpm : Int} (ordered : before.Pairwise fun a b => a.stamp ≤ b.stamp)
    (latest : ∀ c ∈ before, c.stamp ≤ now) (limits : F.limits key i r t = (rpm, tpm)) (limited : 0 < rpm)
    {res : Reservation}
    (replied : (F.reserve key (F.after key (F.idle time) before) i r t now).reservation = .ok res)
    (allowed : res.allowed = true) (reserves : ∀ c ∈ burst, F.ReservesAt key rpm tpm now c)
    (limits' : F.limits key j r' t' = (rpm, tpm)) :
    ∃ next, (F.reserve key (F.after key (F.idle time) (before ++ .reserve i r t now :: burst)) j r' t'
        now).reservation = .ok next ∧
      (burst.length < res.remaining → next.allowed = true ∧ next.remaining = res.remaining - 1 - burst.length) ∧
      (res.remaining ≤ burst.length → next.allowed = false) := by
  have stamped : ∀ c ∈ LimiterCall.reserve i r t now :: burst, c.stamp = now := by
    refine List.forall_mem_cons.mpr ⟨rfl, fun c member => ?_⟩
    obtain ⟨_, _, _, rfl, -⟩ := reserves c member
    rfl
  have orderedRun : (before ++ .reserve i r t now :: burst).Pairwise fun a b => a.stamp ≤ b.stamp := by
    refine List.pairwise_append.mpr ⟨ordered, List.pairwise_of_forall_mem_list fun a left b right => ?_,
      fun a left b right => ?_⟩
    · rw [stamped a left, stamped b right]
    · rw [stamped b right]
      exact latest a left
  have latestRun : ∀ c ∈ before ++ .reserve i r t now :: burst, c.stamp ≤ now :=
    List.forall_mem_append.mpr ⟨latest, fun c member => (stamped c member).le⟩
  have said := F.reservation_after key windowed time ordered latest i r t
  have next := F.reservation_after key windowed time orderedRun latestRun j r' t'
  rw [limits] at said
  rw [limits', Fleet.referenceLog_append] at next
  obtain rfl := Except.ok.inj (replied.symm.trans said)
  obtain rfl := windowed i
  have admitted := UsageLog.allowed_reservation.mp allowed
  have counted (log : UsageLog) (admitted : log.decision (F.limiter i).windowMs rpm tpm now = .allowed) :
      F.referenceLog key (F.limiter i).windowMs log (.reserve i r t now :: burst) =
        F.referenceLog key (F.limiter i).windowMs (log.addRequest rpm now) burst := by
    change F.referenceLog key _ (F.referenceCall key _ log _).2 burst = _
    rw [Fleet.referenceCall_reserve limits]
    simp [UsageLog.reserve, admitted]
  rw [counted _ admitted] at next
  exact ⟨_, next, Fleet.reservation_burst limited (windowed j) admitted reserves⟩

/-- Three requests a minute: after the first, two more at once, and no fourth. -/
theorem remaining_is_exact_three :
    let key : KeyInfo := ⟨"k", "o", "", 0, 0, [], none⟩
    let run : List (LimiterCall Bool) := [.reserve true 3 0 5, .reserve false 3 0 5, .reserve true 3 0 5]
    ∃ next, (pairFleet.reserve key (pairFleet.after key (pairFleet.idle 0) run) false 3 0 5).reservation = .ok next ∧
      next.allowed = false := by
  intro key run
  have replied : (pairFleet.reserve key (pairFleet.after key (pairFleet.idle 0) []) true 3 0 5).reservation =
      .ok ⟨true, 3, 2, 60000000000, 0, 0, 60000000000, 0⟩ := by decide +kernel
  have reserves : ∀ c ∈ [LimiterCall.reserve false 3 0 5, LimiterCall.reserve true 3 0 5],
      pairFleet.ReservesAt key 3 0 5 c := by
    simp only [List.forall_mem_cons]
    exact ⟨⟨_, _, _, rfl, rfl⟩, ⟨_, _, _, rfl, rfl⟩, List.forall_mem_nil _⟩
  obtain ⟨next, said, -, rejected⟩ := remaining_is_exact pairFleet key (fun _ => rfl) 0 .nil
    (List.forall_mem_nil _) rfl (by decide) replied rfl reserves (show pairFleet.limits key false 3 0 = (3, 0) from rfl)
  exact ⟨next, said, rejected (by decide)⟩

end LlmGateway
