import LlmGateway.Router.HalfOpen

namespace LlmGateway

namespace Router

variable (r : Router) (address : Nat)

/-- The calls that a step routes to the provider. -/
def routed (s : ProbeState) : ProbeAction → Nat
  | .route req draw => if r.selects address s req draw then 1 else 0
  | _ => 0

/-- The provider fails every call before its client gives up, and has no more than so
many in flight at a time. -/
def Failing (most : Nat) (s : ProbeState) : ProbeAction → Prop
  | .route req draw => r.selects address s req draw = true → s.inFlight.length < most
  | .complete _ outcome => outcome ≠ .success
  | .abandon _ => False
  | _ => True

/-- The calls that have failed or are in flight. -/
def seen (s : ProbeState) : Int := (s.breakers address).consecutiveFails + s.inFlight.length

/-- The way of the breaker of a provider that fails every call. It is closed for less
than its threshold of failures. Once open, it lets calls through again when a cooldown has
passed since the last failure, as many as can be in flight before the first of them
fails: so many for each cooldown since the start. -/
structure Dying (fresh : ProviderHealth) (most : Nat) (since : Int) (s : ProbeState) : Prop where
  threshold : (s.breakers address).failureThreshold = fresh.failureThreshold
  cooldown : (s.breakers address).cooldownPeriod = fresh.cooldownPeriod
  busy : s.inFlight.length ≤ most
  later : since ≤ s.now
  probes : s.probes ≤ s.inFlight.length
  phase :
    (s.breakers address).healthy = true ∧ (s.breakers address).consecutiveFails < fresh.failureThreshold ∧
        s.probes = 0 ∨
      (s.breakers address).healthy = false ∧ ∃ last rounds : Int,
        (s.breakers address).lastFailure = some last ∧ last ≤ s.now ∧
          rounds * fresh.cooldownPeriod ≤ last - since ∧
          seen address s - s.probes ≤ fresh.failureThreshold - 1 + most + most * rounds ∧
          (0 < s.probes → fresh.cooldownPeriod ≤ s.now - last)

variable {r address} {registry : Registry} {cfg : RoutingConfig} {fresh : ProviderHealth} {most : Nat} {since : Int}
  {s t : ProbeState} {a : ProbeAction}

/-- What a step leaves of the breaker and the calls in flight is all that the phase
looks at. -/
theorem Dying.congr (dying : Dying address fresh most since s) (breaker : t.breakers address = s.breakers address)
    (inFlight : t.inFlight = s.inFlight) (probes : t.probes = s.probes) (now : s.now ≤ t.now) :
    Dying address fresh most since t := by
  obtain ⟨threshold, cooldown, busy, later, few, phase⟩ := dying
  refine ⟨breaker ▸ threshold, breaker ▸ cooldown, inFlight ▸ busy, later.trans now, ?_, ?_⟩
  · rw [probes, inFlight]
    exact few
  · rw [breaker, probes, seen, breaker, inFlight]
    rcases phase with closed | ⟨flag, last, rounds, failed, past, apart, bound, cooled⟩
    · exact .inl closed
    · refine .inr ⟨flag, last, rounds, failed, past.trans now, apart, bound, fun probing => ?_⟩
      have := cooled probing
      omega

/-- A call that is routed to an open breaker is one more probe. -/
theorem Dying.route (holds : r.Holds registry cfg) (dying : Dying address fresh most since s)
    {req : Option ChatCompletionRequest} {draw : ℚ} (selected : r.selects address s req draw = true)
    (room : s.inFlight.length < most) (next : r.probeStep address s (.route req draw) = some t) :
    Dying address fresh most since t := by
  obtain ⟨threshold, cooldown, busy, later, few, phase⟩ := dying
  simp only [probeStep, selected, if_true] at next
  cases next
  have fits : s.inFlight.length + 1 ≤ most := room
  rcases phase with ⟨flag, fails, none⟩ | ⟨flag, last, rounds, failed, past, apart, bound, -⟩
  · have closed : (s.breakers address).halfOpen s.now = false := by simp [ProviderHealth.halfOpen, flag]
    exact {
      threshold := threshold
      cooldown := cooldown
      busy := by simpa using fits
      later := later
      probes := by simp [closed, none]
      phase := .inl ⟨flag, fails, by simp [closed, none]⟩ }
  · have halfOpen : (s.breakers address).halfOpen s.now = true := by
      cases req with
      | none => cases selected
      | some req => exact halfOpen_of_selects holds selected flag
    have cooled : fresh.cooldownPeriod ≤ s.now - last := by
      simpa [ProviderHealth.halfOpen, ProviderHealth.cooledDown, flag, failed, cooldown] using halfOpen
    refine ⟨threshold, cooldown, by simpa using fits, later, by simpa [halfOpen] using few,
      .inr ⟨flag, last, rounds, failed, past, apart, ?_, fun _ => cooled⟩⟩
    simp only [seen, halfOpen, if_true, List.length_append, List.length_singleton] at bound ⊢
    omega

/-- What a failure leaves of the breaker and the calls in flight. -/
structure Failed (address : Nat) (s t : ProbeState) : Prop where
  threshold : (t.breakers address).failureThreshold = (s.breakers address).failureThreshold
  cooldown : (t.breakers address).cooldownPeriod = (s.breakers address).cooldownPeriod
  fails : (t.breakers address).consecutiveFails = (s.breakers address).consecutiveFails + 1
  last : (t.breakers address).lastFailure = some s.now
  flag : (t.breakers address).healthy =
    if (s.breakers address).failureThreshold ≤ (s.breakers address).consecutiveFails + 1 then false
    else (s.breakers address).healthy
  inFlight : t.inFlight.length + 1 = s.inFlight.length
  probes : t.probes = 0
  now : t.now = s.now

theorem failed_of_complete {k : Nat} {err : Option CallError}
    (next : r.probeStep address s (.complete k (.failure err)) = some t) : Failed address s t := by
  simp only [probeStep, Option.ite_none_right_eq_some, Option.some.injEq] at next
  obtain ⟨inside, rfl⟩ := next
  have shorter := List.length_eraseIdx_of_lt inside
  constructor
  case inFlight => dsimp only; omega
  all_goals simp [HealthRecord.apply, ProviderHealth.recordFailure]

/-- A failure ends the round of the probes before it. -/
theorem Dying.failed (dying : Dying address fresh most since s) (failed : Failed address s t) :
    Dying address fresh most since t := by
  obtain ⟨threshold, cooldown, busy, later, few, phase⟩ := dying
  have flag := failed.flag
  have fails := failed.fails
  have shorter := failed.inFlight
  have now := failed.now
  rw [threshold] at flag
  refine ⟨failed.threshold.trans threshold, failed.cooldown.trans cooldown, by omega, now ▸ later, ?_, ?_⟩
  · rw [failed.probes]
    exact Nat.zero_le _
  rw [failed.probes, failed.last, seen]
  rcases phase with ⟨closed, below, none⟩ | ⟨opened, last, rounds, failure, past, apart, bound, cooled⟩
  · by_cases reached : fresh.failureThreshold ≤ (s.breakers address).consecutiveFails + 1
    · rw [if_pos reached] at flag
      exact .inr ⟨flag, s.now, 0, rfl, by omega, by omega, by omega, nofun⟩
    · rw [if_neg reached] at flag
      exact .inl ⟨flag.trans closed, by omega, rfl⟩
  · rw [opened, ite_self] at flag
    rw [seen] at bound
    rcases Nat.eq_zero_or_pos s.probes with none | probing
    · exact .inr ⟨flag, s.now, rounds, rfl, by omega, by omega, by omega, nofun⟩
    · have spent := cooled probing
      have more : (rounds + 1) * fresh.cooldownPeriod = rounds * fresh.cooldownPeriod + fresh.cooldownPeriod := by ring
      have share : (most : Int) * (rounds + 1) = most * rounds + most := by ring
      exact .inr ⟨flag, s.now, rounds + 1, rfl, by omega, by omega, by omega, nofun⟩

theorem Dying.step (holds : r.Holds registry cfg) (failing : r.Failing address most s a)
    (dying : Dying address fresh most since s) (next : r.probeStep address s a = some t) :
    Dying address fresh most since t := by
  cases a with
  | route req draw =>
    cases selected : r.selects address s req draw with
    | true => exact dying.route holds selected (failing selected) next
    | false =>
      simp only [probeStep, selected, Bool.false_eq_true, if_false] at next
      cases next
      exact dying.congr rfl rfl rfl (Int.le_refl _)
  | complete k outcome =>
    cases outcome with
    | success => exact absurd rfl failing
    | failure err => exact dying.failed (failed_of_complete next)
  | abandon k => exact failing.elim
  | otherOutcome other outcome =>
    simp only [probeStep, Option.ite_none_left_eq_some, Option.some.injEq] at next
    obtain ⟨apart, rfl⟩ := next
    exact dying.congr (Function.update_of_ne (Ne.symm apart) _ _) rfl rfl (Int.le_refl _)
  | strategies st =>
    cases next
    exact dying.congr rfl rfl rfl (Int.le_refl _)
  | clock time =>
    simp only [probeStep, Option.ite_none_right_eq_some, Option.some.injEq] at next
    obtain ⟨later, rfl⟩ := next
    exact dying.congr rfl rfl rfl later

end Router

end LlmGateway
