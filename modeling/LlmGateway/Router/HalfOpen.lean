import LlmGateway.Lib.Transition
import LlmGateway.Provider.Decorator
import LlmGateway.Router.Exact

namespace LlmGateway

/-- Calls routed to one provider, seen from its breaker. A call in flight is
marked `true` when it was routed while the breaker was half-open; since the last
outcome was recorded, `probes` of those were routed and `unrecorded` of them ended
without an outcome. -/
structure ProbeState where
  breakers : Breakers
  strategies : StrategyState
  now : Int
  inFlight : List Bool
  probes : Nat
  unrecorded : Nat

/-- What happens around one provider. A call completes with an outcome, or its client
abandons it and nothing is recorded: during a backoff, or while a stream is forwarded.
The strategies learn latencies in between. -/
inductive ProbeAction where
  | route (req : Option ChatCompletionRequest) (draw : ℚ)
  | complete (k : Nat) (outcome : HealthRecord)
  | abandon (k : Nat)
  | otherOutcome (address : Nat) (outcome : HealthRecord)
  | strategies (st : StrategyState)
  | clock (time : Int)

namespace Router

variable (r : Router) (address : Nat)

/-- `Route` returns the provider with the breaker at the address. -/
def selects (s : ProbeState) (req : Option ChatCompletionRequest) (draw : ℚ) : Bool :=
  match (r.route s.breakers s.now s.strategies draw req).1 with
  | .ok (p, _) => healthFor p = some address
  | .error _ => false

def probeStep (s : ProbeState) : ProbeAction → Option ProbeState
  | .route req draw =>
    let st := (r.route s.breakers s.now s.strategies draw req).2
    if r.selects address s req draw then
      let probe := (s.breakers address).halfOpen s.now
      some { s with
        strategies := st, inFlight := s.inFlight ++ [probe], probes := if probe then s.probes + 1 else s.probes }
    else some { s with strategies := st }
  | .complete k outcome =>
    if k < s.inFlight.length then
      some { s with
        breakers := Function.update s.breakers address (outcome.apply (s.breakers address) s.now)
        inFlight := s.inFlight.eraseIdx k
        probes := 0
        unrecorded := 0 }
    else none
  | .abandon k =>
    match s.inFlight[k]? with
    | none => none
    | some probe =>
      some { s with
        inFlight := s.inFlight.eraseIdx k
        unrecorded := if probe then s.unrecorded + 1 else s.unrecorded }
  | .otherOutcome other outcome =>
    if other = address then none
    else some { s with breakers := Function.update s.breakers other (outcome.apply (s.breakers other) s.now) }
  | .strategies st => some { s with strategies := st }
  | .clock time => if s.now ≤ time then some { s with now := time } else none

def probeStart (breakers : Breakers) (strategies : StrategyState) (now : Int) : ProbeState :=
  ⟨breakers, strategies, now, [], 0, 0⟩

/-- A candidate for the requested name has the breaker at the address. -/
def offers (model : String) : Bool :=
  match r.resolveCandidates model with
  | .ok (_, candidates) => candidates.any fun c => healthFor c.provider = some address
  | .error _ => false

/-- While the breaker is half-open, a model that the provider is a candidate for
is only requested when no call that was routed to it half-open is in flight, nor has
ended without an outcome since the last one was recorded. -/
def ProbesAlone (s : ProbeState) : ProbeAction → Prop
  | .route (some req) _ => (s.breakers address).halfOpen s.now = true → r.offers address req.model = true →
      true ∉ s.inFlight ∧ s.unrecorded = 0
  | _ => True

variable {r address}

/-- A provider that is selected although its flag is off is half-open. -/
theorem halfOpen_of_selects {registry : Registry} {cfg : RoutingConfig} (holds : r.Holds registry cfg)
    {s : ProbeState} {req : ChatCompletionRequest} {draw : ℚ} (selected : r.selects address s (some req) draw = true)
    (flag : (s.breakers address).healthy = false) : (s.breakers address).halfOpen s.now = true := by
  unfold selects at selected
  split at selected
  · rename_i p d out
    obtain ⟨_, _, _, admitted, _⟩ := route_ok _ _ _ _ _ holds out
    simp only [decide_eq_true_eq] at selected
    simpa [Breakers.admits, selected, ProviderHealth.isHealthy, ProviderHealth.halfOpen, flag] using admitted
  · cases selected

/-- `Route` selects among the candidates. -/
theorem offers_of_selects {s : ProbeState} {req : ChatCompletionRequest} {draw : ℚ}
    (selected : r.selects address s (some req) draw = true) : r.offers address req.model = true := by
  unfold selects at selected
  unfold offers
  cases resolved : r.resolveCandidates req.model with
  | error err => simp [route, resolved] at selected
  | ok found =>
    obtain ⟨group, cs⟩ := found
    by_cases empty : (cs.filter fun c => s.breakers.admits s.now c.provider) = []
    · simp [route_of_none_admitted s.breakers s.now s.strategies draw req resolved empty] at selected
    · obtain ⟨c, inside, _, _, out⟩ := route_of_admitted s.breakers s.now s.strategies draw req resolved empty
      rw [out] at selected
      exact List.any_eq_true.mpr ⟨c, inside, selected⟩

/-- Every probe since the last outcome is still in flight or ended without one, and
there is at most one. -/
def OneProbe (s : ProbeState) : Prop := s.probes ≤ s.inFlight.count true + s.unrecorded ∧ s.probes ≤ 1

/-- A call that is abandoned is no longer in flight, but a probe stays in the account. -/
theorem count_abandon {calls : List Bool} {k : Nat} {probe : Bool} (at_ : calls[k]? = some probe) (unrecorded : Nat) :
    (calls.eraseIdx k).count true + (if probe then unrecorded + 1 else unrecorded) =
      calls.count true + unrecorded := by
  obtain ⟨inside, rfl⟩ := List.getElem?_eq_some_iff.mp at_
  have parted := (List.getElem_cons_eraseIdx_perm inside).count_eq true
  rw [List.count_cons] at parted
  cases call : calls[k] with
  | false => simpa [call] using parted
  | true =>
    simp only [call, BEq.rfl, if_true] at parted ⊢
    omega

theorem OneProbe.step {s t : ProbeState} {a : ProbeAction} (alone : r.ProbesAlone address s a) (held : OneProbe s)
    (taken : r.probeStep address s a = some t) : OneProbe t := by
  obtain ⟨counted, single⟩ := held
  cases a with
  | route req draw =>
    simp only [probeStep] at taken
    split at taken
    · rename_i selected
      cases taken
      cases probe : (s.breakers address).halfOpen s.now with
      | false => simpa [OneProbe, List.count_append] using ⟨counted, single⟩
      | true =>
        cases req with
        | none => simp [selects, route] at selected
        | some req =>
          obtain ⟨landed, recorded⟩ := alone probe (offers_of_selects selected)
          have none : s.inFlight.count true = 0 := List.count_eq_zero.mpr landed
          simp only [OneProbe, if_true, List.count_append, List.count_singleton_self]
          omega
    · cases taken
      exact ⟨counted, single⟩
  | complete k outcome =>
    simp only [probeStep, Option.ite_none_right_eq_some, Option.some.injEq] at taken
    obtain ⟨_, rfl⟩ := taken
    exact ⟨Nat.zero_le _, Nat.zero_le _⟩
  | abandon k =>
    simp only [probeStep] at taken
    split at taken
    · cases taken
    · rename_i probe at_
      cases taken
      exact ⟨counted.trans (count_abandon at_ s.unrecorded).ge, single⟩
  | otherOutcome other outcome =>
    simp only [probeStep, Option.ite_none_left_eq_some, Option.some.injEq] at taken
    obtain ⟨_, rfl⟩ := taken
    exact ⟨counted, single⟩
  | strategies st =>
    cases taken
    exact ⟨counted, single⟩
  | clock time =>
    simp only [probeStep, Option.ite_none_right_eq_some, Option.some.injEq] at taken
    obtain ⟨_, rfl⟩ := taken
    exact ⟨counted, single⟩

/-- At most one call is routed to a half-open provider before the next outcome
is recorded, as long as probes do not overlap. -/
theorem one_probe_of_probes_alone (r : Router) (address : Nat) (breakers : Breakers) (strategies : StrategyState)
    (now : Int) {actions : List ProbeAction} {final : ProbeState}
    (alone : Transition.Guarded (r.probeStep address) (r.ProbesAlone address)
      (probeStart breakers strategies now) actions)
    (taken : Transition.run (r.probeStep address) (probeStart breakers strategies now) actions = some final) :
    final.probes ≤ 1 :=
  (Transition.guarded_invariant (fun _ _ _ ok held next => OneProbe.step ok held next)
    ⟨Nat.zero_le _, Nat.zero_le _⟩ alone taken).2

end Router

/-- One tracked provider with one model. -/
def trackedProvider : Provider := ⟨"openai", ["gpt-4o"], some ⟨0, 0, 0⟩⟩

def trackedRouter : Router := ⟨Registry.empty.register trackedProvider ["gpt-4o"], ∅, ∅, .priority, ∅⟩

def askTracked : ProbeAction := .route (some ⟨"gpt-4o", [], none⟩) 0

/-- A breaker that opens at the first failure, for ten nanoseconds. -/
def touchyBreakers : Breakers := fun _ => newProviderHealth ⟨1, 10⟩

/-- The client of the first probe leaves it without an outcome. The next one is routed
when the call from before the cooldown has failed too, and another cooldown is over. -/
def probingRun : List ProbeAction :=
  [askTracked, askTracked, .complete 0 (.failure none), .clock 10, askTracked, .abandon 1, .complete 0 (.failure none),
    .clock 20, askTracked]

theorem one_probe_tracked :
    ∃ final, Transition.run (trackedRouter.probeStep 0) (Router.probeStart touchyBreakers .fresh 0) probingRun =
      some final ∧ final.inFlight = [true] ∧ final.probes ≤ 1 := by
  have taken : Transition.run (trackedRouter.probeStep 0) (Router.probeStart touchyBreakers .fresh 0) probingRun =
      some _ := rfl
  have alone : Transition.Guarded (trackedRouter.probeStep 0) (trackedRouter.ProbesAlone 0)
      (Router.probeStart touchyBreakers .fresh 0) probingRun :=
    .cons (fun _ _ => ⟨by decide, rfl⟩) rfl <| .cons (fun _ _ => ⟨by decide, rfl⟩) rfl <| .cons trivial rfl <|
      .cons trivial rfl <| .cons (fun _ _ => ⟨by decide, rfl⟩) rfl <| .cons trivial rfl <| .cons trivial rfl <|
      .cons trivial rfl <| .cons (fun _ _ => ⟨by decide, rfl⟩) rfl trivial
  exact ⟨_, taken, rfl, trackedRouter.one_probe_of_probes_alone 0 touchyBreakers .fresh 0 alone taken⟩

/-- Nothing marks the first probe, so a second request is routed to the half-open
provider as well. -/
theorem two_probes_routed :
    newRouter (Registry.empty.register trackedProvider ["gpt-4o"]) ⟨"priority", 3, ∅, ∅⟩ ∅ = .ok trackedRouter ∧
    (Transition.run (trackedRouter.probeStep 0) (Router.probeStart touchyBreakers .fresh 0)
      [askTracked, .complete 0 (.failure none), .clock 10, askTracked, askTracked]).map ProbeState.probes =
        some 2 := ⟨rfl, rfl⟩

end LlmGateway
