import Mathlib.Logic.Function.Basic
import LlmGateway.Lib.Transition
import LlmGateway.Provider.Decorator

namespace LlmGateway

/-- What the call passes to `metrics.SetProviderHealth`: `recordHealthFailure`
passes on what `RecordFailure` returned. -/
def HealthRecord.flag (h : ProviderHealth) (now : Int) : HealthRecord → Bool
  | .success => true
  | .failure err => (h.recordFailure now (err.map CallError.error)).1

/-- The flag is the one the record leaves behind. -/
theorem HealthRecord.healthy_apply (r : HealthRecord) (h : ProviderHealth) (now : Int) :
    (r.apply h now).healthy = r.flag h now := by
  cases r <;> rfl

/-- The breaker of one provider and its gauge. The calls of `recordHealthSuccess`
and `recordHealthFailure` are numbered in the order in which they take the lock;
`pending` holds what those have yet to write that have released it. -/
structure GaugeState where
  health : ProviderHealth
  gauge : Bool
  issued : Nat
  pending : Nat → Option Bool

inductive GaugeAction where
  | record (r : HealthRecord) (now : Int)
  | setGauge (call : Nat)

namespace GaugeState

/-- `buildProviders` sets the gauge of a new provider. -/
def start (cfg : HealthConfig) : GaugeState := ⟨newProviderHealth cfg, true, 0, fun _ => none⟩

def step (s : GaugeState) : GaugeAction → Option GaugeState
  | .record r now =>
    some ⟨r.apply s.health now, s.gauge, s.issued + 1,
      Function.update s.pending s.issued (some (r.flag s.health now))⟩
  | .setGauge call =>
    (s.pending call).map fun flag => { s with gauge := flag, pending := Function.update s.pending call none }

/-- No call is in progress. -/
def Idle (s : GaugeState) : Prop := ∀ call, s.pending call = none

/-- The call that recorded last has yet to write the gauge. -/
def LastPending (s : GaugeState) : Prop := ∃ call flag, call + 1 = s.issued ∧ s.pending call = some flag

/-- A call writes the gauge only while the write of the call that recorded last
is still to come, be it its own, or if it writes what the breaker says. -/
def InOrder (s : GaugeState) : GaugeAction → Prop
  | .record _ _ => True
  | .setGauge call => s.LastPending ∨ s.pending call = some s.health.healthy

/-- The last call to record writes what the breaker says, and once it has, the
gauge says the same. -/
structure Follows (s : GaugeState) : Prop where
  numbered : ∀ call, s.issued ≤ call → s.pending call = none
  latest : ∀ call flag, call + 1 = s.issued → s.pending call = some flag → flag = s.health.healthy
  settled : ¬ s.LastPending → s.gauge = s.health.healthy

theorem follows_start (cfg : HealthConfig) : (start cfg).Follows :=
  ⟨fun _ _ => rfl, nofun, fun _ => rfl⟩

variable {s t : GaugeState}

theorem Follows.record (held : s.Follows) (r : HealthRecord) (now : Int)
    (next : step s (.record r now) = some t) : t.Follows := by
  cases next
  refine ⟨?_, ?_, ?_⟩
  · intro call later
    have other : call ≠ s.issued := fun same => absurd later (by simp [same])
    show Function.update s.pending s.issued _ call = none
    rw [Function.update_of_ne other]
    exact held.numbered call (Nat.le_of_succ_le later)
  · intro call flag last pending
    obtain rfl : call = s.issued := Nat.succ.inj last
    have same := (Function.update_self s.issued _ s.pending).symm.trans pending
    rw [r.healthy_apply]
    exact (Option.some.inj same).symm
  · intro idle
    exact absurd ⟨s.issued, r.flag s.health now, rfl, Function.update_self ..⟩ idle

theorem Follows.setGauge (held : s.Follows) {call : Nat} (ordered : s.InOrder (.setGauge call))
    (next : step s (.setGauge call) = some t) : t.Follows := by
  obtain ⟨flag, pending, rfl⟩ := Option.map_eq_some_iff.mp next
  refine ⟨?_, ?_, ?_⟩
  · intro other later
    by_cases same : other = call
    · exact same ▸ Function.update_self ..
    · exact (Function.update_of_ne same ..).trans (held.numbered other later)
  · intro other flag' last pending'
    by_cases same : other = call
    · subst same
      exact nomatch (Function.update_self ..).symm.trans pending'
    · exact held.latest other flag' last ((Function.update_of_ne same ..).symm.trans pending')
  · intro idle
    rcases ordered with ⟨newest, flag', last, waiting⟩ | same
    · by_cases own : newest = call
      · subst own
        exact held.latest newest flag last pending
      · exact absurd ⟨newest, flag', last, (Function.update_of_ne own ..).trans waiting⟩ idle
    · exact Option.some.inj (pending.symm.trans same)

theorem Follows.step {a : GaugeAction} (held : s.Follows) (ordered : s.InOrder a)
    (next : GaugeState.step s a = some t) : t.Follows := by
  cases a with
  | record r now => exact held.record r now next
  | setGauge call => exact held.setGauge ordered next

/-- Whenever no call is in progress, the gauge of a provider shows the flag of its
breaker, as long as no call overwrites what a later one has written. -/
theorem gauge_converges {cfg : HealthConfig} {actions : List GaugeAction} {s : GaugeState}
    (ordered : Transition.Guarded step InOrder (start cfg) actions)
    (run : Transition.run step (start cfg) actions = some s) (idle : s.Idle) : s.gauge = s.health.healthy := by
  have held : s.Follows :=
    Transition.guarded_invariant (fun _ _ _ ok held next => held.step ok next) (follows_start cfg) ordered run
  refine held.settled ?_
  rintro ⟨call, flag, -, pending⟩
  exact nomatch (idle call).symm.trans pending

/-- A breaker that trips at the first failure. -/
def tripping : HealthConfig := ⟨1, 0⟩

/-- A success, the failure that trips the breaker and another failure, all three in
progress at once; the write of the first failure comes last. -/
def overlapping : List GaugeAction :=
  [.record .success 0, .record (.failure none) 1, .setGauge 0, .record (.failure none) 2, .setGauge 2, .setGauge 1]

theorem gauge_converges_tripped :
    ∃ s, Transition.run step (start tripping) overlapping = some s ∧ s.health.healthy = false ∧
      s.gauge = s.health.healthy := by
  obtain ⟨s, taken⟩ : ∃ s, Transition.run step (start tripping) overlapping = some s := ⟨_, rfl⟩
  have ordered : Transition.Guarded step InOrder (start tripping) overlapping :=
    .cons trivial rfl <| .cons trivial rfl <| .cons (.inl ⟨1, false, rfl, rfl⟩) rfl <| .cons trivial rfl <|
      .cons (.inl ⟨2, false, rfl, rfl⟩) rfl <| .cons (.inr rfl) rfl trivial
  refine ⟨s, taken, ?_, gauge_converges ordered taken ?_⟩
  · cases taken
    rfl
  · cases taken
    intro call
    rcases call with _ | _ | _ | call <;> rfl

/-- A failure trips the breaker and a success heals it, but the failure's call
writes the gauge last. -/
theorem gauge_stuck :
    ∃ s, Transition.run step (start tripping)
        [.record (.failure none) 0, .record .success 1, .setGauge 1, .setGauge 0] = some s ∧
      s.Idle ∧ s.health.healthy = true ∧ s.gauge = false := by
  refine ⟨_, rfl, fun call => ?_, rfl, rfl⟩
  rcases call with _ | _ | call
  · rfl
  · rfl
  · rfl

end GaugeState

end LlmGateway
