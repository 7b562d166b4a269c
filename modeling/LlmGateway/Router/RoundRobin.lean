import LlmGateway.Lib.Transition
import LlmGateway.Router.Strategy

namespace LlmGateway

/-- The counters after a pick for the group. -/
def Counters.advance (counters : Counters) (group : String) : Counters :=
  Function.update counters group (counters group + 1)

theorem Counters.advance_ne (counters : Counters) (group : String) : counters.advance group ≠ counters := by
  intro same
  have stuck := congrFun same group
  rw [advance, Function.update_self, UInt64.add_eq_left] at stuck
  exact absurd stuck (by decide)

theorem selectRoundRobin_eq {candidates : List Candidate} (filled : candidates ≠ []) (counters : Counters)
    (group : String) : selectRoundRobin counters candidates group =
      (indexed candidates ((counters group).toNat % candidates.length), counters.advance group) :=
  if_neg fun empty => filled (List.length_eq_zero_iff.mp empty)

/-- Where a call of `Select` stands: before the lookup of its counter, with a fresh
counter after a miss, with the counter of its group, with the value it took. -/
inductive SelectPC where
  | entered
  | storing (fresh : Nat)
  | adding (counter : Nat)
  | returned (idx : UInt64)
  | failed
deriving DecidableEq, Repr

structure SelectCall where
  candidates : List Candidate
  group : String
  pc : SelectPC
deriving DecidableEq

namespace SelectCall

/-- The value the call took from its counter. -/
def idx (call : SelectCall) : Option UInt64 :=
  match call.pc with
  | .returned idx => some idx
  | _ => none

/-- The index the call returns the candidate of. -/
def index (call : SelectCall) : Option Nat := call.idx.map fun idx => idx.toNat % call.candidates.length

def result (call : SelectCall) : Option (Except String Candidate) :=
  match call.pc with
  | .returned idx => some (indexed call.candidates (idx.toNat % call.candidates.length))
  | .failed => some (.error "round_robin: empty candidate list")
  | _ => none

end SelectCall

/-- A `RoundRobin`: the counter of each group by its address and the values of
the allocated counters. Beside it stand its calls, and for each group those that
have made their increment, in that order. -/
structure RoundRobin where
  counters : String → Option Nat
  values : Nat → UInt64
  allocated : Nat
  calls : List SelectCall
  order : String → List Nat

inductive SelectAction where
  | enter (candidates : List Candidate) (group : String)
  | move (call : Nat)

namespace RoundRobin

open Transition (Moves moves_set moves_concat)

def start : RoundRobin := ⟨fun _ => none, fun _ => 0, 0, [], fun _ => []⟩

/-- The next atomic step of a call: `Load`, `LoadOrStore` after a miss, `Add`. -/
def move (s : RoundRobin) (i : Nat) (call : SelectCall) : Option RoundRobin :=
  let goto (pc : SelectPC) := s.calls.set i { call with pc := pc }
  match call.pc with
  | .entered =>
    if call.candidates.length = 0 then some { s with calls := goto .failed }
    else match s.counters call.group with
      | some counter => some { s with calls := goto (.adding counter) }
      | none => some { s with
          values := Function.update s.values s.allocated 0
          allocated := s.allocated + 1
          calls := goto (.storing s.allocated) }
  | .storing fresh =>
    match s.counters call.group with
    | some actual => some { s with calls := goto (.adding actual) }
    | none => some { s with
        counters := Function.update s.counters call.group (some fresh)
        calls := goto (.adding fresh) }
  | .adding counter =>
    let value := s.values counter + 1
    some { s with
      values := Function.update s.values counter value
      calls := goto (.returned (value - 1))
      order := Function.update s.order call.group (s.order call.group ++ [i]) }
  | .returned _ | .failed => none

def step (s : RoundRobin) : SelectAction → Option RoundRobin
  | .enter candidates group => some { s with calls := s.calls ++ [⟨candidates, group, .entered⟩] }
  | .move i => s.calls[i]?.bind (s.move i)

/-- The counters as the calls see them: one that is missing is about to be stored
with the value zero. -/
def abs (s : RoundRobin) : Counters := fun group => ((s.counters group).map s.values).getD 0

/-- What a call has found: a fresh counter is nobody else's and still zero, and the
counter to add to is the one of the group. -/
def Ready (s : RoundRobin) (call : SelectCall) : Prop :=
  match call.pc with
  | .entered => True
  | .failed => call.candidates = []
  | .storing fresh => call.candidates ≠ [] ∧ fresh < s.allocated ∧ s.values fresh = 0 ∧ ∀ g, s.counters g ≠ some fresh
  | .adding counter => call.candidates ≠ [] ∧ s.counters call.group = some counter
  | .returned _ => call.candidates ≠ []

/-- The call has allocated the counter and not yet stored it. -/
def Brings (s : RoundRobin) (i a : Nat) : Prop := ∃ call, s.calls[i]? = some call ∧ call.pc = .storing a

structure Sound (s : RoundRobin) : Prop where
  ready : ∀ (i : Nat) call, s.calls[i]? = some call → s.Ready call
  fresh : ∀ i j a, s.Brings i a → s.Brings j a → i = j
  held : ∀ g a, s.counters g = some a → a < s.allocated
  apart : ∀ g h a, s.counters g = some a → s.counters h = some a → g = h

theorem sound_start : start.Sound where
  ready := by simp [start]
  fresh := by simp [start, Brings]
  held := by simp [start]
  apart := by simp [start]

/-- A step that no other call can tell: the counters have their values and the
calls that have returned are the same. -/
structure Keeps (s t : RoundRobin) : Prop where
  abs : t.abs = s.abs
  order : t.order = s.order
  returned : ∀ (i : Nat) call, call.idx.isSome → (t.calls[i]? = some call ↔ s.calls[i]? = some call)

/-- A step that is a whole `Select` on the counters. -/
structure Adds (s t : RoundRobin) (i : Nat) (call : SelectCall) : Prop where
  pending : s.calls[i]? = some call ∧ call.idx = none
  filled : call.candidates ≠ []
  moves : Moves s.calls t.calls i { call with pc := .returned (s.abs call.group) }
  abs : t.abs = s.abs.advance call.group
  order : t.order = Function.update s.order call.group (s.order call.group ++ [i])

variable {s t : RoundRobin}

section Step

variable {i : Nat} {call after : SelectCall}

theorem returned_of_moves (moves : Moves s.calls t.calls i after)
    (pending : ∀ old, s.calls[i]? = some old → old.idx = none) (unreturned : after.idx = none) (j : Nat)
    (call : SelectCall) (returned : call.idx.isSome) : t.calls[j]? = some call ↔ s.calls[j]? = some call := by
  by_cases same : j = i
  · subst same
    rw [moves.here]
    constructor
    · rintro ⟨⟩
      rw [unreturned] at returned
      cases returned
    · intro at_
      rw [pending call at_] at returned
      cases returned
  · rw [moves.others j same]

/-- A fresh counter of a call that did not move was its own before. -/
theorem brings_of_moves (moves : Moves s.calls t.calls i after) {j a : Nat} (brings : t.Brings j a) :
    j = i ∧ after.pc = .storing a ∨ j ≠ i ∧ s.Brings j a :=
  (moves.exists_iff j).mp brings

variable (sound : s.Sound)
include sound

/-- A step that moves one call to a place where it brings no counter. -/
theorem Sound.fresh_of_moves (moves : Moves s.calls t.calls i after) (unstored : ∀ a, after.pc ≠ .storing a)
    (j k a : Nat) (first : t.Brings j a) (second : t.Brings k a) : j = k := by
  rcases brings_of_moves moves first with ⟨_, stored⟩ | ⟨_, first⟩
  · exact absurd stored (unstored a)
  · rcases brings_of_moves moves second with ⟨_, stored⟩ | ⟨_, second⟩
    · exact absurd stored (unstored a)
    · exact sound.fresh j k a first second

/-- A step that changes nothing but the place of one call, which does not return. -/
theorem Sound.quiet {calls : List SelectCall} (moves : Moves s.calls calls i after)
    (pending : ∀ old, s.calls[i]? = some old → old.idx = none) (ready : s.Ready after)
    (unstored : ∀ a, after.pc ≠ .storing a) (unreturned : after.idx = none) :
    ({ s with calls := calls } : RoundRobin).Sound ∧ s.Keeps { s with calls := calls } where
  left :=
    { ready := moves.all ready fun j other _ at_ => sound.ready j other at_
      fresh := sound.fresh_of_moves moves unstored
      held := sound.held
      apart := sound.apart }
  right := ⟨rfl, rfl, returned_of_moves moves pending unreturned⟩

/-- The next place of the call is neither a fresh counter nor a result. -/
theorem Sound.goto (pc : SelectPC) (at_ : s.calls[i]? = some call) (pending : call.idx = none)
    (ready : s.Ready { call with pc := pc }) (unstored : ∀ a, pc ≠ .storing a)
    (unreturned : ∀ idx, pc ≠ .returned idx) :
    ({ s with calls := s.calls.set i { call with pc := pc } } : RoundRobin).Sound ∧
      s.Keeps { s with calls := s.calls.set i { call with pc := pc } } := by
  refine sound.quiet (moves_set at_) (fun old there => ?_) ready unstored ?_
  · cases Option.some.inj (at_.symm.trans there)
    exact pending
  · cases pc with
    | returned idx => exact absurd rfl (unreturned idx)
    | _ => rfl

theorem Sound.miss (at_ : s.calls[i]? = some call) (place : call.pc = .entered) (filled : call.candidates ≠ []) :
    let t : RoundRobin := { s with
      values := Function.update s.values s.allocated 0
      allocated := s.allocated + 1
      calls := s.calls.set i { call with pc := .storing s.allocated } }
    t.Sound ∧ s.Keeps t := by
  intro t
  have moves : Moves s.calls t.calls i { call with pc := .storing s.allocated } := moves_set at_
  have unused (a : Nat) (used : a < s.allocated) : t.values a = s.values a :=
    Function.update_of_ne (Nat.ne_of_lt used) 0 s.values
  have old (j : Nat) (a : Nat) (brings : s.Brings j a) : a < s.allocated := by
    obtain ⟨other, there, stored⟩ := brings
    have ready := sound.ready j other there
    rw [Ready, stored] at ready
    exact ready.2.1
  have kept (q : SelectCall) (ready : s.Ready q) : t.Ready q := by
    rcases q with ⟨candidates, group, pc⟩
    cases pc with
    | storing a =>
      obtain ⟨filled, used, zero, free⟩ := ready
      exact ⟨filled, Nat.lt_succ_of_lt used, (unused a used).trans zero, free⟩
    | _ => exact ready
  refine ⟨⟨?_, ?_, ?_, sound.apart⟩, ⟨?_, rfl, ?_⟩⟩
  · refine moves.all ⟨filled, Nat.lt_succ_self _, Function.update_self .., ?_⟩ ?_
    · intro g used
      exact absurd (sound.held g _ used) (Nat.lt_irrefl _)
    · exact fun j other _ there => kept other (sound.ready j other there)
  · intro j k a first second
    rcases brings_of_moves moves first with ⟨rfl, new⟩ | ⟨_, before⟩ <;>
      rcases brings_of_moves moves second with ⟨rfl, new'⟩ | ⟨_, before'⟩
    · rfl
    · cases new
      exact absurd (old k _ before') (Nat.lt_irrefl _)
    · cases new'
      exact absurd (old j _ before) (Nat.lt_irrefl _)
    · exact sound.fresh j k a before before'
  · intro g a used
    exact Nat.lt_succ_of_lt (sound.held g a used)
  · funext g
    cases counter : s.counters g with
    | none => simp [abs, t, counter]
    | some a => simpa [abs, t, counter] using unused a (sound.held g a counter)
  · refine returned_of_moves moves (fun old there => ?_) rfl
    cases Option.some.inj (at_.symm.trans there)
    simp [SelectCall.idx, place]

/-- A counter stored for a group that had none: it is allocated and no other
group's. -/
theorem Sound.store_counters {a : Nat} {group : String} (used : a < s.allocated)
    (free : ∀ g, s.counters g ≠ some a) :
    (∀ g b, Function.update s.counters group (some a) g = some b → b < s.allocated) ∧
    ∀ g h b, Function.update s.counters group (some a) g = some b →
      Function.update s.counters group (some a) h = some b → g = h := by
  have found (g : String) (b : Nat) (stored : Function.update s.counters group (some a) g = some b) :
      g = group ∧ b = a ∨ b ≠ a ∧ s.counters g = some b := by
    by_cases own : g = group
    · rw [own, Function.update_self] at stored
      exact .inl ⟨own, (Option.some.inj stored).symm⟩
    · rw [Function.update_of_ne own] at stored
      refine .inr ⟨?_, stored⟩
      rintro rfl
      exact free g stored
  constructor
  · intro g b stored
    rcases found g b stored with ⟨_, rfl⟩ | ⟨_, old⟩
    · exact used
    · exact sound.held g b old
  · intro g h b first second
    rcases found g b first with ⟨rfl, same⟩ | ⟨other, old⟩ <;>
      rcases found h b second with ⟨rfl, same'⟩ | ⟨other', old'⟩
    · rfl
    · exact absurd same other'
    · exact absurd same' other
    · exact sound.apart g h b old old'

theorem Sound.store {a : Nat} (at_ : s.calls[i]? = some call) (place : call.pc = .storing a)
    (missing : s.counters call.group = none) :
    let t : RoundRobin := { s with
      counters := Function.update s.counters call.group (some a)
      calls := s.calls.set i { call with pc := .adding a } }
    t.Sound ∧ s.Keeps t := by
  intro t
  have moves : Moves s.calls t.calls i { call with pc := .adding a } := moves_set at_
  obtain ⟨filled, used, zero, free⟩ : call.candidates ≠ [] ∧ a < s.allocated ∧ s.values a = 0 ∧
      ∀ g, s.counters g ≠ some a := by
    have ready := sound.ready i call at_
    rwa [Ready, place] at ready
  have here : t.counters call.group = some a := Function.update_self ..
  have there (g : String) (other : g ≠ call.group) : t.counters g = s.counters g := Function.update_of_ne other ..
  have kept (j : Nat) (q : SelectCall) (other : j ≠ i) (atJ : s.calls[j]? = some q) : t.Ready q := by
    have ready := sound.ready j q atJ
    rcases q with ⟨candidates, group, pc⟩
    cases pc with
    | storing b =>
      obtain ⟨filled, used, zero, free⟩ := ready
      refine ⟨filled, used, zero, fun g same => ?_⟩
      by_cases own : g = call.group
      · rw [own, here] at same
        cases same
        exact other (sound.fresh j i a ⟨_, atJ, rfl⟩ ⟨_, at_, place⟩)
      · exact free g (there g own ▸ same)
    | adding b =>
      refine ⟨ready.1, ?_⟩
      by_cases own : group = call.group
      · have found : s.counters group = some b := ready.2
        rw [own, missing] at found
        cases found
      · exact (there group own).trans ready.2
    | _ => exact ready
  obtain ⟨held, apart⟩ := sound.store_counters used free
  refine ⟨⟨moves.all ⟨filled, here⟩ kept, sound.fresh_of_moves moves nofun, held, apart⟩, ⟨?_, rfl, ?_⟩⟩
  · funext g
    by_cases own : g = call.group
    · simp [abs, own, missing, zero, t]
    · change ((t.counters g).map s.values).getD 0 = s.abs g
      rw [there g own]
      rfl
  · refine returned_of_moves moves (fun old there => ?_) rfl
    cases Option.some.inj (at_.symm.trans there)
    simp [SelectCall.idx, place]

theorem Sound.add {a : Nat} (at_ : s.calls[i]? = some call) (place : call.pc = .adding a) :
    let t : RoundRobin := { s with
      values := Function.update s.values a (s.values a + 1)
      calls := s.calls.set i { call with pc := .returned (s.values a + 1 - 1) }
      order := Function.update s.order call.group (s.order call.group ++ [i]) }
    t.Sound ∧ s.Adds t i call := by
  intro t
  have moves : Moves s.calls t.calls i { call with pc := .returned (s.values a + 1 - 1) } := moves_set at_
  obtain ⟨filled, found⟩ : call.candidates ≠ [] ∧ s.counters call.group = some a := by
    have ready := sound.ready i call at_
    rwa [Ready, place] at ready
  have value : s.abs call.group = s.values a := by
    rw [abs, found]
    rfl
  have there (b : Nat) (other : b ≠ a) : t.values b = s.values b := Function.update_of_ne other ..
  have kept (q : SelectCall) (ready : s.Ready q) : t.Ready q := by
    rcases q with ⟨candidates, group, pc⟩
    cases pc with
    | storing b =>
      obtain ⟨filled, used, zero, free⟩ := ready
      have other : b ≠ a := by
        rintro rfl
        exact free call.group found
      exact ⟨filled, used, (there b other).trans zero, free⟩
    | _ => exact ready
  refine ⟨⟨?_, sound.fresh_of_moves moves nofun, sound.held, sound.apart⟩, ⟨at_, ?_⟩, filled, ?_, ?_, rfl⟩
  · exact moves.all filled fun j q _ atJ => kept q (sound.ready j q atJ)
  · simp [SelectCall.idx, place]
  · rw [value, ← UInt64.add_sub_cancel (s.values a) 1]
    exact moves
  · funext g
    by_cases own : g = call.group
    · simp [abs, own, found, Counters.advance, t]
    · rw [Counters.advance, Function.update_of_ne own]
      cases counter : s.counters g with
      | none => simp [abs, counter, t]
      | some b =>
        have other : b ≠ a := by
          rintro rfl
          exact own (sound.apart g call.group b counter found)
        simpa [abs, counter, t] using there b other

/-- Every step keeps the invariant, and either no call can tell it or it is a
whole `Select`. -/
theorem Sound.step {action : SelectAction} (taken : s.step action = some t) :
    t.Sound ∧ (s.Keeps t ∨ ∃ i call, s.Adds t i call) := by
  cases action with
  | enter candidates group =>
    cases taken
    have moves : Moves s.calls (s.calls ++ [⟨candidates, group, .entered⟩]) s.calls.length
        ⟨candidates, group, .entered⟩ := moves_concat
    refine (sound.quiet moves (fun old at_ => ?_) trivial nofun rfl).imp_right .inl
    simp at at_
  | move i =>
    obtain ⟨call, at_, moved⟩ := Option.bind_eq_some_iff.mp taken
    have ready := sound.ready i call at_
    unfold RoundRobin.move at moved
    split at moved
    · rename_i place
      have waiting : call.idx = none := by rw [SelectCall.idx, place]
      split at moved
      · rename_i empty
        cases moved
        exact (sound.goto .failed at_ waiting (List.length_eq_zero_iff.mp empty) nofun nofun).imp_right .inl
      · rename_i length
        have filled : call.candidates ≠ [] := fun empty => length (List.length_eq_zero_iff.mpr empty)
        split at moved
        · rename_i counter found
          cases moved
          exact (sound.goto (.adding counter) at_ waiting ⟨filled, found⟩ nofun nofun).imp_right .inl
        · cases moved
          exact (sound.miss at_ place filled).imp_right .inl
    · rename_i fresh place
      have waiting : call.idx = none := by rw [SelectCall.idx, place]
      rw [Ready, place] at ready
      split at moved
      · rename_i actual found
        cases moved
        exact (sound.goto (.adding actual) at_ waiting ⟨ready.1, found⟩ nofun nofun).imp_right .inl
      · rename_i missing
        cases moved
        exact (sound.store at_ place missing).imp_right .inl
    · rename_i counter place
      cases moved
      exact (sound.add at_ place).imp_right fun adds => .inr ⟨i, call, adds⟩
    · cases moved
    · cases moved

end Step

/-- The step of the call is what the sequential `Select` does. -/
theorem Adds.refines {i : Nat} {call : SelectCall} (adds : s.Adds t i call) :
    ∃ after res, t.calls[i]? = some after ∧ after.result = some res ∧
      selectRoundRobin s.abs call.candidates call.group = (res, t.abs) := by
  refine ⟨_, _, adds.moves.here, rfl, ?_⟩
  rw [selectRoundRobin_eq adds.filled, adds.abs]

end RoundRobin

end LlmGateway
