import Mathlib.Algebra.Order.Group.Unbundled.Abs
import Mathlib.Algebra.Order.Group.Int
import Mathlib.Order.Bounds.Defs
import LlmGateway.Config.Load
import LlmGateway.Lib.Transition
import LlmGateway.Model.Int64

namespace LlmGateway

/-- `failOpenWarnInterval`, a variable that tests shorten. -/
def failOpenWarnInterval : Int := 5 * second

/-- Where a call of `warnFailOpen` stands. A call that has returned without
logging needs no more to be told. -/
inductive WarnPC where
  | entered
  | clocked (now : Int)
  | loaded (now prev : Int)
  | won (now : Int)
  | logged (now : Int)
  | returned
deriving DecidableEq, Repr

/-- The next atomic step of a call after the clock was read: `Load` with the test
on what it returned, `CompareAndSwap`, the log. The mark is `lastWarnUnixNs`. -/
def WarnPC.next (interval mark : Int) : WarnPC → Option (WarnPC × Int)
  | .clocked now =>
    if mark ≠ 0 ∧ wrap64 (now - mark) < interval then some (.returned, mark) else some (.loaded now mark, mark)
  | .loaded now prev => if mark = prev then some (.won now, now) else some (.returned, mark)
  | .won now => some (.logged now, mark)
  | _ => none

/-- The time of a call that has won the swap. -/
def WarnPC.winner : WarnPC → Option Int
  | .won now | .logged now => some now
  | _ => none

structure WarnState where
  lastWarnUnixNs : Int
  calls : List WarnPC
deriving DecidableEq, Repr

inductive WarnAction where
  | enter
  | clock (call : Nat) (now : Int)
  | move (call : Nat)

namespace WarnState

open Transition (Moves moves_set moves_concat)

def start : WarnState := ⟨0, []⟩

/-- A clock reading is a positive `int64`; two calls may read their clocks in one
order and go on in the other. -/
def step (interval : Int) (s : WarnState) : WarnAction → Option WarnState
  | .enter => some { s with calls := s.calls ++ [.entered] }
  | .clock i now =>
    match s.calls[i]? with
    | some .entered => if 0 < now ∧ now ≤ maxInt then some { s with calls := s.calls.set i (.clocked now) } else none
    | _ => none
  | .move i =>
    match s.calls[i]? with
    | some pc =>
      match pc.next interval s.lastWarnUnixNs with
      | some (pc', mark) => some ⟨mark, s.calls.set i pc'⟩
      | none => none
    | none => none

/-- The call has won the swap with this time. -/
def Won (s : WarnState) (i : Nat) (now : Int) : Prop := ∃ pc, s.calls[i]? = some pc ∧ pc.winner = some now

/-- What a call carries: a time that was read from a clock, and with a loaded mark
the outcome of the test on it. -/
def Carries (interval : Int) : WarnPC → Prop
  | .clocked now => 0 < now ∧ now ≤ maxInt
  | .loaded now prev => 0 < now ∧ now ≤ maxInt ∧ (prev = 0 ∨ prev + interval ≤ now)
  | .won now | .logged now => 0 < now ∧ now ≤ maxInt
  | _ => True

/-- The mark is zero before the first winner and the time of the last winner
after it, which is the greatest; winners are apart. -/
structure Throttled (interval : Int) (s : WarnState) : Prop where
  carried : ∀ (i : Nat) pc, s.calls[i]? = some pc → Carries interval pc
  mark : s.lastWarnUnixNs = 0 ∨ ∃ i, s.Won i s.lastWarnUnixNs
  most : ∀ i now, s.Won i now → now ≤ s.lastWarnUnixNs
  apart : ∀ i j a b, i ≠ j → s.Won i a → s.Won j b → interval ≤ |a - b|

variable {interval : Int} {s t : WarnState}

theorem throttled_start : Throttled interval start where
  carried := by simp [start]
  mark := Or.inl rfl
  most := by simp [start, Won]
  apart := by simp [start, Won]

/-- A winner's time is positive and not above the greatest `int64`. -/
theorem Throttled.won_range (held : Throttled interval s) {i : Nat} {now : Int} (won : s.Won i now) :
    0 < now ∧ now ≤ maxInt := by
  obtain ⟨pc, at_, winner⟩ := won
  have carried := held.carried i pc at_
  cases pc <;> cases winner <;> exact carried

theorem Throttled.mark_range (held : Throttled interval s) :
    0 ≤ s.lastWarnUnixNs ∧ s.lastWarnUnixNs ≤ maxInt := by
  rcases held.mark with zero | ⟨i, won⟩
  · rw [zero]
    decide
  · obtain ⟨positive, bound⟩ := held.won_range won
    exact ⟨positive.le, bound⟩

theorem won_iff {i j : Nat} {pc : WarnPC} {now : Int} (moves : Moves s.calls t.calls i pc) :
    t.Won j now ↔ j = i ∧ pc.winner = some now ∨ j ≠ i ∧ s.Won j now :=
  moves.exists_iff j

/-- A call that moves on without the mark keeps the throttle, if it carries what
it should and is a winner only if it was one. -/
theorem Throttled.keep (held : Throttled interval s) {i : Nat} {pc : WarnPC} (moves : Moves s.calls t.calls i pc)
    (mark : t.lastWarnUnixNs = s.lastWarnUnixNs) (carries : Carries interval pc)
    (same : ∀ now, pc.winner = some now ↔ s.Won i now) : Throttled interval t := by
  have won (j : Nat) (now : Int) : t.Won j now ↔ s.Won j now := by
    rw [won_iff moves]
    by_cases here : j = i
    · subst here
      simp [same]
    · simp [here]
  constructor
  · exact moves.all carries fun j other _ earlier => held.carried j other earlier
  · simpa only [mark, won] using held.mark
  · simpa only [mark, won] using held.most
  · simpa only [won] using held.apart

/-- A call that wins the swap: its time is at least the interval after the mark,
or it is the first. -/
theorem Throttled.win (held : Throttled interval s) (ordered : 0 ≤ interval) {i : Nat} {now : Int}
    (at_ : s.calls[i]? = some (.loaded now s.lastWarnUnixNs)) (moves : Moves s.calls t.calls i (.won now))
    (mark : t.lastWarnUnixNs = now) : Throttled interval t := by
  obtain ⟨positive, bound, later⟩ := held.carried i _ at_
  have unwon (a : Int) : ¬ s.Won i a := by
    rintro ⟨pc, same, winner⟩
    rw [at_] at same
    cases same
    cases winner
  have new (j : Nat) (a : Int) : t.Won j a ↔ j = i ∧ a = now ∨ s.Won j a := by
    rw [won_iff moves]
    by_cases here : j = i
    · subst here
      simp [WarnPC.winner, unwon, eq_comm]
    · simp [here]
  have before (j : Nat) (a : Int) (won : s.Won j a) : a + interval ≤ now := by
    have most := held.most j a won
    have first := (held.won_range won).1
    omega
  constructor
  · exact moves.all ⟨positive, bound⟩ fun j other _ earlier => held.carried j other earlier
  · exact Or.inr ⟨i, (new i _).mpr (Or.inl ⟨rfl, mark⟩)⟩
  · intro j a won
    rcases (new j a).mp won with ⟨_, rfl⟩ | old
    · exact mark.ge
    · have earlier := before j a old
      omega
  · intro j k a b other wonA wonB
    rcases (new j a).mp wonA with ⟨rfl, rfl⟩ | oldA <;> rcases (new k b).mp wonB with ⟨rfl, rfl⟩ | oldB
    · exact absurd rfl other
    · have earlier := before k b oldB
      exact le_abs.mpr (Or.inl (by omega))
    · have earlier := before j a oldA
      exact le_abs.mpr (Or.inr (by omega))
    · exact held.apart j k a b other oldA oldB

/-- The difference of two clock readings does not overflow. -/
theorem wrap64_sub {a b : Int} (positive : 0 < a) (bound : a ≤ maxInt) (low : 0 ≤ b) (high : b ≤ maxInt) :
    wrap64 (a - b) = a - b := by
  unfold maxInt at bound high
  exact wrap64_of_fits (by omega) (by omega)

theorem Throttled.move (held : Throttled interval s) (ordered : 0 ≤ interval) {i : Nat} {pc pc' : WarnPC} {mark : Int}
    (at_ : s.calls[i]? = some pc) (next : pc.next interval s.lastWarnUnixNs = some (pc', mark)) :
    Throttled interval ⟨mark, s.calls.set i pc'⟩ := by
  have carries := held.carried i pc at_
  have unchanged (now : Int) : s.Won i now ↔ pc.winner = some now := by
    simp [Won, at_]
  cases pc with
  | clocked now =>
    rw [WarnPC.next] at next
    split at next
    · cases next
      exact held.keep (moves_set at_) rfl trivial fun a => by simp [unchanged, WarnPC.winner]
    · rename_i passed
      cases next
      obtain ⟨low, high⟩ := held.mark_range
      rw [wrap64_sub carries.1 carries.2 low high] at passed
      refine held.keep (moves_set at_) rfl ⟨carries.1, carries.2, ?_⟩ fun a => by simp [unchanged, WarnPC.winner]
      omega
  | loaded now prev =>
    rw [WarnPC.next] at next
    split at next
    · rename_i same
      cases next
      subst same
      exact held.win ordered at_ (moves_set at_) rfl
    · cases next
      exact held.keep (moves_set at_) rfl trivial fun a => by simp [unchanged, WarnPC.winner]
  | won now =>
    cases next
    exact held.keep (moves_set at_) rfl carries fun a => by simp [unchanged, WarnPC.winner]
  | entered => cases next
  | logged now => cases next
  | returned => cases next

theorem Throttled.step (ordered : 0 ≤ interval) {a : WarnAction} (held : Throttled interval s)
    (taken : s.step interval a = some t) : Throttled interval t := by
  cases a with
  | enter =>
    cases taken
    exact held.keep moves_concat rfl trivial fun now => by simp [Won, WarnPC.winner]
  | clock i now =>
    simp only [WarnState.step] at taken
    split at taken
    · rename_i at_
      split at taken
      · rename_i reading
        cases taken
        exact held.keep (moves_set at_) rfl reading fun a => by simp [Won, at_, WarnPC.winner]
      · cases taken
    · cases taken
  | move i =>
    simp only [WarnState.step] at taken
    split at taken
    · rename_i pc at_
      split at taken
      · rename_i next
        cases taken
        exact held.move ordered at_ next
      · cases taken
    · cases taken

/-- In every schedule of any number of calls, two calls that log are at least the
interval apart, and the mark is the greatest time of a call that has won. -/
theorem fail_open_warnings_throttled (interval : Int) (ordered : 0 ≤ interval) {actions : List WarnAction}
    {final : WarnState} (taken : Transition.run (WarnState.step interval) start actions = some final) :
    (∀ (i j : Nat) a b, i ≠ j → final.calls[i]? = some (.logged a) → final.calls[j]? = some (.logged b) →
      interval ≤ |a - b|) ∧
    (final.lastWarnUnixNs = 0 ∧ (∀ i now, ¬ final.Won i now) ∨
      IsGreatest {now | ∃ i, final.Won i now} final.lastWarnUnixNs) := by
  have held : Throttled interval final :=
    Transition.run_invariant (fun _ _ _ held next => held.step ordered next) throttled_start taken
  constructor
  · intro i j a b other first second
    exact held.apart i j a b other ⟨_, first, rfl⟩ ⟨_, second, rfl⟩
  · rcases held.mark with zero | greatest
    · refine Or.inl ⟨zero, fun i now won => ?_⟩
      have positive := (held.won_range won).1
      have most := held.most i now won
      omega
    · exact Or.inr ⟨greatest, fun now ⟨i, won⟩ => held.most i now won⟩

/-- Two calls load the same mark and one of them wins; a third is too early and a
fourth is late enough. -/
def fourCalls : List WarnAction :=
  [.enter, .enter, .clock 0 7, .clock 1 9, .move 0, .move 1, .move 1, .move 0, .move 1, .enter, .clock 2 8, .move 2,
    .enter, .clock 3 6000000000, .move 3, .move 3, .move 3]

theorem fail_open_warnings_throttled_four :
    ∃ final, Transition.run (WarnState.step failOpenWarnInterval) start fourCalls = some final ∧
      final.calls = [.returned, .logged 9, .returned, .logged 6000000000] ∧
      (∀ (i j : Nat) a b, i ≠ j → final.calls[i]? = some (.logged a) → final.calls[j]? = some (.logged b) →
        failOpenWarnInterval ≤ |a - b|) := by
  have taken : Transition.run (WarnState.step failOpenWarnInterval) start fourCalls =
      some ⟨6000000000, [.returned, .logged 9, .returned, .logged 6000000000]⟩ := by decide +kernel
  exact ⟨_, taken, rfl, (fail_open_warnings_throttled failOpenWarnInterval (by decide) taken).1⟩

end WarnState

end LlmGateway
