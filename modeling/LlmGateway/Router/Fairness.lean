import Mathlib.Algebra.Order.Floor.Div
import Mathlib.Data.Int.CardIntervalMod
import LlmGateway.Router.RoundRobin

namespace LlmGateway

namespace RoundRobin

variable {s t : RoundRobin}

/-- The value of a counter is the number of its increments, and the call that made
one of them took the number of those before. -/
structure Counted (s : RoundRobin) : Prop where
  total : ∀ g, s.abs g = UInt64.ofNat (s.order g).length
  took : ∀ g (k i : Nat), (s.order g)[k]? = some i →
    ∃ call, s.calls[i]? = some call ∧ call.group = g ∧ call.idx = some (UInt64.ofNat k)
  complete : ∀ (i : Nat) call, s.calls[i]? = some call → call.idx.isSome → i ∈ s.order call.group
  distinct : ∀ g, (s.order g).Nodup

theorem counted_start : start.Counted where
  total := by simp [start, abs]
  took := by simp [start]
  complete := by simp [start]
  distinct := by simp [start]

theorem Counted.keep (counted : s.Counted) (keeps : s.Keeps t) : t.Counted where
  total := by
    rw [keeps.abs, keeps.order]
    exact counted.total
  took := by
    intro g k i at_
    rw [keeps.order] at at_
    obtain ⟨call, there, group, idx⟩ := counted.took g k i at_
    exact ⟨call, (keeps.returned i call (by rw [idx]; rfl)).mpr there, group, idx⟩
  complete := by
    intro i call there returned
    rw [keeps.order]
    exact counted.complete i call ((keeps.returned i call returned).mp there) returned
  distinct := by
    rw [keeps.order]
    exact counted.distinct

theorem Counted.add (counted : s.Counted) {i : Nat} {call : SelectCall} (adds : s.Adds t i call) : t.Counted := by
  obtain ⟨⟨atI, pending⟩, _, moves, abs, order⟩ := adds
  have other (g : String) (k j : Nat) (at_ : (s.order g)[k]? = some j) : j ≠ i := by
    rintro rfl
    obtain ⟨_, there, _, idx⟩ := counted.took g k j at_
    cases Option.some.inj (atI.symm.trans there)
    rw [pending] at idx
    cases idx
  have kept (g : String) (k j : Nat) (at_ : (s.order g)[k]? = some j) :
      ∃ call, t.calls[j]? = some call ∧ call.group = g ∧ call.idx = some (UInt64.ofNat k) := by
    rw [moves.others j (other g k j at_)]
    exact counted.took g k j at_
  have own : t.order call.group = s.order call.group ++ [i] := by rw [order, Function.update_self]
  have others (g : String) (different : g ≠ call.group) : t.order g = s.order g := by
    rw [order, Function.update_of_ne different]
  constructor
  · intro g
    rw [abs, Counters.advance]
    by_cases same : g = call.group
    · subst same
      rw [Function.update_self, own, counted.total, List.length_append, List.length_singleton, UInt64.ofNat_add]
      rfl
    · rw [Function.update_of_ne same, others g same, counted.total]
  · intro g k j at_
    by_cases same : g = call.group
    · subst same
      rw [own] at at_
      rcases Nat.lt_trichotomy k (s.order call.group).length with before | rfl | beyond
      · rw [List.getElem?_append_left before] at at_
        exact kept _ k j at_
      · rw [List.getElem?_concat_length] at at_
        cases at_
        exact ⟨_, moves.here, rfl, by rw [counted.total]; rfl⟩
      · rw [List.getElem?_eq_none (by simpa using Nat.succ_le_of_lt beyond)] at at_
        cases at_
    · rw [others g same] at at_
      exact kept g k j at_
  · refine moves.all (fun _ => ?_) fun j q different there returned => ?_
    · rw [own]
      exact List.mem_append_right _ (List.mem_singleton_self i)
    · have member := counted.complete j q there returned
      by_cases same : q.group = call.group
      · rw [same, own]
        exact List.mem_append_left _ (same ▸ member)
      · rwa [others q.group same]
  · intro g
    by_cases same : g = call.group
    · subst same
      rw [own, List.nodup_append_comm, List.singleton_append, List.nodup_cons]
      refine ⟨fun member => ?_, counted.distinct _⟩
      obtain ⟨k, at_⟩ := List.getElem?_of_mem member
      exact other _ k i at_ rfl
    · rw [others g same]
      exact counted.distinct g

theorem run_counted {actions : List SelectAction} (taken : Transition.run step start actions = some s) :
    s.Sound ∧ s.Counted := by
  have next (s : RoundRobin) (a : SelectAction) (t : RoundRobin) (held : s.Sound ∧ s.Counted)
      (stepped : s.step a = some t) : t.Sound ∧ t.Counted := by
    obtain ⟨sound, keeps | ⟨i, call, adds⟩⟩ := held.1.step stepped
    · exact ⟨sound, held.2.keep keeps⟩
    · exact ⟨sound, held.2.add adds⟩
  exact Transition.run_invariant next ⟨sound_start, counted_start⟩ taken

/-- In every reachable state a step leaves the counters as they are or is one
sequential `Select` on them, with its result. -/
theorem step_refines {actions : List SelectAction} (taken : Transition.run step start actions = some s)
    {a : SelectAction} (stepped : s.step a = some t) :
    t.abs = s.abs ∨ ∃ (i : Nat) (call after : SelectCall) (res : Except String Candidate),
      s.calls[i]? = some call ∧ t.calls[i]? = some after ∧ after.result = some res ∧
        selectRoundRobin s.abs call.candidates call.group = (res, t.abs) := by
  obtain ⟨_, keeps | ⟨i, call, adds⟩⟩ := (run_counted taken).1.step stepped
  · exact .inl keeps.abs
  · obtain ⟨after, res, there, result, selected⟩ := adds.refines
    exact .inr ⟨i, call, after, res, adds.pending.1, there, result, selected⟩

/-- No call is counted twice. -/
theorem Counted.length_le (counted : s.Counted) (g : String) : (s.order g).length ≤ s.calls.length := by
  have inside : s.order g ⊆ List.range s.calls.length := by
    intro i member
    obtain ⟨k, at_⟩ := List.getElem?_of_mem member
    obtain ⟨_, there, _⟩ := counted.took g k i at_
    exact List.mem_range.mpr (List.getElem?_eq_some_iff.mp there).1
  simpa using ((counted.distinct g).subperm inside).length_le

theorem countP_range (p : Nat → Bool) (n : Nat) : (List.range n).countP p = Nat.count (fun i => p i) n := by
  induction n with
  | zero => rfl
  | succ n ih => simp [List.range_succ, Nat.count_succ, ih, List.countP_singleton]

/-- Among the first numbers each residue occurs equally often, up to one. -/
theorem count_residue {n k : Nat} (bound : k < n) (total : Nat) :
    (List.range total).countP (fun i => i % n = k) = total / n ∨
      (List.range total).countP (fun i => i % n = k) = total ⌈/⌉ n := by
  have positive : 0 < n := by omega
  have counted : (List.range total).countP (fun i => i % n = k) = total / n + if k < total % n then 1 else 0 := by
    have exact := Nat.count_modEq_card total positive k
    rw [Nat.mod_eq_of_lt bound] at exact
    rw [countP_range, ← exact]
    congr
    funext i
    simp [Nat.ModEq, Nat.mod_eq_of_lt bound]
  rw [counted]
  split
  · rename_i less
    right
    have whole := Nat.div_add_mod total n
    have small := Nat.mod_lt total positive
    refine le_antisymm ?_ ?_
    · by_contra above
      have enough : total ≤ n * (total / n) := (ceilDiv_le_iff_le_mul positive).mp (by omega)
      omega
    · refine (ceilDiv_le_iff_le_mul positive).mpr ?_
      rw [Nat.mul_succ]
      omega
  · exact .inl rfl

/-- Values that go round the residues are counted like the positions. -/
theorem countP_turns {α : Type} {l : List α} {f : α → Option Nat} {n : Nat}
    (turns : ∀ (j : Nat) a, l[j]? = some a → f a = some (j % n)) (k : Nat) :
    l.countP (fun a => f a = some k) = (List.range l.length).countP fun j => j % n = k := by
  have listed : l.map f = (List.range l.length).map fun j => some (j % n) := by
    refine List.ext_getElem? fun j => ?_
    rw [List.getElem?_map, List.getElem?_map]
    cases at_ : l[j]? with
    | none => simpa using at_
    | some a =>
      have inside := (List.getElem?_eq_some_iff.mp at_).1
      simp [turns j a at_, inside]
  have counts := congrArg (List.countP fun index => decide (index = some k)) listed
  simpa only [List.countP_map, Function.comp_def, Option.some.injEq] using counts

/-- The index a call returns the candidate of. -/
def indexOf (s : RoundRobin) (i : Nat) : Option Nat := s.calls[i]?.bind SelectCall.index

/-- A call took the number of those before it, which has not wrapped. -/
theorem Counted.turn (counted : s.Counted) (few : s.calls.length < 2 ^ 64) {g : String} {k i : Nat}
    (at_ : (s.order g)[k]? = some i) : ∃ call, s.calls[i]? = some call ∧ call.group = g ∧
      call.pc = .returned (UInt64.ofNat k) ∧ (UInt64.ofNat k).toNat = k := by
  obtain ⟨call, there, group, idx⟩ := counted.took g k i at_
  have inside := (List.getElem?_eq_some_iff.mp at_).1
  have short := counted.length_le g
  have wide : UInt64.size = 2 ^ 64 := rfl
  refine ⟨call, there, group, ?_, UInt64.toNat_ofNat_of_lt' (by omega)⟩
  cases place : call.pc <;> simp_all [SelectCall.idx]

/-- In every schedule of calls for any groups the calls for one group take the
indices of its candidates in turn, in the order of their increments. -/
theorem round_robin_fair {actions : List SelectAction} (taken : Transition.run step start actions = some s)
    (few : s.calls.length < 2 ^ 64) (g : String) (candidates : List Candidate)
    (fixed : ∀ call ∈ s.calls, call.group = g → call.candidates = candidates) :
    (s.order g).Nodup ∧
    (∀ i, i ∈ s.order g ↔ ∃ call, s.calls[i]? = some call ∧ call.group = g ∧ call.idx.isSome) ∧
    (∀ (k i : Nat), (s.order g)[k]? = some i → s.indexOf i = some (k % candidates.length) ∧
      ∃ call, s.calls[i]? = some call ∧ call.result = some (indexed candidates (k % candidates.length))) ∧
    ∀ k < candidates.length,
      (s.order g).countP (fun i => s.indexOf i = some k) = (s.order g).length / candidates.length ∨
      (s.order g).countP (fun i => s.indexOf i = some k) = (s.order g).length ⌈/⌉ candidates.length := by
  have counted := (run_counted taken).2
  have indices (k i : Nat) (at_ : (s.order g)[k]? = some i) : s.indexOf i = some (k % candidates.length) := by
    obtain ⟨call, there, group, place, value⟩ := counted.turn few at_
    have list := fixed call (List.mem_of_getElem? there) group
    simp only [indexOf, there, Option.bind_some, SelectCall.index, SelectCall.idx, place, Option.map_some, list, value]
  refine ⟨counted.distinct g, fun i => ⟨fun member => ?_, ?_⟩, fun k i at_ => ⟨indices k i at_, ?_⟩, ?_⟩
  · obtain ⟨k, at_⟩ := List.getElem?_of_mem member
    obtain ⟨call, there, group, idx⟩ := counted.took g k i at_
    exact ⟨call, there, group, by rw [idx]; rfl⟩
  · rintro ⟨call, there, rfl, returned⟩
    exact counted.complete i call there returned
  · obtain ⟨call, there, group, place, value⟩ := counted.turn few at_
    have list := fixed call (List.mem_of_getElem? there) group
    refine ⟨call, there, ?_⟩
    simp only [SelectCall.result, place, list, value]
  · intro k bound
    rw [countP_turns indices]
    exact count_residue bound _

def rivals : List Candidate := [⟨⟨"openai", [], none⟩, "a", 0, 0, 0, 1⟩, ⟨⟨"openai", [], none⟩, "b", 0, 0, 0, 1⟩]

/-- Two calls for a new group that both miss its counter, and one for another
group. -/
def racingCalls : List SelectAction :=
  [.enter rivals "fast", .enter rivals "fast", .enter rivals "slow", .move 0, .move 1, .move 2, .move 1, .move 0,
    .move 0, .move 2, .move 2, .move 1]

theorem round_robin_fair_race :
    ∃ s, Transition.run step start racingCalls = some s ∧ s.order "fast" = [0, 1] ∧
      s.indexOf 0 = some 0 ∧ s.indexOf 1 = some 1 := by
  have taken : Transition.run step start racingCalls = some _ := rfl
  obtain ⟨_, _, turns, _⟩ := round_robin_fair taken (by decide) "fast" rivals (by decide)
  exact ⟨_, taken, rfl, (turns 0 0 rfl).1, (turns 1 1 rfl).1⟩

end RoundRobin

end LlmGateway
