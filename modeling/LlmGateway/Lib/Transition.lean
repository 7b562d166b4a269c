import Mathlib.Algebra.GroupWithZero.Nat
import Mathlib.Data.List.Induction

namespace Transition

variable {σ α : Type*} {step : σ → α → Option σ}

/-- Executes the actions in order. An action that is not enabled stops the
run, so a successful run took every step. -/
def run (step : σ → α → Option σ) : σ → List α → Option σ
  | s, [] => some s
  | s, a :: rest => (step s a).bind fun t => run step t rest

@[simp] theorem run_nil (s : σ) : run step s [] = some s := rfl

theorem run_cons {s u : σ} {a : α} {rest : List α} :
    run step s (a :: rest) = some u ↔ ∃ t, step s a = some t ∧ run step t rest = some u := by
  simp only [run, Option.bind_eq_some_iff]

theorem run_append {s u : σ} {before after : List α} :
    run step s (before ++ after) = some u ↔
      ∃ t, run step s before = some t ∧ run step t after = some u := by
  induction before generalizing s with
  | nil => simp
  | cons a rest ih =>
    simp only [List.cons_append, run_cons, ih]
    constructor
    · rintro ⟨t, first, v, middle, last⟩
      exact ⟨v, ⟨t, first, middle⟩, last⟩
    · rintro ⟨v, ⟨t, first, middle⟩, last⟩
      exact ⟨t, first, v, middle, last⟩

theorem run_snoc {s u : σ} {before : List α} {a : α} :
    run step s (before ++ [a]) = some u ↔ ∃ t, run step s before = some t ∧ step t a = some u := by
  simp [run_append, run_cons]

/-- Induction along a run, with the actions taken so far in view. -/
theorem run_induction {start : σ} {motive : List α → σ → Prop} (initial : motive [] start)
    (next : ∀ before s a t, run step start before = some s → motive before s →
      step s a = some t → motive (before ++ [a]) t)
    {actions : List α} {final : σ} (taken : run step start actions = some final) :
    motive actions final := by
  induction actions using List.reverseRecOn generalizing final with
  | nil =>
    cases Option.some.inj taken
    exact initial
  | append_singleton before a ih =>
    obtain ⟨s, earlier, last⟩ := run_snoc.mp taken
    exact next before s a final earlier (ih earlier) last

/-- What every step preserves, every run preserves. -/
theorem run_invariant {inv : σ → Prop} (keep : ∀ s a t, inv s → step s a = some t → inv t)
    {start final : σ} {actions : List α} (initial : inv start)
    (taken : run step start actions = some final) : inv final :=
  run_induction (motive := fun _ s => inv s) initial
    (fun _ s a t _ held last => keep s a t held last) taken

/-- Unwinding: when the visible actions can be repeated on related states and
the others keep them related, every run can be repeated with its visible actions
alone. -/
theorem run_filter {visible : α → Bool} {rel : σ → σ → Prop}
    (seen : ∀ s s' a t, visible a = true → rel s s' → step s a = some t → ∃ t', step s' a = some t' ∧ rel t t')
    (hidden : ∀ s s' a t, visible a = false → rel s s' → step s a = some t → rel t s')
    {start start' final : σ} {actions : List α} (initial : rel start start')
    (taken : run step start actions = some final) :
    ∃ final', run step start' (actions.filter visible) = some final' ∧ rel final final' := by
  induction actions generalizing start start' with
  | nil =>
    cases Option.some.inj taken
    exact ⟨start', rfl, initial⟩
  | cons a rest ih =>
    obtain ⟨t, first, later⟩ := run_cons.mp taken
    cases view : visible a with
    | true =>
      obtain ⟨t', repeated, related⟩ := seen start start' a t view initial first
      obtain ⟨final', last, done⟩ := ih related later
      refine ⟨final', ?_, done⟩
      rw [List.filter_cons_of_pos view]
      exact run_cons.mpr ⟨t', repeated, last⟩
    | false =>
      rw [List.filter_cons_of_neg (by simp [view])]
      exact ih (hidden start start' a t view initial first) later

/-- Simulation: when each step of one system is a step of the other on related states,
each run is a run of the other. -/
theorem run_simulates {σ' : Type*} {step' : σ' → α → Option σ'} {rel : σ → σ' → Prop}
    (each : ∀ s s' a t, rel s s' → step s a = some t → ∃ t', step' s' a = some t' ∧ rel t t')
    {start final : σ} {start' : σ'} {actions : List α} (initial : rel start start')
    (taken : run step start actions = some final) :
    ∃ final', run step' start' actions = some final' ∧ rel final final' := by
  induction actions generalizing start start' with
  | nil =>
    cases Option.some.inj taken
    exact ⟨start', rfl, initial⟩
  | cons a rest ih =>
    obtain ⟨t, first, later⟩ := run_cons.mp taken
    obtain ⟨t', first', related⟩ := each start start' a t initial first
    obtain ⟨final', later', done⟩ := ih related later
    exact ⟨final', run_cons.mpr ⟨t', first', later'⟩, done⟩

/-- Every action of the run is allowed in the state it is taken in. -/
def Guarded (step : σ → α → Option σ) (allowed : σ → α → Prop) : σ → List α → Prop
  | _, [] => True
  | s, a :: rest => allowed s a ∧ ∀ t, step s a = some t → Guarded step allowed t rest

theorem Guarded.cons {allowed : σ → α → Prop} {s t : σ} {a : α} {rest : List α} (ok : allowed s a)
    (next : step s a = some t) (later : Guarded step allowed t rest) : Guarded step allowed s (a :: rest) :=
  ⟨ok, fun _ same => Option.some.inj (next.symm.trans same) ▸ later⟩

theorem guarded_append {allowed : σ → α → Prop} {s t : σ} {before after : List α}
    (earlier : run step s before = some t) :
    Guarded step allowed s (before ++ after) ↔ Guarded step allowed s before ∧ Guarded step allowed t after := by
  induction before generalizing s with
  | nil =>
    cases Option.some.inj earlier
    simp [Guarded]
  | cons a rest ih =>
    obtain ⟨u, first, later⟩ := run_cons.mp earlier
    simp only [List.cons_append, Guarded, first, Option.some.injEq, forall_eq', ih later, and_assoc]

/-- An invariant that only the allowed steps preserve holds at the end of
every run that takes no other step. -/
theorem guarded_invariant {allowed : σ → α → Prop} {inv : σ → Prop}
    (keep : ∀ s a t, allowed s a → inv s → step s a = some t → inv t)
    {start final : σ} {actions : List α} (initial : inv start)
    (guarded : Guarded step allowed start actions)
    (taken : run step start actions = some final) : inv final := by
  induction actions generalizing start with
  | nil =>
    cases Option.some.inj taken
    exact initial
  | cons a rest ih =>
    obtain ⟨t, first, later⟩ := run_cons.mp taken
    exact ih (keep start a t guarded.1 initial first) (guarded.2 t first) later

/-- A rank that the steps of a kind lower and no step raises, as long as the invariant
holds, bounds how many of that kind a run takes. -/
theorem run_count_le {inv : σ → Prop} {rank : σ → Nat} {kind : α → Bool}
    (keep : ∀ s a t, inv s → step s a = some t → inv t)
    (lower : ∀ s a t, inv s → step s a = some t → rank t + (if kind a then 1 else 0) ≤ rank s)
    {start final : σ} {actions : List α} (initial : inv start)
    (taken : run step start actions = some final) : actions.countP kind + rank final ≤ rank start := by
  induction actions generalizing start with
  | nil =>
    cases Option.some.inj taken
    simp
  | cons a rest ih =>
    obtain ⟨t, first, later⟩ := run_cons.mp taken
    have bound := ih (keep start a t initial first) later
    have less := lower start a t initial first
    rw [List.countP_cons]
    omega

/-- A rank that every step lowers bounds the length of a run. -/
theorem run_length_le {inv : σ → Prop} {rank : σ → Nat} (keep : ∀ s a t, inv s → step s a = some t → inv t)
    (lower : ∀ s a t, inv s → step s a = some t → rank t < rank s)
    {start final : σ} {actions : List α} (initial : inv start)
    (taken : run step start actions = some final) : actions.length + rank final ≤ rank start := by
  have counted : actions.countP (fun _ => true) + rank final ≤ rank start := run_count_le keep lower initial taken
  rwa [List.countP_true] at counted

section Moves

variable {π : Type*} {before after : List π} {i : Nat} {p : π}

/-- One entry of a list of processes is now `p`, and the others are what they
were. -/
structure Moves (before after : List π) (i : Nat) (p : π) : Prop where
  here : after[i]? = some p
  others : ∀ j : Nat, j ≠ i → after[j]? = before[j]?

theorem moves_set {old : π} (at_ : before[i]? = some old) : Moves before (before.set i p) i p where
  here := by
    have bound := (List.getElem?_eq_some_iff.mp at_).1
    simp [bound]
  others := by
    intro j other
    simp [List.getElem?_set_ne (Ne.symm other)]

theorem moves_concat : Moves before (before ++ [p]) before.length p where
  here := List.getElem?_concat_length
  others := by
    intro j other
    rcases Nat.lt_or_gt_of_ne other with inside | beyond
    · exact List.getElem?_append_left inside
    · rw [List.getElem?_eq_none (by simpa using Nat.succ_le_of_lt beyond), List.getElem?_eq_none (Nat.le_of_lt beyond)]

/-- What holds of the process that moved and of the others where they were. -/
theorem Moves.all (moves : Moves before after i p) {holds : Nat → π → Prop} (here : holds i p)
    (others : ∀ j q, j ≠ i → before[j]? = some q → holds j q) (j : Nat) (q : π) (at_ : after[j]? = some q) :
    holds j q := by
  by_cases same : j = i
  · subst same
    rw [moves.here] at at_
    cases at_
    exact here
  · exact others j q same (moves.others j same ▸ at_)

theorem Moves.exists_iff (moves : Moves before after i p) {holds : π → Prop} (j : Nat) :
    (∃ q, after[j]? = some q ∧ holds q) ↔ j = i ∧ holds p ∨ j ≠ i ∧ ∃ q, before[j]? = some q ∧ holds q := by
  by_cases same : j = i
  · subst same
    simp [moves.here]
  · simp [moves.others j same, same]

/-- The ranks of all processes change by what the rank of one of them does. -/
theorem sum_rank_set {old : π} (rank : π → Nat) (at_ : before[i]? = some old) :
    ((before.set i p).map rank).sum + rank old = (before.map rank).sum + rank p := by
  induction before generalizing i with
  | nil => simp at at_
  | cons first rest ih =>
    cases i with
    | zero =>
      cases Option.some.inj at_
      simp only [List.set_cons_zero, List.map_cons, List.sum_cons]
      omega
    | succ i =>
      have others := ih (i := i) (by simpa using at_)
      simp only [List.set_cons_succ, List.map_cons, List.sum_cons]
      omega

end Moves

end Transition
