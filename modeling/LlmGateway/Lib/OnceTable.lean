import LlmGateway.Lib.Transition
import Mathlib.Logic.Function.Basic
import Mathlib.Tactic.Tauto

namespace OnceTable

open Transition (Moves moves_set moves_concat)

/-- The `Once` of a key runs the action of the first caller and makes the others wait for
it. An entry is stored by whoever misses it first and is never replaced. -/
inductive Once where
  | idle
  | running
  | done
deriving DecidableEq, Repr

/-- Where a caller stands with the first item it has to do: before the lookup, after
a miss, at the `Once` of the key, in the action, or behind it with the `Once` still to
be marked. -/
inductive PC where
  | lookup
  | storing
  | waiting
  | acting
  | leaving
deriving DecidableEq, Repr

/-- A caller with the items it has to do and those it is through with. -/
structure Caller (π : Type*) where
  todo : List π
  pc : PC
  passed : List π

/-- The map, its callers and the items acted on. -/
structure Table (κ π : Type*) where
  slots : κ → Option Once
  callers : List (Caller π)
  acted : List π

inductive Action (π : Type*) where
  | enter (items : List π)
  | move (caller : Nat)

variable {κ π : Type*} (key : π → κ)

def start : Table κ π := ⟨fun _ => none, [], []⟩

/-- The caller is at the place with an item of the key. -/
def Stands (k : κ) (pc : PC) (caller : Caller π) : Prop :=
  ∃ item rest, caller.todo = item :: rest ∧ key item = k ∧ caller.pc = pc

def At (s : Table κ π) (k : κ) (pc : PC) (i : Nat) : Prop :=
  ∃ caller, s.callers[i]? = some caller ∧ Stands key k pc caller

/-- The caller has been let in by the `Once` of the key. -/
def Inside (s : Table κ π) (k : κ) (i : Nat) : Prop := At key s k .acting i ∨ At key s k .leaving i

/-- A caller is through with an item of the key. -/
def Passed (s : Table κ π) (k : κ) : Prop :=
  ∃ i : Nat, ∃ caller, s.callers[i]? = some caller ∧ ∃ item ∈ caller.passed, key item = k

section Places

variable {key} {s t : Table κ π} {i : Nat} {caller after : Caller π} {item : π} {rest : List π}

theorem at_moves (moves : Moves s.callers t.callers i after) {k : κ} {pc : PC} {j : Nat} :
    At key t k pc j ↔ j = i ∧ Stands key k pc after ∨ j ≠ i ∧ At key s k pc j :=
  moves.exists_iff j

theorem inside_moves (moves : Moves s.callers t.callers i after) {k : κ} {j : Nat} :
    Inside key t k j ↔
      j = i ∧ (Stands key k .acting after ∨ Stands key k .leaving after) ∨ j ≠ i ∧ Inside key s k j := by
  rw [Inside, Inside, at_moves moves, at_moves moves]
  tauto

/-- A caller stands at one place with one key. -/
theorem stands_iff (head : caller.todo = item :: rest) {k : κ} {pc : PC} :
    Stands key k pc caller ↔ key item = k ∧ caller.pc = pc := by
  constructor
  · rintro ⟨first, others, todo, same, place⟩
    obtain ⟨rfl, -⟩ := List.cons.inj (head.symm.trans todo)
    exact ⟨same, place⟩
  · rintro ⟨same, place⟩
    exact ⟨item, rest, head, same, place⟩

theorem Stands.pc_eq {k : κ} {pc : PC} (stands : Stands key k pc caller) : caller.pc = pc := by
  obtain ⟨-, -, -, -, place⟩ := stands
  exact place

theorem at_here (here : s.callers[i]? = some caller) {k : κ} {pc : PC} :
    At key s k pc i ↔ Stands key k pc caller := by
  simp [At, here]

end Places

variable [DecidableEq κ]

/-- The next atomic step of a caller on the item: `Load`, `LoadOrStore` after a miss,
and `Do`, which lets one caller in and holds the others back until it is through. -/
def move (s : Table κ π) (i : Nat) (caller : Caller π) (item : π) (rest : List π) : Option (Table κ π) :=
  let goto (pc : PC) := s.callers.set i { caller with pc := pc }
  let through := s.callers.set i ⟨rest, .lookup, caller.passed ++ [item]⟩
  match caller.pc with
  | .lookup =>
    match s.slots (key item) with
    | some _ => some { s with callers := goto .waiting }
    | none => some { s with callers := goto .storing }
  | .storing =>
    match s.slots (key item) with
    | some _ => some { s with callers := goto .waiting }
    | none => some { s with
        slots := Function.update s.slots (key item) (some .idle)
        callers := goto .waiting }
  | .waiting =>
    match s.slots (key item) with
    | some .done => some { s with callers := through }
    | some .idle => some { s with
        slots := Function.update s.slots (key item) (some .running)
        callers := goto .acting }
    | _ => none
  | .acting => some { s with acted := s.acted ++ [item], callers := goto .leaving }
  | .leaving => some { s with
      slots := Function.update s.slots (key item) (some .done)
      callers := through }

def step (s : Table κ π) : Action π → Option (Table κ π)
  | .enter items => some { s with callers := s.callers ++ [⟨items, .lookup, []⟩] }
  | .move i =>
    match s.callers[i]? with
    | some caller =>
      match caller.todo with
      | item :: rest => move key s i caller item rest
      | [] => none
    | none => none

/-- What a move does, by the place of the caller and the entry of the key. -/
inductive Moved (s : Table κ π) (i : Nat) (caller : Caller π) (item : π) (rest : List π) : Table κ π → Prop
  | found (place : caller.pc = .lookup ∨ caller.pc = .storing) (slot : s.slots (key item) ≠ none) :
    Moved s i caller item rest { s with callers := s.callers.set i { caller with pc := .waiting } }
  | missed (place : caller.pc = .lookup) (slot : s.slots (key item) = none) :
    Moved s i caller item rest { s with callers := s.callers.set i { caller with pc := .storing } }
  | stored (place : caller.pc = .storing) (slot : s.slots (key item) = none) :
    Moved s i caller item rest { s with
      slots := Function.update s.slots (key item) (some .idle)
      callers := s.callers.set i { caller with pc := .waiting } }
  | late (place : caller.pc = .waiting) (slot : s.slots (key item) = some .done) :
    Moved s i caller item rest { s with callers := s.callers.set i ⟨rest, .lookup, caller.passed ++ [item]⟩ }
  | first (place : caller.pc = .waiting) (slot : s.slots (key item) = some .idle) :
    Moved s i caller item rest { s with
      slots := Function.update s.slots (key item) (some .running)
      callers := s.callers.set i { caller with pc := .acting } }
  | acts (place : caller.pc = .acting) :
    Moved s i caller item rest { s with
      acted := s.acted ++ [item]
      callers := s.callers.set i { caller with pc := .leaving } }
  | leaves (place : caller.pc = .leaving) :
    Moved s i caller item rest { s with
      slots := Function.update s.slots (key item) (some .done)
      callers := s.callers.set i ⟨rest, .lookup, caller.passed ++ [item]⟩ }

variable {key} {s t : Table κ π} {i : Nat} {caller : Caller π} {item : π} {rest : List π}

theorem moved_of_move (moved : move key s i caller item rest = some t) : Moved key s i caller item rest t := by
  unfold move at moved
  cases place : caller.pc with
  | lookup =>
    cases slot : s.slots (key item) with
    | none =>
      simp only [place, slot, Option.some.injEq] at moved
      exact moved ▸ .missed place slot
    | some once =>
      simp only [place, slot, Option.some.injEq] at moved
      exact moved ▸ .found (.inl place) (by simp [slot])
  | storing =>
    cases slot : s.slots (key item) with
    | none =>
      simp only [place, slot, Option.some.injEq] at moved
      exact moved ▸ .stored place slot
    | some once =>
      simp only [place, slot, Option.some.injEq] at moved
      exact moved ▸ .found (.inr place) (by simp [slot])
  | waiting =>
    cases slot : s.slots (key item) with
    | none => simp [place, slot] at moved
    | some once =>
      cases once with
      | idle =>
        simp only [place, slot, Option.some.injEq] at moved
        exact moved ▸ .first place slot
      | running => simp [place, slot] at moved
      | done =>
        simp only [place, slot, Option.some.injEq] at moved
        exact moved ▸ .late place slot
  | acting =>
    simp only [place, Option.some.injEq] at moved
    exact moved ▸ .acts place
  | leaving =>
    simp only [place, Option.some.injEq] at moved
    exact moved ▸ .leaves place

/-- A step lets a new caller in or moves one that has something to do. -/
theorem step_cases {a : Action π} (stepped : step key s a = some t) :
    (∃ items, a = .enter items ∧ t = { s with callers := s.callers ++ [⟨items, .lookup, []⟩] }) ∨
    ∃ i caller item rest, a = .move i ∧ s.callers[i]? = some caller ∧ caller.todo = item :: rest ∧
      Moved key s i caller item rest t := by
  cases a with
  | enter items => exact .inl ⟨items, rfl, (Option.some.inj stepped).symm⟩
  | move i =>
    simp only [step] at stepped
    cases here : s.callers[i]? with
    | none => simp [here] at stepped
    | some caller =>
      cases head : caller.todo with
      | nil => simp [here, head] at stepped
      | cons item rest =>
        simp only [here, head] at stepped
        exact .inr ⟨i, caller, item, rest, rfl, here, head, moved_of_move stepped⟩

variable (key) in
/-- How often an item with the key has been acted on. -/
def count (s : Table κ π) (k : κ) : Nat := s.acted.countP fun item => key item = k

variable (key) in
/-- What the entry of a key says about its callers and its actions. -/
inductive Phase (s : Table κ π) (k : κ) : Prop
  | missing (slot : s.slots k = none) (waits : ∀ i, ¬ At key s k .waiting i) (outside : ∀ i, ¬ Inside key s k i)
    (early : ¬ Passed key s k) (never : count key s k = 0)
  | idle (slot : s.slots k = some .idle) (outside : ∀ i, ¬ Inside key s k i)
    (early : ¬ Passed key s k) (never : count key s k = 0)
  | acting (i : Nat) (slot : s.slots k = some .running) (acts : At key s k .acting i)
    (alone : ∀ j, Inside key s k j → j = i) (early : ¬ Passed key s k) (never : count key s k = 0)
  | leaving (i : Nat) (slot : s.slots k = some .running) (leaves : At key s k .leaving i)
    (alone : ∀ j, Inside key s k j → j = i) (early : ¬ Passed key s k) (once : count key s k = 1)
  | done (slot : s.slots k = some .done) (outside : ∀ i, ¬ Inside key s k i) (once : count key s k = 1)

theorem phase_start (k : κ) : Phase key (start : Table κ π) k :=
  .missing rfl (by simp [start, At]) (by simp [start, Inside, At]) (by simp [start, Passed]) (by simp [start, count])

variable {k : κ} {after : Caller π}

/-- The phase of a key depends on its own callers only. -/
theorem Phase.frame (phase : Phase key s k) (slot : t.slots k = s.slots k) (same : count key t k = count key s k)
    (acting : ∀ j, At key t k .acting j ↔ At key s k .acting j)
    (leaving : ∀ j, At key t k .leaving j ↔ At key s k .leaving j)
    (waits : s.slots k = none → ∀ j, At key t k .waiting j → At key s k .waiting j)
    (passes : s.slots k ≠ some .done → Passed key t k → Passed key s k) : Phase key t k := by
  have inside (j : Nat) : Inside key t k j ↔ Inside key s k j := by
    rw [Inside, Inside, acting, leaving]
  cases phase with
  | missing empty unseen outside early never =>
    exact .missing (slot.trans empty) (fun j new => unseen j (waits empty j new))
      (fun j => (inside j).not.mpr (outside j)) (fun new => early (passes (by simp [empty]) new)) (same.trans never)
  | idle held outside early never =>
    exact .idle (slot.trans held) (fun j => (inside j).not.mpr (outside j))
      (fun new => early (passes (by simp [held]) new)) (same.trans never)
  | acting i held acts alone early never =>
    exact .acting i (slot.trans held) ((acting i).mpr acts) (fun j new => alone j ((inside j).mp new))
      (fun new => early (passes (by simp [held]) new)) (same.trans never)
  | leaving i held leaves alone early once =>
    exact .leaving i (slot.trans held) ((leaving i).mpr leaves) (fun j new => alone j ((inside j).mp new))
      (fun new => early (passes (by simp [held]) new)) (same.trans once)
  | done held outside once =>
    exact .done (slot.trans held) (fun j => (inside j).not.mpr (outside j)) (same.trans once)

/-- A move with an item of another key. -/
theorem Phase.other (phase : Phase key s k) (here : s.callers[i]? = some caller) (head : caller.todo = item :: rest)
    (other : key item ≠ k) (moves : Moves s.callers t.callers i after) (slot : t.slots k = s.slots k)
    (same : count key t k = count key s k) (place : ∀ pc, Stands key k pc after → pc = .lookup)
    (passes : ∀ x ∈ after.passed, key x = k → x ∈ caller.passed) : Phase key t k := by
  have unmoved (pc : PC) (beyond : pc ≠ .lookup) (j : Nat) : At key t k pc j ↔ At key s k pc j := by
    rw [at_moves moves]
    constructor
    · rintro (⟨-, new⟩ | ⟨-, old⟩)
      · exact absurd (place pc new) beyond
      · exact old
    · intro old
      refine .inr ⟨?_, old⟩
      rintro rfl
      exact other ((stands_iff head).mp ((at_here here).mp old)).1
  refine phase.frame slot same (unmoved _ nofun) (unmoved _ nofun) (fun _ j => (unmoved .waiting nofun j).mp) ?_
  rintro - ⟨j, passed⟩
  rcases (moves.exists_iff j).mp passed with ⟨-, x, member, named⟩ | ⟨-, old⟩
  · exact ⟨i, caller, here, x, passes x member named, named⟩
  · exact ⟨j, old⟩

/-- A move of a caller that stays outside and marks nothing. -/
theorem Phase.quiet (phase : Phase key s k) (here : s.callers[i]? = some caller)
    (out : caller.pc ≠ .acting ∧ caller.pc ≠ .leaving) (moves : Moves s.callers t.callers i after)
    (stays : after.pc ≠ .acting ∧ after.pc ≠ .leaving) (slot : t.slots = s.slots) (acted : t.acted = s.acted)
    (waits : Stands key k .waiting after → s.slots k ≠ none)
    (passes : ∀ x ∈ after.passed, key x = k → x ∈ caller.passed ∨ s.slots k = some .done) : Phase key t k := by
  have unmoved (pc : PC) (before : caller.pc ≠ pc) (behind : after.pc ≠ pc) (j : Nat) :
      At key t k pc j ↔ At key s k pc j := by
    rw [at_moves moves]
    constructor
    · rintro (⟨-, new⟩ | ⟨-, old⟩)
      · exact absurd new.pc_eq behind
      · exact old
    · intro old
      refine .inr ⟨?_, old⟩
      rintro rfl
      exact before ((at_here here).mp old).pc_eq
  refine phase.frame (by rw [slot]) (by rw [count, acted, count]) (unmoved _ out.1 stays.1)
    (unmoved _ out.2 stays.2) ?_ ?_
  · intro empty j new
    rcases (at_moves moves).mp new with ⟨-, standing⟩ | ⟨-, old⟩
    · exact absurd empty (waits standing)
    · exact old
  · rintro unfinished ⟨j, passed⟩
    rcases (moves.exists_iff j).mp passed with ⟨-, x, member, named⟩ | ⟨-, old⟩
    · rcases passes x member named with before | marked
      · exact ⟨i, caller, here, x, before, named⟩
      · exact absurd marked unfinished
    · exact ⟨j, old⟩

/-- The phases at the end of a move on the item's own key. -/
theorem Phase.own (phase : Phase key s (key item)) (here : s.callers[i]? = some caller)
    (head : caller.todo = item :: rest) (moved : Moved key s i caller item rest t) : Phase key t (key item) := by
  have at_ : At key s (key item) caller.pc i := (at_here here).mpr ((stands_iff head).mpr ⟨rfl, rfl⟩)
  have same {pc : PC} (passed : Passed key { s with callers := s.callers.set i { caller with pc := pc } } (key item)) :
      Passed key s (key item) := by
    obtain ⟨j, there⟩ := passed
    rcases ((moves_set here).exists_iff j).mp there with ⟨-, x, member, named⟩ | ⟨-, old⟩
    · exact ⟨i, caller, here, x, member, named⟩
    · exact ⟨j, old⟩
  cases moved with
  | found place slot =>
    refine phase.quiet here ?_ (moves_set here) (by simp) rfl rfl (fun _ => slot) fun x member _ => .inl member
    rcases place with place | place <;> simp [place]
  | missed place slot =>
    exact phase.quiet here (by simp [place]) (moves_set here) (by simp) rfl rfl (fun new => nomatch new.pc_eq)
      fun x member _ => .inl member
  | late place slot =>
    exact phase.quiet here (by simp [place]) (moves_set here) (by simp) rfl rfl (fun new => nomatch new.pc_eq)
      fun _ _ _ => .inr slot
  | stored place slot =>
    cases phase with
    | missing _ _ outside early never =>
      refine .idle (Function.update_self ..) ?_ (fun passed => early (same passed)) never
      intro j inside
      rcases (inside_moves (moves_set here)).mp inside with ⟨-, acts | leaves⟩ | ⟨-, old⟩
      · cases acts.pc_eq
      · cases leaves.pc_eq
      · exact outside j old
    | idle held => simp [slot] at held
    | acting _ held => simp [slot] at held
    | leaving _ held => simp [slot] at held
    | done held => simp [slot] at held
  | first place slot =>
    cases phase with
    | idle _ outside early never =>
      refine .acting i (Function.update_self ..) ?_ ?_ (fun passed => early (same passed)) never
      · have stands : Stands key (key item) .acting { caller with pc := .acting } := ⟨item, rest, head, rfl, rfl⟩
        exact (at_moves (moves_set here)).mpr (.inl ⟨rfl, stands⟩)
      · intro j inside
        rcases (inside_moves (moves_set here)).mp inside with ⟨there, -⟩ | ⟨-, old⟩
        · exact there
        · exact absurd old (outside j)
    | missing held => simp [slot] at held
    | acting _ held => simp [slot] at held
    | leaving _ held => simp [slot] at held
    | done held => simp [slot] at held
  | acts place =>
    rw [place] at at_
    cases phase with
    | acting j held _ alone early never =>
      refine .leaving i held ?_ ?_ (fun passed => early (same passed)) ?_
      · have stands : Stands key (key item) .leaving { caller with pc := .leaving } := ⟨item, rest, head, rfl, rfl⟩
        exact (at_moves (moves_set here)).mpr (.inl ⟨rfl, stands⟩)
      · intro j' inside
        rcases (inside_moves (moves_set here)).mp inside with ⟨there, -⟩ | ⟨-, old⟩
        · exact there
        · exact (alone j' old).trans (alone i (.inl at_)).symm
      · have counted : (s.acted ++ [item]).countP (fun x => key x = key item) = count key s (key item) + 1 := by
          simp [count, List.countP_append]
        exact counted.trans (by rw [never])
    | leaving j _ leaves alone =>
      cases alone i (.inl at_)
      cases place.symm.trans ((at_here here).mp leaves).pc_eq
    | missing _ _ outside => exact absurd (.inl at_) (outside i)
    | idle _ outside => exact absurd (.inl at_) (outside i)
    | done _ outside => exact absurd (.inl at_) (outside i)
  | leaves place =>
    rw [place] at at_
    cases phase with
    | leaving j _ _ alone _ once =>
      refine .done (Function.update_self ..) ?_ once
      intro j' inside
      rcases (inside_moves (moves_set here)).mp inside with ⟨-, acts | leaves⟩ | ⟨there, old⟩
      · cases acts.pc_eq
      · cases leaves.pc_eq
      · exact there ((alone j' old).trans (alone i (.inr at_)).symm)
    | acting j _ acts alone =>
      cases alone i (.inr at_)
      cases place.symm.trans ((at_here here).mp acts).pc_eq
    | missing _ _ outside => exact absurd (.inr at_) (outside i)
    | idle _ outside => exact absurd (.inr at_) (outside i)
    | done _ outside => exact absurd (.inr at_) (outside i)

/-- A move with an item of another key leaves the phase of this one alone. -/
theorem Phase.elsewhere (phase : Phase key s k) (here : s.callers[i]? = some caller)
    (head : caller.todo = item :: rest) (other : key item ≠ k) (moved : Moved key s i caller item rest t) :
    Phase key t k := by
  have slot (o : Once) : Function.update s.slots (key item) (some o) k = s.slots k :=
    Function.update_of_ne (Ne.symm other) ..
  have goes {pc pc' : PC} (stands : Stands key k pc' { caller with pc := pc }) : pc' = .lookup := by
    obtain ⟨x, others, first, named, -⟩ := stands
    obtain ⟨rfl, -⟩ := List.cons.inj (head.symm.trans first)
    exact absurd named other
  have resets {pc : PC} (stands : Stands key k pc ⟨rest, .lookup, caller.passed ++ [item]⟩) : pc = .lookup :=
    stands.pc_eq.symm
  have through : ∀ x ∈ caller.passed ++ [item], key x = k → x ∈ caller.passed := by
    intro x member named
    rcases List.mem_append.mp member with old | new
    · exact old
    · exact absurd (List.mem_singleton.mp new ▸ named) other
  cases moved with
  | found => exact phase.other here head other (moves_set here) rfl rfl (fun _ => goes) fun _ member _ => member
  | missed => exact phase.other here head other (moves_set here) rfl rfl (fun _ => goes) fun _ member _ => member
  | stored => exact phase.other here head other (moves_set here) (slot _) rfl (fun _ => goes) fun _ member _ => member
  | late => exact phase.other here head other (moves_set here) rfl rfl (fun _ => resets) through
  | first => exact phase.other here head other (moves_set here) (slot _) rfl (fun _ => goes) fun _ member _ => member
  | acts =>
    refine phase.other here head other (moves_set here) rfl ?_ (fun _ => goes) fun _ member _ => member
    simp [count, List.countP_append, other]
  | leaves => exact phase.other here head other (moves_set here) (slot _) rfl (fun _ => resets) through

theorem Phase.enter (phase : Phase key s k) (items : List π) :
    Phase key { s with callers := s.callers ++ [⟨items, .lookup, []⟩] } k := by
  have unmoved (pc : PC) (beyond : pc ≠ .lookup) (j : Nat) :
      At key { s with callers := s.callers ++ [⟨items, .lookup, []⟩] } k pc j ↔ At key s k pc j := by
    rw [at_moves moves_concat]
    constructor
    · rintro (⟨-, new⟩ | ⟨-, old⟩)
      · exact absurd new.pc_eq.symm beyond
      · exact old
    · intro old
      refine .inr ⟨?_, old⟩
      rintro rfl
      simp [At] at old
  refine phase.frame rfl rfl (unmoved _ nofun) (unmoved _ nofun) (fun _ j => (unmoved .waiting nofun j).mp) ?_
  rintro - ⟨j, passed⟩
  rcases (moves_concat.exists_iff j).mp passed with ⟨-, x, member, -⟩ | ⟨-, old⟩
  · cases member
  · exact ⟨j, old⟩

theorem Phase.step {a : Action π} (phase : ∀ k, Phase key s k) (stepped : step key s a = some t) (k : κ) :
    Phase key t k := by
  rcases step_cases stepped with ⟨items, -, rfl⟩ | ⟨i, caller, item, rest, -, here, head, moved⟩
  · exact (phase k).enter items
  · by_cases same : key item = k
    · subst same
      exact (phase _).own here head moved
    · exact (phase k).elsewhere here head same moved

/-- Every key is in one of its phases after every run. -/
theorem phase_run {actions : List (Action π)} (taken : Transition.run (step key) start actions = some s) (k : κ) :
    Phase key s k :=
  Transition.run_invariant (fun _ _ _ phase stepped => Phase.step phase stepped) phase_start taken k

theorem Phase.count_le (phase : Phase key s k) : count key s k ≤ 1 := by
  cases phase with
  | missing _ _ _ _ never => omega
  | idle _ _ _ never => omega
  | acting _ _ _ _ _ never => omega
  | leaving _ _ _ _ _ once => omega
  | done _ _ once => omega

theorem Phase.count_passed (phase : Phase key s k) (passed : Passed key s k) : count key s k = 1 := by
  cases phase with
  | missing _ _ _ early => exact absurd passed early
  | idle _ _ early => exact absurd passed early
  | acting _ _ _ _ early => exact absurd passed early
  | leaving _ _ _ _ early => exact absurd passed early
  | done _ _ once => exact once

/-- No two of the items acted on have the same key. -/
theorem acted_nodup (phase : ∀ k, Phase key s k) : (s.acted.map key).Nodup := by
  rw [List.nodup_iff_count]
  intro k
  rw [List.count, List.countP_map]
  exact (phase k).count_le

theorem Phase.acted_of_passed (phase : Phase key s k) (passed : Passed key s k) : ∃ item ∈ s.acted, key item = k := by
  have once : s.acted.countP (fun item => key item = k) = 1 := phase.count_passed passed
  obtain ⟨item, member, named⟩ := List.countP_pos_iff.mp (by omega : 0 < s.acted.countP fun item => key item = k)
  exact ⟨item, member, by simpa using named⟩

/-- A caller that has to wait waits for another one that can go on. -/
theorem Phase.can_move (phase : Phase key s (key item)) (here : s.callers[i]? = some caller)
    (head : caller.todo = item :: rest) : ∃ j, (OnceTable.step key s (.move j)).isSome := by
  have behind {j : Nat} {pc : PC} (at_ : At key s (key item) pc j) (inner : pc = .acting ∨ pc = .leaving) :
      (OnceTable.step key s (.move j)).isSome := by
    obtain ⟨other, there, x, others, first, -, place⟩ := at_
    rcases inner with rfl | rfl <;> simp [OnceTable.step, move, there, first, place]
  cases phase with
  | acting j _ acts => exact ⟨j, behind acts (.inl rfl)⟩
  | leaving j _ leaves => exact ⟨j, behind leaves (.inr rfl)⟩
  | missing slot waits =>
    refine ⟨i, ?_⟩
    cases place : caller.pc with
    | waiting => exact absurd ((at_here here).mpr ((stands_iff head).mpr ⟨rfl, place⟩)) (waits i)
    | lookup => simp [OnceTable.step, move, here, head, place, slot]
    | storing => simp [OnceTable.step, move, here, head, place, slot]
    | acting => simp [OnceTable.step, move, here, head, place]
    | leaving => simp [OnceTable.step, move, here, head, place]
  | idle slot =>
    refine ⟨i, ?_⟩
    cases place : caller.pc <;> simp [OnceTable.step, move, here, head, place, slot]
  | done slot =>
    refine ⟨i, ?_⟩
    cases place : caller.pc <;> simp [OnceTable.step, move, here, head, place, slot]

/-- All a caller was given to do. -/
def Caller.given (caller : Caller π) : List π := caller.passed ++ caller.todo

def Action.entered : Action π → Option (List π)
  | .enter items => some items
  | .move _ => none

omit [DecidableEq κ] in
theorem map_given_set (here : s.callers[i]? = some caller) {after : Caller π} (same : after.given = caller.given) :
    (s.callers.set i after).map Caller.given = s.callers.map Caller.given := by
  rw [List.map_set, same]
  refine List.ext_getElem? fun j => ?_
  by_cases there : i = j
  · subst there
    obtain ⟨bound, found⟩ := List.getElem?_eq_some_iff.mp here
    simp [bound, found]
  · simp [List.getElem?_set_ne there]

theorem Moved.given (here : s.callers[i]? = some caller) (head : caller.todo = item :: rest)
    (moved : Moved key s i caller item rest t) : t.callers.map Caller.given = s.callers.map Caller.given := by
  have through : Caller.given ⟨rest, .lookup, caller.passed ++ [item]⟩ = caller.given := by
    simp [Caller.given, head]
  cases moved with
  | late => exact map_given_set here through
  | leaves => exact map_given_set here through
  | found => exact map_given_set here rfl
  | missed => exact map_given_set here rfl
  | stored => exact map_given_set here rfl
  | first => exact map_given_set here rfl
  | acts => exact map_given_set here rfl

/-- The callers are those that entered, with what they were given. -/
theorem given_run {actions : List (Action π)} (taken : Transition.run (step key) start actions = some s) :
    s.callers.map Caller.given = actions.filterMap Action.entered := by
  refine Transition.run_induction (motive := fun actions s => s.callers.map Caller.given =
    actions.filterMap Action.entered) rfl ?_ taken
  intro before s a t _ given stepped
  rw [List.filterMap_append, ← given]
  rcases step_cases stepped with ⟨items, rfl, rfl⟩ | ⟨i, caller, item, rest, rfl, here, head, moved⟩
  · simp [Caller.given, Action.entered]
  · simp [moved.given here head, Action.entered]

/-- Only what a caller was given is acted on. -/
theorem acted_given {actions : List (Action π)} (taken : Transition.run (step key) start actions = some s) :
    ∀ item ∈ s.acted, ∃ items ∈ s.callers.map Caller.given, item ∈ items := by
  refine Transition.run_induction (motive := fun _ s => ∀ item ∈ s.acted, ∃ items ∈ s.callers.map Caller.given,
    item ∈ items) (by simp [start]) ?_ taken
  intro _ s a t _ held stepped
  rcases step_cases stepped with ⟨items, -, rfl⟩ | ⟨i, caller, item, rest, -, here, head, moved⟩
  · intro item member
    obtain ⟨given, listed, inside⟩ := held item member
    exact ⟨given, by simp_all, inside⟩
  · rw [moved.given here head]
    cases moved with
    | acts =>
      intro x member
      rcases List.mem_append.mp member with old | new
      · exact held x old
      · obtain rfl := List.mem_singleton.mp new
        exact ⟨caller.given, List.mem_map_of_mem (List.mem_of_getElem? here), by simp [Caller.given, head]⟩
    | found => exact held
    | missed => exact held
    | stored => exact held
    | late => exact held
    | first => exact held
    | leaves => exact held

def PC.passed : PC → Nat
  | .lookup => 0
  | .storing => 1
  | .waiting => 2
  | .acting => 3
  | .leaving => 4

/-- A bound on the moves a caller still makes. -/
def Caller.left (caller : Caller π) : Nat := 5 * caller.todo.length - caller.pc.passed

def Table.left (s : Table κ π) : Nat := (s.callers.map Caller.left).sum

omit [DecidableEq κ] in
theorem left_set (here : s.callers[i]? = some caller) {after : Caller π} (less : after.left < caller.left) :
    ((s.callers.set i after).map Caller.left).sum < s.left := by
  have changed := Transition.sum_rank_set (p := after) Caller.left here
  rw [Table.left]
  omega

theorem Moved.left (here : s.callers[i]? = some caller) (head : caller.todo = item :: rest)
    (moved : Moved key s i caller item rest t) : t.left < s.left := by
  have length : caller.todo.length = rest.length + 1 := by rw [head, List.length_cons]
  have before : caller.left = 5 * (rest.length + 1) - caller.pc.passed := by rw [Caller.left, length]
  have last : caller.pc.passed ≤ 4 := by cases caller.pc <;> simp [PC.passed]
  have goes {pc : PC} (ahead : caller.pc.passed < pc.passed) : Caller.left { caller with pc := pc } < caller.left := by
    have behind : Caller.left { caller with pc := pc } = 5 * (rest.length + 1) - pc.passed := by
      rw [Caller.left, length]
    omega
  have resets : Caller.left ⟨rest, .lookup, caller.passed ++ [item]⟩ < caller.left := by
    have behind : Caller.left ⟨rest, .lookup, caller.passed ++ [item]⟩ = 5 * rest.length := rfl
    omega
  cases moved with
  | found place =>
    refine left_set here (goes ?_)
    rcases place with place | place <;> simp [place, PC.passed]
  | missed place => exact left_set here (goes (by simp [place, PC.passed]))
  | stored place => exact left_set here (goes (by simp [place, PC.passed]))
  | late => exact left_set here resets
  | first place => exact left_set here (goes (by simp [place, PC.passed]))
  | acts place => exact left_set here (goes (by simp [place, PC.passed]))
  | leaves => exact left_set here resets

omit [DecidableEq κ] in
theorem left_le_todo (s : Table κ π) : s.left ≤ 5 * (s.callers.map fun caller => caller.todo.length).sum := by
  rw [Table.left]
  induction s.callers with
  | nil => simp
  | cons caller rest ih =>
    have first : caller.left ≤ 5 * caller.todo.length := Nat.sub_le _ _
    simp only [List.map_cons, List.sum_cons]
    omega

/-- With no new callers the moves come to an end, and the end is reached only
when everybody is through. -/
theorem winds_down (phase : ∀ k, Phase key s k) {moves : List Nat}
    (taken : Transition.run (fun s i => step key s (.move i)) s moves = some t) :
    moves.length + t.left ≤ s.left ∧
      ((∀ i, step key t (.move i) = none) → ∀ caller ∈ t.callers, caller.todo = []) := by
  have keep (s : Table κ π) (i : Nat) (t : Table κ π) (held : ∀ k, Phase key s k)
      (stepped : step key s (.move i) = some t) : ∀ k, Phase key t k := Phase.step held stepped
  constructor
  · refine Transition.run_length_le keep ?_ phase taken
    intro s i t _ stepped
    rcases step_cases stepped with ⟨_, entered, -⟩ | ⟨_, _, _, _, -, here, head, moved⟩
    · cases entered
    · exact moved.left here head
  · intro stuck caller member
    have held := Transition.run_invariant keep phase taken
    obtain ⟨i, here⟩ := List.mem_iff_getElem?.mp member
    cases head : caller.todo with
    | nil => rfl
    | cons item rest =>
      obtain ⟨j, moves⟩ := (held (key item)).can_move here head
      rw [stuck j] at moves
      cases moves

end OnceTable
