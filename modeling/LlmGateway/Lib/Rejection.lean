import Mathlib.Data.Fintype.BigOperators
import Mathlib.Data.Fintype.Pi
import Mathlib.Algebra.Group.Action.Defs
import Mathlib.Tactic.Ring

namespace Rejection

variable {β γ : Type*}

/-- The first `k` letters that are not rejected. -/
def collect (draw : β → Option γ) : Nat → List β → Option (List γ)
  | 0, _ => some []
  | _ + 1, [] => none
  | k + 1, b :: rest =>
    match draw b with
    | some c => (collect draw k rest).map (c :: ·)
    | none => collect draw (k + 1) rest

section Collect

variable {draw : β → Option γ} {b : β} {k : Nat}

theorem collect_some {c : γ} (drawn : draw b = some c) (rest : List β) :
    collect draw (k + 1) (b :: rest) = (collect draw k rest).map (c :: ·) := by
  simp only [collect, drawn]

theorem collect_none (rejected : draw b = none) (rest : List β) :
    collect draw (k + 1) (b :: rest) = collect draw (k + 1) rest := by
  simp only [collect, rejected]

theorem length_of_collect {draws : List β} {text : List γ} (out : collect draw k draws = some text) :
    text.length = k := by
  induction draws generalizing k text with
  | nil =>
    cases k with
    | zero =>
      cases out
      rfl
    | succ k => cases out
  | cons b rest ih =>
    cases k with
    | zero =>
      cases out
      rfl
    | succ k =>
      cases drawn : draw b with
      | none => exact ih (collect_none drawn rest ▸ out)
      | some c =>
        rw [collect_some drawn] at out
        obtain ⟨others, later, rfl⟩ := Option.map_eq_some_iff.mp out
        rw [List.length_cons, ih later]

theorem mem_of_collect {draws : List β} {text : List γ} (out : collect draw k draws = some text) {c : γ}
    (member : c ∈ text) : ∃ b, draw b = some c := by
  induction draws generalizing k text with
  | nil =>
    cases k with
    | zero =>
      cases out
      cases member
    | succ k => cases out
  | cons b rest ih =>
    cases k with
    | zero =>
      cases out
      cases member
    | succ k =>
      cases drawn : draw b with
      | none => exact ih (collect_none drawn rest ▸ out) member
      | some first =>
        rw [collect_some drawn] at out
        obtain ⟨others, later, rfl⟩ := Option.map_eq_some_iff.mp out
        rcases List.mem_cons.mp member with rfl | inside
        · exact ⟨b, drawn⟩
        · exact ih later inside

theorem collect_replicate {c : γ} (drawn : draw b = some c) {n : Nat} (enough : k ≤ n) :
    collect draw k (List.replicate n b) = some (List.replicate k c) := by
  induction n generalizing k with
  | zero =>
    obtain rfl : k = 0 := by omega
    rfl
  | succ n ih =>
    cases k with
    | zero => rfl
    | succ k => rw [List.replicate_succ, collect_some drawn, ih (by omega), Option.map_some, List.replicate_succ]

end Collect

variable [Fintype β]

open Classical in
/-- The number of sequences of `n` draws with the property. -/
noncomputable def count (n : Nat) (p : List β → Prop) : Nat :=
  (Finset.univ.filter fun draws : Fin n → β => p (List.ofFn draws)).card

section Count

variable {n : Nat}

theorem count_congr {p q : List β → Prop} (same : ∀ draws, p draws ↔ q draws) : count n p = count n q := by
  rw [show p = q from funext fun draws => propext (same draws)]

theorem count_of_false {p : List β → Prop} (never : ∀ draws, ¬ p draws) : count n p = 0 := by
  classical
  rw [count, Finset.card_eq_zero]
  exact Finset.filter_eq_empty_iff.mpr fun draws _ => never _

theorem count_zero_of_not {p : List β → Prop} (never : ¬ p []) : count 0 p = 0 := by
  classical
  rw [count, Finset.card_eq_zero]
  exact Finset.filter_eq_empty_iff.mpr fun draws _ => by simpa using never

theorem count_pos {p : List β → Prop} {b : β} (all : p (List.replicate n b)) : 0 < count n p := by
  classical
  rw [count, Finset.card_pos]
  exact ⟨fun _ => b, by simpa using all⟩

open Classical in
/-- The first draw and the others. -/
theorem count_succ (p : List β → Prop) : count (n + 1) p = ∑ b, count n fun draws => p (b :: draws) := by
  have one (b : β) : (count n fun draws => p (b :: draws)) =
      ∑ draws : Fin n → β, if p (List.ofFn (Fin.cons b draws : Fin (n + 1) → β)) then 1 else 0 := by
    rw [count, Finset.card_filter]
    simp only [List.ofFn_cons]
  simp only [one]
  rw [count, Finset.card_filter, ← Fintype.sum_prod_type', ← (Fin.consEquiv fun _ => β).sum_comp]
  rfl

end Count

variable [DecidableEq γ]

/-- Every letter has `m` draws, and a draw that is not rejected is a letter. -/
structure Fair (draw : β → Option γ) (letters : Finset γ) (m : Nat) : Prop where
  letter : ∀ b c, draw b = some c → c ∈ letters
  fibre : ∀ c ∈ letters, (Finset.univ.filter fun b => draw b = some c).card = m

omit [DecidableEq γ] in
/-- The number of draws that are rejected. -/
def rejects (draw : β → Option γ) : Nat := (Finset.univ.filter fun b => draw b = none).card

variable {draw : β → Option γ} {letters : Finset γ} {m : Nat}

theorem Fair.accepted (fair : Fair draw letters m) :
    (Finset.univ.filter fun b => (draw b).isSome).card = letters.card * m := by
  have maps : ∀ b ∈ Finset.univ.filter fun b => (draw b).isSome, draw b ∈ letters.map .some := by
    intro b member
    obtain ⟨c, drawn⟩ := Option.isSome_iff_exists.mp (Finset.mem_filter.mp member).2
    exact Finset.mem_map.mpr ⟨c, fair.letter b c drawn, drawn.symm⟩
  rw [Finset.card_eq_sum_card_fiberwise maps, Finset.sum_map, ← smul_eq_mul, ← Finset.sum_const]
  refine Finset.sum_congr rfl fun c letter => ?_
  rw [← fair.fibre c letter, Finset.filter_filter]
  congr 1
  refine Finset.filter_congr fun b _ => and_iff_right_of_imp fun drawn => ?_
  rw [show draw b = some c from drawn]
  rfl

omit [DecidableEq γ] in
/-- A draw leads on, or it is rejected and changes nothing. -/
theorem count_draw {p q : List β → Prop} {good : β → Prop} [DecidablePred good] {n : Nat}
    (accepted : ∀ b, good b → draw b ≠ none ∧ ∀ draws, p (b :: draws) ↔ q draws)
    (rejected : ∀ b, draw b = none → ∀ draws, p (b :: draws) ↔ p draws)
    (wrong : ∀ b, ¬ good b → draw b ≠ none → ∀ draws, ¬ p (b :: draws)) :
    count (n + 1) p = (Finset.univ.filter good).card * count n q + rejects draw * count n p := by
  classical
  have one (b : β) : (count n fun draws => p (b :: draws)) =
      (if good b then count n q else 0) + if draw b = none then count n p else 0 := by
    by_cases hit : good b
    · rw [if_pos hit, if_neg (accepted b hit).1, count_congr (accepted b hit).2, add_zero]
    · rw [if_neg hit, zero_add]
      by_cases missed : draw b = none
      · rw [if_pos missed, count_congr (rejected b missed)]
      · rw [if_neg missed, count_of_false (wrong b hit missed)]
  rw [count_succ, Finset.sum_congr rfl fun b _ => one b, Finset.sum_add_distrib, ← Finset.sum_filter,
    ← Finset.sum_filter, Finset.sum_const, Finset.sum_const, smul_eq_mul, smul_eq_mul, rejects]

theorem Fair.count_cons (fair : Fair draw letters m) (n : Nat) {c : γ} (letter : c ∈ letters) (text : List γ) :
    (count (n + 1) fun draws => collect draw (text.length + 1) draws = some (c :: text)) =
      m * (count n fun draws => collect draw text.length draws = some text) +
        rejects draw * count n fun draws => collect draw (text.length + 1) draws = some (c :: text) := by
  rw [← fair.fibre c letter]
  refine count_draw (β := β) ?_ ?_ ?_
  · intro b drawn
    refine ⟨by rw [drawn]; nofun, fun draws => ?_⟩
    rw [collect_some drawn]
    simp
  · intro b rejected draws
    rw [collect_none rejected]
  · intro b other accepted draws
    obtain ⟨c', drawn⟩ := Option.ne_none_iff_exists'.mp accepted
    rw [collect_some drawn]
    rintro out
    obtain ⟨_, _, same⟩ := Option.map_eq_some_iff.mp out
    exact other (by rw [drawn, (List.cons.inj same).1])

theorem Fair.count_isSome (fair : Fair draw letters m) (n k : Nat) :
    (count (n + 1) fun draws => (collect draw (k + 1) draws).isSome) =
      letters.card * m * (count n fun draws => (collect draw k draws).isSome) +
        rejects draw * count n fun draws => (collect draw (k + 1) draws).isSome := by
  rw [← fair.accepted]
  refine count_draw (β := β) ?_ ?_ ?_
  · intro b accepted
    obtain ⟨c, drawn⟩ := Option.isSome_iff_exists.mp accepted
    refine ⟨by rw [drawn]; nofun, fun draws => ?_⟩
    rw [collect_some drawn, Option.isSome_map]
  · intro b rejected draws
    rw [collect_none rejected]
  · intro b other accepted
    exact absurd (Option.isSome_iff_ne_none.mpr accepted) other

/-- All texts of the letters come out equally often: each takes its share of the
sequences of draws that have enough letters. -/
theorem Fair.uniform (fair : Fair draw letters m) (n : Nat) {text : List γ} (spelled : ∀ c ∈ text, c ∈ letters) :
    (count n fun draws => collect draw text.length draws = some text) * letters.card ^ text.length =
      count n fun draws => (collect draw text.length draws).isSome := by
  induction n generalizing text with
  | zero =>
    cases text with
    | nil => simp [collect]
    | cons c text => rw [count_zero_of_not (by simp [collect]), count_zero_of_not (by simp [collect]), zero_mul]
  | succ n ih =>
    cases text with
    | nil => simp [collect]
    | cons c text =>
      have rest := ih (List.forall_mem_cons.mp spelled).2
      have whole := ih spelled
      rw [List.length_cons] at whole ⊢
      rw [fair.count_cons n (spelled c List.mem_cons_self), fair.count_isSome, ← whole, ← rest, pow_succ]
      ring

end Rejection
