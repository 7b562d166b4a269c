import Mathlib.Algebra.Order.Field.Basic
import Mathlib.Order.Interval.Set.Defs
import LlmGateway.Lib.Cumulative
import LlmGateway.Router.Strategy

namespace LlmGateway

open Cumulative

/-- The weight that counts: a negative one is no weight. -/
def Candidate.share (c : Candidate) : Int := max c.weight 0

theorem Candidate.share_nonneg (c : Candidate) : 0 ≤ c.share := le_max_right _ _

theorem Candidate.share_of_pos {c : Candidate} (positive : 0 < c.weight) : c.share = c.weight :=
  max_eq_left positive.le

theorem Candidate.share_of_nonpos {c : Candidate} (nonpos : c.weight ≤ 0) : c.share = 0 := max_eq_right nonpos

/-- The total of the positive weights, `T`. -/
def shareTotal (candidates : List Candidate) : Int := total Candidate.share candidates

/-- The positive weights before an index, `S_i`. -/
def shareBefore (candidates : List Candidate) (i : Nat) : Int := before Candidate.share candidates i

/-- The sum of the first loop does not wrap when the total fits. -/
theorem foldl_weights {candidates : List Candidate} {sum : Int} (nonneg : 0 ≤ sum)
    (fits : sum + shareTotal candidates < 2 ^ 63) :
    candidates.foldl (fun total c => if c.weight < 0 then total else wrap64 (total + c.weight)) sum =
      sum + shareTotal candidates := by
  induction candidates generalizing sum with
  | nil => simp [shareTotal]
  | cons c rest ih =>
    have later : 0 ≤ shareTotal rest := total_nonneg Candidate.share_nonneg
    have split : shareTotal (c :: rest) = c.share + shareTotal rest := total_cons c
    rw [List.foldl_cons]
    split
    · rename_i negative
      have nothing := Candidate.share_of_nonpos negative.le
      rw [ih nonneg (by omega)]
      omega
    · rename_i counted
      have weight : c.share = c.weight := max_eq_left (by omega)
      have kept : wrap64 (sum + c.weight) = sum + c.weight := wrap64_of_fits (by omega) (by omega)
      rw [kept, ih (by omega) (by omega)]
      omega

theorem totalWeight_eq {candidates : List Candidate} (fits : shareTotal candidates < 2 ^ 63) :
    totalWeight candidates = shareTotal candidates := by
  rw [totalWeight, foldl_weights le_rfl (by omega), zero_add]

/-- The scan stops at the candidate whose interval holds the pick: the candidates
before it are skipped or passed. -/
theorem pickWeighted_holds {candidates : List Candidate} {pick cursor : ℚ} {i : Nat} {c : Candidate}
    (at_ : candidates[i]? = some c) (low : shareBefore candidates i ≤ pick - cursor)
    (high : pick - cursor < shareBefore candidates i + c.share) : pickWeighted pick cursor candidates = some c := by
  induction candidates generalizing cursor i with
  | nil => simp at at_
  | cons first rest ih =>
    rw [pickWeighted]
    cases i with
    | zero =>
      obtain rfl : first = c := by simpa using at_
      simp only [shareBefore, before_zero, Int.cast_zero, zero_add] at low high
      have counted : ¬ first.weight ≤ 0 := by
        intro nonpos
        rw [Candidate.share_of_nonpos nonpos, Int.cast_zero] at high
        linarith
      rw [Candidate.share_of_pos (by omega)] at high
      rw [if_neg counted, if_pos (by linarith)]
    | succ i =>
      have inside : rest[i]? = some c := by simpa using at_
      simp only [shareBefore, before_cons_succ, Int.cast_add] at low high
      split
      · rename_i nonpos
        rw [Candidate.share_of_nonpos nonpos, Int.cast_zero, zero_add] at low high
        exact ih inside low high
      · rename_i counted
        rw [Candidate.share_of_pos (by omega)] at low high
        have past : (0 : ℚ) ≤ before Candidate.share rest i := by
          exact_mod_cast before_nonneg Candidate.share_nonneg i
        rw [if_neg (by linarith)]
        refine ih inside ?_ ?_
        · rw [shareBefore]
          linarith
        · rw [shareBefore]
          linarith

/-- A pick at the total passes every candidate. -/
theorem pickWeighted_none {candidates : List Candidate} {pick cursor : ℚ}
    (past : cursor + shareTotal candidates ≤ pick) : pickWeighted pick cursor candidates = none := by
  induction candidates generalizing cursor with
  | nil => rfl
  | cons first rest ih =>
    rw [show shareTotal (first :: rest) = first.share + shareTotal rest from total_cons first, Int.cast_add] at past
    have later : (0 : ℚ) ≤ shareTotal rest := by exact_mod_cast total_nonneg Candidate.share_nonneg
    rw [pickWeighted]
    split
    · rename_i nonpos
      rw [Candidate.share_of_nonpos nonpos, Int.cast_zero] at past
      exact ih (by linarith)
    · rename_i counted
      rw [Candidate.share_of_pos (by omega)] at past
      rw [if_neg (by linarith)]
      exact ih (by linarith)

/-- Some candidate has a positive weight when the total is positive. -/
theorem lastPositive_split {candidates : List Candidate} (positive : 0 < shareTotal candidates) :
    ∃ front c back, candidates = front ++ c :: back ∧ 0 < c.weight ∧ (∀ d ∈ back, d.weight ≤ 0) ∧
      lastPositive candidates = some c := by
  cases found : lastPositive candidates with
  | none =>
    have nonpos : ∀ c ∈ candidates, c.weight ≤ 0 := by
      intro c member
      have never := List.find?_eq_none.mp found c (List.mem_reverse.mpr member)
      simpa using never
    have nothing : shareTotal candidates = 0 := by
      refine List.sum_eq_zero ?_
      intro w member
      obtain ⟨c, inside, rfl⟩ := List.mem_map.mp member
      exact Candidate.share_of_nonpos (nonpos c inside)
    omega
  | some c =>
    obtain ⟨weight, back, front, split, others⟩ := List.find?_eq_some_iff_append.mp found
    refine ⟨front.reverse, c, back.reverse, ?_, by simpa using weight, ?_, rfl⟩
    · have same := congrArg List.reverse split
      simpa using same
    · intro d member
      have passed := others d (List.mem_reverse.mp member)
      simpa using passed

section Pick

variable {candidates : List Candidate} {draw : ℚ}

theorem selectWeighted_of_pos (filled : candidates ≠ []) (fits : shareTotal candidates < 2 ^ 63)
    (positive : 0 < shareTotal candidates) :
    selectWeighted draw candidates =
      match pickWeighted (draw * shareTotal candidates) 0 candidates with
      | some c => .ok c
      | none =>
        match lastPositive candidates with
        | some c => .ok c
        | none => indexed candidates (candidates.length - 1) := by
  have counted : candidates.length ≠ 0 := by simpa using filled
  rw [selectWeighted, if_neg counted]
  dsimp only
  rw [totalWeight_eq fits]
  exact if_neg positive.ne'

theorem selectWeighted_holds (fits : shareTotal candidates < 2 ^ 63) (positive : 0 < shareTotal candidates)
    {i : Nat} {c : Candidate} (at_ : candidates[i]? = some c)
    (low : (shareBefore candidates i : ℚ) ≤ draw * shareTotal candidates)
    (high : draw * shareTotal candidates < shareBefore candidates i + c.share) :
    0 < c.weight ∧ selectWeighted draw candidates = .ok c := by
  have filled : candidates ≠ [] := List.ne_nil_of_mem (List.mem_of_getElem? at_)
  have picked : pickWeighted (draw * shareTotal candidates) 0 candidates = some c :=
    pickWeighted_holds at_ (by rwa [sub_zero]) (by rwa [sub_zero])
  constructor
  · by_contra nonpos
    rw [Candidate.share_of_nonpos (by omega), Int.cast_zero] at high
    linarith
  · rw [selectWeighted_of_pos filled fits positive, picked]

end Pick

/-- The draws for which the scan comes to the candidate at the index. -/
def drawsOf (candidates : List Candidate) (i : Nat) : Set ℚ :=
  {draw | 0 ≤ draw ∧ draw < 1 ∧ Holds Candidate.share candidates (draw * shareTotal candidates) i}

theorem drawsOf_eq {candidates : List Candidate} (positive : 0 < shareTotal candidates) {i : Nat} {c : Candidate}
    (at_ : candidates[i]? = some c) :
    drawsOf candidates i = Set.Ico ((shareBefore candidates i : ℚ) / shareTotal candidates)
      ((shareBefore candidates i + c.share) / shareTotal candidates) := by
  have scale : (0 : ℚ) < shareTotal candidates := by exact_mod_cast positive
  ext draw
  rw [Set.mem_Ico, div_le_iff₀ scale, lt_div_iff₀ scale]
  constructor
  · rintro ⟨_, _, a, atA, low, high⟩
    obtain rfl : c = a := Option.some.inj (at_.symm.trans atA)
    exact ⟨low, high⟩
  · rintro ⟨low, high⟩
    have start : (0 : ℚ) ≤ shareBefore candidates i := by exact_mod_cast before_nonneg Candidate.share_nonneg i
    have ends : (shareBefore candidates i + c.share : ℚ) ≤ shareTotal candidates := by
      exact_mod_cast before_add_le_total Candidate.share_nonneg at_
    exact ⟨by nlinarith, by nlinarith, c, at_, low, high⟩

/-- `Weighted` inverts the running sums of the positive weights. With a positive
total, every draw below one lies in the interval of one candidate, which has a
positive weight and is the pick; the draw of one picks the last such candidate;
the draws of a candidate are an interval as long as its part of the total. Without
a positive weight the pick is uniform over the positions. -/
theorem weighted_inverts_sums (candidates : List Candidate) (filled : candidates ≠ [])
    (fits : shareTotal candidates < 2 ^ 63) :
    (0 < shareTotal candidates →
      (∀ draw, 0 ≤ draw → draw < 1 → ∃! i, draw ∈ drawsOf candidates i) ∧
      (∀ i c, candidates[i]? = some c →
        (∀ draw ∈ drawsOf candidates i, 0 < c.weight ∧ selectWeighted draw candidates = .ok c) ∧
        drawsOf candidates i = Set.Ico ((shareBefore candidates i : ℚ) / shareTotal candidates)
          ((shareBefore candidates i + c.share) / shareTotal candidates) ∧
        ((shareBefore candidates i + c.share : ℚ) / shareTotal candidates) -
          shareBefore candidates i / shareTotal candidates = max c.weight 0 / shareTotal candidates) ∧
      (∃ front c back, candidates = front ++ c :: back ∧ 0 < c.weight ∧ (∀ d ∈ back, d.weight ≤ 0) ∧
        selectWeighted 1 candidates = .ok c) ∧
      (∀ draw c, 0 ≤ draw → draw ≤ 1 → selectWeighted draw candidates = .ok c → 0 < c.weight)) ∧
    (shareTotal candidates = 0 → ∀ draw : ℚ, 0 ≤ draw → draw ≤ 1 →
      selectWeighted draw candidates =
        indexed candidates (min ⌊draw * candidates.length⌋.toNat (candidates.length - 1))) := by
  constructor
  · intro positive
    have scale : (0 : ℚ) < shareTotal candidates := by exact_mod_cast positive
    have unique (draw : ℚ) (low : 0 ≤ draw) (high : draw < 1) : ∃! i, draw ∈ drawsOf candidates i := by
      have below : draw * shareTotal candidates < shareTotal candidates := by nlinarith
      obtain ⟨i, holds⟩ := exists_holds (mul_nonneg low scale.le) below
      exact ⟨i, ⟨low, high, holds⟩, fun j other => other.2.2.unique Candidate.share_nonneg holds⟩
    have picks (i : Nat) (c : Candidate) (at_ : candidates[i]? = some c) (draw : ℚ)
        (inside : draw ∈ drawsOf candidates i) : 0 < c.weight ∧ selectWeighted draw candidates = .ok c := by
      obtain ⟨_, _, a, atA, low, high⟩ := inside
      obtain rfl : c = a := Option.some.inj (at_.symm.trans atA)
      exact selectWeighted_holds fits positive at_ low high
    have last : ∃ front c back, candidates = front ++ c :: back ∧ 0 < c.weight ∧ (∀ d ∈ back, d.weight ≤ 0) ∧
        selectWeighted 1 candidates = .ok c := by
      obtain ⟨front, c, back, split, weight, others, found⟩ := lastPositive_split positive
      have passed : pickWeighted (1 * shareTotal candidates) 0 candidates = none := pickWeighted_none (by linarith)
      exact ⟨front, c, back, split, weight, others, by rw [selectWeighted_of_pos filled fits positive, passed, found]⟩
    refine ⟨unique, fun i c at_ => ⟨picks i c at_, ?_, ?_⟩, last, ?_⟩
    · exact drawsOf_eq positive at_
    · rw [← sub_div, add_sub_cancel_left, Candidate.share, Int.cast_max, Int.cast_zero]
    · intro draw c low high picked
      rcases lt_or_eq_of_le high with below | rfl
      · obtain ⟨i, inside, _⟩ := unique draw low below
        obtain ⟨a, at_, _⟩ := inside.2.2
        obtain ⟨weight, same⟩ := picks i a at_ draw inside
        rw [same] at picked
        cases picked
        exact weight
      · obtain ⟨_, a, _, _, weight, _, same⟩ := last
        rw [same] at picked
        cases picked
        exact weight
  · intro none draw low high
    have counted : 0 < candidates.length := List.length_pos_iff.mpr filled
    rw [selectWeighted, if_neg counted.ne']
    dsimp only
    rw [totalWeight_eq fits, if_pos none]
    congr 1
    split <;> omega

/-- A candidate with a model and a weight and nothing else. -/
def weighing (model : String) (weight : Int) : Candidate := ⟨⟨"openai", [], none⟩, model, 0, 0, 0, weight⟩

def mixedWeights : List Candidate := [weighing "a" 0, weighing "b" 3, weighing "c" (-2), weighing "d" 1]

/-- Three quarters of the draws pick the second of these candidates. -/
theorem weighted_inverts_sums_mixed :
    drawsOf mixedWeights 1 = Set.Ico ((0 : Int) / (4 : Int) : ℚ) (((0 : Int) + (3 : Int)) / (4 : Int)) ∧
      (1 / 2 : ℚ) ∈ drawsOf mixedWeights 1 ∧ selectWeighted (1 / 2) mixedWeights = .ok (weighing "b" 3) := by
  obtain ⟨_, each, _, _⟩ := (weighted_inverts_sums mixedWeights (by simp [mixedWeights]) (by decide)).1 (by decide)
  obtain ⟨picks, interval, _⟩ := each 1 (weighing "b" 3) rfl
  have drawn : (1 / 2 : ℚ) ∈ drawsOf mixedWeights 1 := by
    rw [interval]
    exact ⟨by decide +kernel, by decide +kernel⟩
  exact ⟨interval, drawn, (picks _ drawn).2⟩

end LlmGateway
