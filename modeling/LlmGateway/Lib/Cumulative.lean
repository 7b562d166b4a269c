import Mathlib.Algebra.BigOperators.Group.List.Basic
import Mathlib.Algebra.Order.BigOperators.Group.List
import Mathlib.Algebra.Order.Ring.Cast
import Mathlib.Data.Int.Cast.Lemmas
import Mathlib.Tactic.Linarith

namespace Cumulative

variable {α : Type*} {f : α → Int} {l : List α}

/-- The weight of all elements. -/
def total (f : α → Int) (l : List α) : Int := (l.map f).sum

/-- The weight of the elements before an index. -/
def before (f : α → Int) (l : List α) (i : Nat) : Int := total f (l.take i)

@[simp] theorem total_nil : total f [] = 0 := rfl

@[simp] theorem total_cons (a : α) : total f (a :: l) = f a + total f l := by simp [total]

@[simp] theorem before_zero : before f l 0 = 0 := rfl

@[simp] theorem before_cons_succ (a : α) (i : Nat) : before f (a :: l) (i + 1) = f a + before f l i := by
  simp [before]

theorem total_nonneg (nonneg : ∀ a, 0 ≤ f a) : 0 ≤ total f l := by
  induction l with
  | nil => exact le_rfl
  | cons a rest ih =>
    rw [total_cons]
    have first := nonneg a
    omega

theorem before_nonneg (nonneg : ∀ a, 0 ≤ f a) (i : Nat) : 0 ≤ before f l i := total_nonneg nonneg

/-- The interval of an element ends before that of a later one begins. -/
theorem before_le (nonneg : ∀ a, 0 ≤ f a) {i j : Nat} {a : α} (at_ : l[i]? = some a) (later : i < j) :
    before f l i + f a ≤ before f l j := by
  induction l generalizing i j with
  | nil => simp at at_
  | cons first rest ih =>
    obtain ⟨j, rfl⟩ : ∃ k, j = k + 1 := ⟨j - 1, by omega⟩
    cases i with
    | zero =>
      obtain rfl : first = a := by simpa using at_
      have rest := before_nonneg (l := rest) nonneg j
      simp only [before_zero, before_cons_succ]
      omega
    | succ i =>
      have inside := ih (by simpa using at_) (by omega : i < j)
      simp only [before_cons_succ]
      omega

theorem before_add_le_total (nonneg : ∀ a, 0 ≤ f a) {i : Nat} {a : α} (at_ : l[i]? = some a) :
    before f l i + f a ≤ total f l := by
  have ends := before_le nonneg at_ (List.getElem?_eq_some_iff.mp at_).1
  rwa [show before f l l.length = total f l by rw [before, List.take_length]] at ends

section Point

variable {K : Type*} [CommRing K] [LinearOrder K] [IsStrictOrderedRing K] {x : K}

/-- The point lies in the interval of the element at the index. -/
def Holds (f : α → Int) (l : List α) (x : K) (i : Nat) : Prop :=
  ∃ a, l[i]? = some a ∧ (before f l i : K) ≤ x ∧ x < before f l i + f a

theorem Holds.unique (nonneg : ∀ a, 0 ≤ f a) {i j : Nat} (first : Holds f l x i) (second : Holds f l x j) : i = j := by
  have apart {i j : Nat} (one : Holds f l x i) (other : Holds f l x j) : ¬ i < j := by
    intro later
    obtain ⟨a, at_, _, high⟩ := one
    obtain ⟨_, _, low, _⟩ := other
    have ends : ((before f l i + f a : Int) : K) ≤ before f l j := by exact_mod_cast before_le nonneg at_ later
    push_cast at ends
    exact absurd (high.trans_le ends) (not_lt.mpr low)
  have notBefore := apart first second
  have notAfter := apart second first
  omega

theorem exists_holds (low : 0 ≤ x) (high : x < total f l) : ∃ i, Holds f l x i := by
  induction l generalizing x with
  | nil => exact absurd high (by simpa using low)
  | cons a rest ih =>
    rcases lt_or_ge x (f a) with inside | past
    · exact ⟨0, a, rfl, by simpa using low, by simpa using inside⟩
    · have less : x - f a < total f rest := by
        rw [total_cons, Int.cast_add] at high
        linarith
      obtain ⟨i, b, at_, starts, ends⟩ := ih (sub_nonneg.mpr past) less
      refine ⟨i + 1, b, by simpa using at_, ?_, ?_⟩
      · rw [before_cons_succ, Int.cast_add]
        linarith
      · rw [before_cons_succ, Int.cast_add]
        linarith

end Point

section Rising

variable {β : Type*} [LinearOrder β] {c : Nat → β} {a b : Nat}

theorem le_of_rising (rising : ∀ i, a ≤ i → i < b → c i ≤ c (i + 1)) {i j : Nat} (low : a ≤ i) (ordered : i ≤ j)
    (high : j ≤ b) : c i ≤ c j := by
  induction j, ordered using Nat.le_induction with
  | base => exact le_rfl
  | succ j step ih => exact (ih (by omega)).trans (rising j (by omega) (by omega))

/-- A point between the first and the last value lies in one step of a sequence
that does not fall. -/
theorem existsUnique_step (rising : ∀ i, a ≤ i → i < b → c i ≤ c (i + 1)) (ordered : a ≤ b) {x : β} (low : c a ≤ x)
    (high : x < c b) : ∃! i, (a ≤ i ∧ i < b) ∧ c i ≤ x ∧ x < c (i + 1) := by
  have found : ∃ i, (a ≤ i ∧ i < b) ∧ c i ≤ x ∧ x < c (i + 1) := by
    clear rising
    induction b, ordered using Nat.le_induction with
    | base => exact absurd high (not_lt.mpr low)
    | succ b step ih =>
      rcases lt_or_ge x (c b) with earlier | here
      · obtain ⟨i, ⟨first, last⟩, inside⟩ := ih earlier
        exact ⟨i, ⟨first, by omega⟩, inside⟩
      · exact ⟨b, ⟨step, Nat.lt_succ_self b⟩, here, high⟩
  have apart {i j : Nat} (one : (a ≤ i ∧ i < b) ∧ c i ≤ x ∧ x < c (i + 1))
      (other : (a ≤ j ∧ j < b) ∧ c j ≤ x ∧ x < c (j + 1)) : ¬ i < j := by
    intro before
    have ends : c (i + 1) ≤ c j := le_of_rising rising (by omega) before (by omega)
    exact absurd (one.2.2.trans_le ends) (not_lt.mpr other.2.1)
  obtain ⟨i, inside⟩ := found
  refine ⟨i, inside, fun j other => ?_⟩
  have notBefore := apart inside other
  have notAfter := apart other inside
  omega

end Rising

end Cumulative
