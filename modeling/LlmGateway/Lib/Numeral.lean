import Mathlib.Data.List.Basic
import Mathlib.Order.Defs.LinearOrder
import Mathlib.Data.Int.Order.Basic

namespace Numeral

/-- Reads a non-empty list of decimal digits. -/
def readDigits (text : List Char) : Option Nat :=
  if text ≠ [] ∧ text.all Char.isDigit then some (Nat.ofDigitChars 10 text 0) else none

theorem isDigit_repr {n : Nat} {c : Char} (member : c ∈ (toString n).toList) : c.isDigit := by
  simp only [Nat.toString_eq_repr, Nat.toList_repr] at member
  exact Nat.isDigit_of_mem_toDigits (by decide) (by decide) member

theorem readDigits_repr (n : Nat) : readDigits (toString n).toList = some n := by
  have digits : (toString n).toList.all Char.isDigit = true :=
    List.all_eq_true.mpr fun _ member => isDigit_repr member
  have filled : (toString n).toList ≠ [] := by
    simp only [Nat.toString_eq_repr, Nat.toList_repr]
    exact Nat.toDigits_ne_nil
  rw [readDigits, if_pos ⟨filled, digits⟩]
  simp only [Nat.toString_eq_repr, Nat.toList_repr, Nat.ofDigitChars_ten_toDigits]

theorem repr_injective {n m : Nat} (same : (toString n).toList = (toString m).toList) : n = m := by
  have read := readDigits_repr n
  rw [same, readDigits_repr] at read
  exact (Option.some.inj read).symm

/-- A character that is no digit does not occur in a numeral. -/
theorem notMem_repr {c : Char} (sep : c.isDigit = false) (n : Nat) : c ∉ (toString n).toList := by
  intro member
  simp [isDigit_repr member] at sep

theorem toList_int_of_nonneg {i : Int} (nonneg : 0 ≤ i) :
    (toString i).toList = (toString i.toNat).toList := by
  rw [Int.toString_eq_repr, Int.repr_eq_if, if_pos nonneg, Nat.toString_eq_repr]

theorem toList_int_of_neg {i : Int} (neg : i < 0) :
    (toString i).toList = '-' :: (toString (-i).toNat).toList := by
  rw [Int.toString_eq_repr, Int.repr_eq_if, if_neg (by omega), String.toList_append,
    Nat.toString_eq_repr]
  rfl

theorem notMem_int_repr {c : Char} (sep : c.isDigit = false) (sign : c ≠ '-') (i : Int) :
    c ∉ (toString i).toList := by
  rcases lt_or_ge i 0 with neg | nonneg
  · rw [toList_int_of_neg neg, List.mem_cons, not_or]
    exact ⟨sign, notMem_repr sep _⟩
  · rw [toList_int_of_nonneg nonneg]
    exact notMem_repr sep _

theorem int_repr_injective {i j : Int} (same : (toString i).toList = (toString j).toList) : i = j := by
  have noSign (n : Nat) : '-' ∉ (toString n).toList := notMem_repr (by decide) n
  rcases lt_or_ge i 0 with iNeg | iPos <;> rcases lt_or_ge j 0 with jNeg | jPos
  · rw [toList_int_of_neg iNeg, toList_int_of_neg jNeg] at same
    have value := repr_injective (List.cons.inj same).2
    omega
  · rw [toList_int_of_neg iNeg, toList_int_of_nonneg jPos] at same
    exact absurd (same ▸ List.mem_cons_self) (noSign j.toNat)
  · rw [toList_int_of_nonneg iPos, toList_int_of_neg jNeg] at same
    exact absurd (same.symm ▸ List.mem_cons_self) (noSign i.toNat)
  · rw [toList_int_of_nonneg iPos, toList_int_of_nonneg jPos] at same
    have value := repr_injective same
    omega

/-- Two texts that agree around a separator agree on both sides of it, when
the separator does not occur in the fields before it. -/
theorem split_first {α : Type} {sep : α} {a a' b b' : List α} (left : sep ∉ a) (left' : sep ∉ a')
    (same : a ++ sep :: b = a' ++ sep :: b') : a = a' ∧ b = b' := by
  induction a generalizing a' with
  | nil =>
    cases a' with
    | nil => exact ⟨rfl, (List.cons.inj same).2⟩
    | cons x rest => exact absurd (by simpa using .inl (List.cons.inj same).1) left'
  | cons x rest ih =>
    cases a' with
    | nil => exact absurd (by simpa using .inl (List.cons.inj same).1.symm) left
    | cons y rest' =>
      obtain ⟨head, tail⟩ := List.cons.inj same
      obtain ⟨fields, after⟩ := ih (fun m => left (List.mem_cons_of_mem _ m))
        (fun m => left' (List.mem_cons_of_mem _ m)) tail
      exact ⟨by rw [head, fields], after⟩

/-- The same with the separator absent from the fields after it. -/
theorem split_last {α : Type} {sep : α} {a a' b b' : List α} (right : sep ∉ b) (right' : sep ∉ b')
    (same : a ++ sep :: b = a' ++ sep :: b') : a = a' ∧ b = b' := by
  have reversed := congrArg List.reverse same
  simp only [List.reverse_append, List.reverse_cons, List.append_assoc, List.singleton_append] at reversed
  obtain ⟨after, before⟩ := split_first (by simpa using right) (by simpa using right') reversed
  exact ⟨List.reverse_injective before, List.reverse_injective after⟩

end Numeral
