import Mathlib.Algebra.Ring.Int.Defs
import Mathlib.Algebra.Ring.Nat
import LlmGateway.Lib.Numeral

namespace LlmGateway

/-- Wraps a sum to a 64-bit `int`. -/
def wrap64 (n : Int) : Int := n.bmod (2 ^ 64)

def maxInt : Int := 2 ^ 63 - 1

theorem wrap64_of_fits {n : Int} (low : -2 ^ 63 ≤ n) (high : n < 2 ^ 63) : wrap64 n = n :=
  Int.bmod_eq_of_le_mul_two (by omega) (by omega)

theorem wrap64_lt (n : Int) : wrap64 n < 2 ^ 63 := by
  have bound : n.bmod (2 ^ 64) < _ := Int.bmod_lt (by decide)
  unfold wrap64
  omega

/-- `strconv.Atoi`: a sign may stand before the digits. -/
def atoi (text : String) : Option Int :=
  let unsigned (digits : List Char) : Option Int :=
    match Numeral.readDigits digits with
    | some n => if n < 2 ^ 63 then some n else none
    | none => none
  match text.toList with
  | '-' :: digits =>
    match Numeral.readDigits digits with
    | some n => if n ≤ 2 ^ 63 then some (-n) else none
    | none => none
  | '+' :: digits => unsigned digits
  | digits => unsigned digits

/-- The plain numeral of a number in range is accepted. -/
theorem atoi_repr {n : Nat} (fits : n < 2 ^ 63) : atoi (toString n) = some (n : Int) := by
  have noMinus : '-' ∉ (toString n).toList := Numeral.notMem_repr (by decide) n
  have noPlus : '+' ∉ (toString n).toList := Numeral.notMem_repr (by decide) n
  have read := Numeral.readDigits_repr n
  unfold atoi
  dsimp only
  split
  · rename_i signed
    exact absurd (signed ▸ List.mem_cons_self) noMinus
  · rename_i signed
    exact absurd (signed ▸ List.mem_cons_self) noPlus
  · rw [read]
    exact if_pos fits

end LlmGateway
