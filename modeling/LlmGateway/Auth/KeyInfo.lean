import Mathlib.Data.Nat.Digits.Defs

namespace LlmGateway

/-- `auth.KeyInfo`. Times are nanoseconds on one clock. -/
structure KeyInfo where
  keyID : String
  orgID : String
  name : String
  rpm : Int
  tpm : Int
  scopes : List String
  expiresAt : Option Int
deriving DecidableEq, Repr

/-- A digit in the alphabet of `strconv.FormatInt` and `hex.EncodeToString`. -/
def digitText (d : Nat) : Char :=
  if d < 10 then Char.ofNat (48 + d) else Char.ofNat (87 + d)

/-- `hex.EncodeToString`. -/
def hexEncode (bytes : List (Fin 256)) : String :=
  String.ofList (bytes.flatMap fun b => [digitText (b.val / 16), digitText (b.val % 16)])

/-- `strconv.FormatInt(n, 36)` for a number that is not negative. -/
def formatBase36 (n : Nat) : String :=
  if n = 0 then "0" else String.ofList ((Nat.digits 36 n).reverse.map digitText)

theorem digitText_ne {d : Nat} (bound : d < 36) {c : Char} (sep : c = '-' ∨ c = ':') : digitText d ≠ c := by
  have table : ∀ d < 36, digitText d ≠ '-' ∧ digitText d ≠ ':' := by decide
  rcases sep with rfl | rfl
  · exact (table d bound).1
  · exact (table d bound).2

theorem notMem_hexEncode {c : Char} (sep : c = '-' ∨ c = ':') (bytes : List (Fin 256)) :
    c ∉ (hexEncode bytes).toList := by
  simp only [hexEncode, String.toList_ofList, List.mem_flatMap, List.mem_cons, List.not_mem_nil, or_false]
  rintro ⟨b, _, high | low⟩
  · exact digitText_ne (by omega) sep high.symm
  · exact digitText_ne (by omega) sep low.symm

theorem notMem_formatBase36 {c : Char} (sep : c = '-' ∨ c = ':') (n : Nat) : c ∉ (formatBase36 n).toList := by
  unfold formatBase36
  split
  · rcases sep with rfl | rfl <;> decide
  · simp only [String.toList_ofList, List.mem_map, List.mem_reverse]
    rintro ⟨d, digit, shown⟩
    exact digitText_ne (Nat.digits_lt_base (by decide) digit) sep shown

end LlmGateway
