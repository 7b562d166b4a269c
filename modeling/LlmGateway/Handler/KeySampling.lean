import LlmGateway.Handler.AdminKeys
import LlmGateway.Lib.Rejection

namespace LlmGateway

open Rejection

/-- The letter that a random byte stands for, unless it is thrown away. -/
def keyDraw (b : Fin 256) : Option Char :=
  if b.val < keyAcceptCeiling then some (keyAlphabet.getD (b.val % keyAlphabet.length) 'a') else none

theorem keyBody_eq_collect (k : Nat) (random : List (Fin 256)) : keyBody k random = collect keyDraw k random := by
  induction random generalizing k with
  | nil => cases k <;> rfl
  | cons b random ih =>
    cases k with
    | zero => rfl
    | succ k =>
      simp only [keyBody, collect, keyDraw]
      split
      · rw [ih]
      · exact ih (k + 1)

theorem length_keyAlphabet : keyAlphabet.length = 62 := by decide

/-- The code points of the alphabet: small letters, capitals, digits. -/
theorem toNat_keyAlphabet :
    keyAlphabet.map Char.toNat = List.range' 97 26 ++ List.range' 65 26 ++ List.range' 48 10 := by
  decide +kernel

theorem nodup_keyAlphabet : keyAlphabet.Nodup := by
  refine List.Nodup.of_map Char.toNat ?_
  rw [toNat_keyAlphabet]
  decide +kernel

theorem keyDraw_eq (b : Fin 256) :
    keyDraw b = if b.val < 248 then keyAlphabet[b.val % 62]? else none := by
  have ceiling : keyAcceptCeiling = 248 := by rw [keyAcceptCeiling, length_keyAlphabet]
  have inside : b.val % 62 < keyAlphabet.length := length_keyAlphabet ▸ Nat.mod_lt _ (by decide)
  rw [keyDraw, ceiling, length_keyAlphabet, List.getD_eq_getElem?_getD, List.getElem?_eq_getElem inside,
    Option.getD_some]

/-- Four of the accepted bytes leave each remainder. -/
theorem card_remainder {i : Nat} (small : i < 62) :
    (Finset.univ.filter fun b : Fin 256 => b.val < 248 ∧ b.val % 62 = i).card = 4 := by
  have same : (Finset.univ.filter fun b : Fin 256 => b.val < 248 ∧ b.val % 62 = i) =
      Finset.univ.image fun q : Fin 4 => (⟨q.val * 62 + i, by omega⟩ : Fin 256) := by
    ext b
    simp only [Finset.mem_filter, Finset.mem_univ, true_and, Finset.mem_image, Fin.ext_iff]
    constructor
    · rintro ⟨accepted, remainder⟩
      exact ⟨⟨b.val / 62, by omega⟩, by dsimp only; omega⟩
    · rintro ⟨q, place⟩
      omega
  rw [same, Finset.card_image_of_injective, Finset.card_univ, Fintype.card_fin]
  intro q q' equal
  have place : q.val * 62 + i = q'.val * 62 + i := Fin.ext_iff.mp equal
  exact Fin.ext (by omega)

/-- Each letter of the alphabet stands for four bytes. -/
theorem keyDraw_fair : Fair keyDraw keyAlphabet.toFinset 4 where
  letter := by
    intro b c drawn
    rw [keyDraw_eq] at drawn
    split at drawn
    · exact List.mem_toFinset.mpr (List.mem_of_getElem? drawn)
    · cases drawn
  fibre := by
    intro c letter
    obtain ⟨i, bound, rfl⟩ := List.getElem_of_mem (List.mem_toFinset.mp letter)
    rw [← card_remainder (length_keyAlphabet ▸ bound)]
    refine congrArg Finset.card (Finset.filter_congr fun b _ => ?_)
    rw [keyDraw_eq]
    by_cases accepted : b.val < 248
    · have inside : b.val % 62 < keyAlphabet.length := length_keyAlphabet ▸ Nat.mod_lt _ (by decide)
      rw [if_pos accepted, List.getElem?_eq_getElem inside, Option.some.injEq, nodup_keyAlphabet.getElem_inj_iff]
      exact (and_iff_right accepted).symm
    · simp [accepted]

/-- `sk-gw-` and 32 characters of the alphabet. -/
def IsPlaintextKey (key : String) : Prop :=
  ∃ body : List Char, body.length = keyBodyLen ∧ (∀ c ∈ body, c ∈ keyAlphabet) ∧ key = "sk-gw-" ++ String.ofList body

theorem generatePlaintextKey_eq_some {random : List (Fin 256)} {body : List Char} :
    generatePlaintextKey random = some ("sk-gw-" ++ String.ofList body) ↔
      collect keyDraw keyBodyLen random = some body := by
  rw [generatePlaintextKey, keyBody_eq_collect, Option.map_eq_some_iff]
  constructor
  · rintro ⟨found, collected, same⟩
    have letters : found = body := by simpa using congrArg String.toList same
    rw [collected, letters]
  · intro collected
    exact ⟨body, collected, rfl⟩

/-- With enough random bytes a key comes out, and no key is likelier than another: over
all sequences of as many bytes, each of the 62 ^ 32 keys has the same share, and nothing
else comes out. -/
theorem generated_keys_uniform (n : Nat) (enough : keyBodyLen ≤ n) (key : String) :
    0 < (count n fun random => (generatePlaintextKey random).isSome) ∧
    (IsPlaintextKey key → (count n fun random => generatePlaintextKey random = some key) * 62 ^ 32 =
      count n fun random => (generatePlaintextKey random).isSome) ∧
    (¬ IsPlaintextKey key → (count n fun random => generatePlaintextKey random = some key) = 0) := by
  have some_iff (random : List (Fin 256)) :
      (generatePlaintextKey random).isSome ↔ (collect keyDraw keyBodyLen random).isSome := by
    rw [generatePlaintextKey, keyBody_eq_collect, Option.isSome_map]
  refine ⟨?_, ?_, ?_⟩
  · refine count_pos (b := 0) ((some_iff _).mpr ?_)
    rw [collect_replicate (c := 'a') (by decide) enough]
    rfl
  · rintro ⟨body, length, spelled, rfl⟩
    have uniform := keyDraw_fair.uniform n fun c member => List.mem_toFinset.mpr (spelled c member)
    rw [List.toFinset_card_of_nodup nodup_keyAlphabet, length_keyAlphabet, length] at uniform
    rw [count_congr fun random => some_iff random, ← uniform, count_congr fun random => generatePlaintextKey_eq_some]
    rfl
  · intro other
    refine count_of_false fun random out => other ?_
    rw [generatePlaintextKey, keyBody_eq_collect] at out
    obtain ⟨body, collected, rfl⟩ := Option.map_eq_some_iff.mp out
    refine ⟨body, length_of_collect collected, fun c member => ?_, rfl⟩
    obtain ⟨b, drawn⟩ := mem_of_collect collected member
    exact List.mem_toFinset.mp (keyDraw_fair.letter b c drawn)

theorem generated_keys_uniform_lowest :
    IsPlaintextKey ("sk-gw-" ++ String.ofList (List.replicate 32 'a')) ∧
      (count 40 fun random =>
        generatePlaintextKey random = some ("sk-gw-" ++ String.ofList (List.replicate 32 'a'))) * 62 ^ 32 =
          count 40 fun random => (generatePlaintextKey random).isSome := by
  have formed : IsPlaintextKey ("sk-gw-" ++ String.ofList (List.replicate 32 'a')) :=
    ⟨List.replicate 32 'a', by decide, fun c member => by rw [List.eq_of_mem_replicate member]; decide, rfl⟩
  exact ⟨formed, (generated_keys_uniform 40 (by decide) _).2.1 formed⟩

end LlmGateway
