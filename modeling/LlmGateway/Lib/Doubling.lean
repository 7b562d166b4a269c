import Mathlib.Data.List.Chain

namespace Doubling

variable {α : Type*} [DecidableEq α] {mark sep : α} {text key : List α}

/-- Every letter that is to be doubled, written out. -/
def expand (mark sep : α) (key : List α) : List α :=
  key.flatMap fun a => if a = sep then [mark, mark] else [a]

/-- Pairs of the mark, taken from the left, read as the letter they stand for. -/
def collapse (mark sep : α) : List α → List α
  | a :: b :: rest => if a = mark ∧ b = mark then sep :: collapse mark sep rest else a :: collapse mark sep (b :: rest)
  | text => text

/-- After a mark there is neither a second one nor the letter that two of them write: the
three marks would be paired the other way. -/
def Unambiguous (mark sep : α) (key : List α) : Prop := key.IsChain fun a b => a = mark → b ≠ mark ∧ b ≠ sep

instance : Decidable (Unambiguous mark sep key) := inferInstanceAs (Decidable (List.IsChain _ _))

theorem expand_cons (a : α) (key : List α) :
    expand mark sep (a :: key) = (if a = sep then [mark, mark] else [a]) ++ expand mark sep key := rfl

theorem mem_expand {a : α} : a ∈ expand mark sep key ↔ (a ∈ key ∧ a ≠ sep) ∨ (sep ∈ key ∧ a = mark) := by
  simp only [expand, List.mem_flatMap]
  constructor
  · rintro ⟨b, member, written⟩
    by_cases separator : b = sep <;> simp_all
  · rintro (⟨member, plain⟩ | ⟨member, rfl⟩)
    · exact ⟨a, member, by simp [plain]⟩
    · exact ⟨sep, member, by simp⟩

theorem collapse_pair (rest : List α) : collapse mark sep (mark :: mark :: rest) = sep :: collapse mark sep rest := by
  rw [collapse, if_pos ⟨rfl, rfl⟩]

theorem collapse_single {a : α} (rest : List α) (single : a = mark → rest.head? ≠ some mark) :
    collapse mark sep (a :: rest) = a :: collapse mark sep rest := by
  cases rest with
  | nil => rfl
  | cons b rest =>
    rw [collapse, if_neg]
    rintro ⟨rfl, rfl⟩
    exact single rfl rfl

theorem expand_collapse (free : sep ∉ text) : expand mark sep (collapse mark sep text) = text := by
  fun_induction collapse mark sep text with
  | case1 a b rest pair ih =>
    obtain ⟨rfl, rfl⟩ := pair
    rw [expand_cons, if_pos rfl, ih (by simp_all)]
    rfl
  | case2 a b rest pair ih =>
    rw [List.mem_cons, not_or] at free
    rw [expand_cons, if_neg (Ne.symm free.1), ih free.2]
    rfl
  | case3 text short =>
    match text, short with
    | [], _ => rfl
    | [a], _ => rw [expand_cons, if_neg (Ne.symm (List.ne_of_not_mem_cons free))]; rfl
    | a :: b :: rest, short => exact absurd rfl (short a b rest)

theorem collapse_expand (clear : Unambiguous mark sep key) : collapse mark sep (expand mark sep key) = key := by
  induction key with
  | nil => rfl
  | cons a rest ih =>
    have rest_clear : Unambiguous mark sep rest := List.IsChain.tail clear
    by_cases separator : a = sep
    · subst separator
      rw [expand_cons, if_pos rfl, List.cons_append, List.singleton_append, collapse_pair, ih rest_clear]
    · rw [expand_cons, if_neg separator, List.singleton_append, collapse_single, ih rest_clear]
      rintro rfl
      cases rest with
      | nil => simp [expand]
      | cons b rest =>
        obtain ⟨other, plain⟩ := (List.isChain_cons_cons.mp clear).1 rfl
        rw [expand_cons, if_neg plain]
        simpa using other

theorem unambiguous_collapse (free : sep ∉ text) : Unambiguous mark sep (collapse mark sep text) := by
  fun_induction collapse mark sep text with
  | case1 a b rest pair ih =>
    obtain ⟨rfl, rfl⟩ := pair
    refine List.isChain_cons.mpr ⟨fun _ _ same => ?_, ih (by simp_all)⟩
    exact absurd (same ▸ List.mem_cons_self) free
  | case2 a b rest pair ih =>
    rw [List.mem_cons, not_or] at free
    refine List.isChain_cons.mpr ⟨?_, ih free.2⟩
    rintro next first rfl
    have other : b ≠ a := fun same => pair ⟨rfl, same⟩
    rw [collapse_single rest fun same => absurd same other] at first
    obtain rfl := Option.mem_some.mp first
    exact ⟨other, Ne.symm (List.ne_of_not_mem_cons free.2)⟩
  | case3 text short =>
    match text, short with
    | [], _ => exact .nil
    | [a], _ => exact .singleton a
    | a :: b :: rest, short => exact absurd rfl (short a b rest)

/-- A text without the letter itself is read as a key exactly where it is that key
written out, and the key can be. -/
theorem collapse_eq_iff (free : sep ∉ text) :
    collapse mark sep text = key ↔ Unambiguous mark sep key ∧ expand mark sep key = text :=
  ⟨fun read => read ▸ ⟨unambiguous_collapse free, expand_collapse free⟩,
    fun ⟨clear, written⟩ => written ▸ collapse_expand clear⟩

end Doubling
