import Mathlib.Data.List.TakeWhile

namespace Trim

variable {α : Type*} {margin : α → Bool} {text body before after : List α}

def trim (margin : α → Bool) (text : List α) : List α :=
  ((text.dropWhile margin).reverse.dropWhile margin).reverse

/-- Neither end is margin. -/
structure Trimmed (margin : α → Bool) (text : List α) : Prop where
  first : ∀ a, text.head? = some a → margin a = false
  last : ∀ a, text.getLast? = some a → margin a = false

theorem dropWhile_of_head (solid : ∀ a, text.head? = some a → margin a = false) : text.dropWhile margin = text := by
  cases text with
  | nil => rfl
  | cons a rest => simp [solid a rfl]

theorem head_dropWhile {a : α} (first : (text.dropWhile margin).head? = some a) : margin a = false := by
  induction text with
  | nil => cases first
  | cons b rest ih =>
    rw [List.dropWhile_cons] at first
    split at first
    · exact ih first
    · rename_i solid
      cases Option.some.inj first
      simpa using solid

theorem dropWhile_spec (margin : α → Bool) (text : List α) :
    ∃ before, text = before ++ text.dropWhile margin ∧ ∀ a ∈ before, margin a = true :=
  ⟨text.takeWhile margin, List.takeWhile_append_dropWhile.symm, fun _ member => List.mem_takeWhile_imp member⟩

/-- The text is what is left of it with margin on both sides. -/
theorem trim_spec (margin : α → Bool) (text : List α) :
    ∃ before after, text = before ++ trim margin text ++ after ∧ (∀ a ∈ before, margin a = true) ∧
      ∀ a ∈ after, margin a = true := by
  obtain ⟨before, front, outer⟩ := dropWhile_spec margin text
  obtain ⟨after, back, inner⟩ := dropWhile_spec margin (text.dropWhile margin).reverse
  refine ⟨before, after.reverse, ?_, outer, fun a member => inner a (List.mem_reverse.mp member)⟩
  have whole := congrArg List.reverse back
  rw [List.reverse_reverse, List.reverse_append] at whole
  rw [List.append_assoc, trim, ← whole, ← front]

theorem trimmed_trim (margin : α → Bool) (text : List α) : Trimmed margin (trim margin text) where
  first a first := by
    have front : (trim margin text).head? = (text.dropWhile margin).head? ∨ trim margin text = [] := by
      obtain ⟨after, back, -⟩ := dropWhile_spec margin (text.dropWhile margin).reverse
      have whole := congrArg List.reverse back
      rw [List.reverse_reverse, List.reverse_append] at whole
      rw [whole]
      change (trim margin text).head? = (trim margin text ++ after.reverse).head? ∨ _
      cases trim margin text with
      | nil => exact .inr rfl
      | cons b rest => exact .inl rfl
    rcases front with same | empty
    · exact head_dropWhile (same ▸ first)
    · rw [empty] at first
      cases first
  last a last := by
    rw [trim, List.getLast?_reverse] at last
    exact head_dropWhile last

/-- What is between two margins is what is left. -/
theorem trim_eq (trimmed : Trimmed margin body) (filled : body ≠ []) (front : ∀ a ∈ before, margin a = true)
    (back : ∀ a ∈ after, margin a = true) : trim margin (before ++ body ++ after) = body := by
  have opened : (before ++ body ++ after).dropWhile margin = body ++ after := by
    rw [List.append_assoc, List.dropWhile_append_of_pos front]
    refine dropWhile_of_head fun a first => trimmed.first a ?_
    cases body with
    | nil => exact absurd rfl filled
    | cons b rest => exact first
  have closed : (body ++ after).reverse.dropWhile margin = body.reverse := by
    rw [List.reverse_append, List.dropWhile_append_of_pos fun a member => back a (List.mem_reverse.mp member)]
    exact dropWhile_of_head fun a first => trimmed.last a (by rwa [List.head?_reverse] at first)
  rw [trim, opened, closed, List.reverse_reverse]

end Trim
