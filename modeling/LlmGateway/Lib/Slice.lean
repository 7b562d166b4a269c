import Mathlib.Data.List.Basic
import Mathlib.Order.Lattice

namespace Slice

variable {α β : Type*}

/-- `i` is the next index to read and `n` the length of the result so far, which
is written over the front of the slice. The first argument counts the
iterations left. -/
def filterLoop (keep : α → Bool) : Nat → Nat → Nat → List α → List α × Nat
  | 0, _, n, a => (a, n)
  | k + 1, i, n, a =>
    match a[i]? with
    | none => (a, n)
    | some c => if keep c then filterLoop keep k (i + 1) (n + 1) (a.set n c) else filterLoop keep k (i + 1) n a

def filterInPlace (keep : α → Bool) (a : List α) : List α :=
  let (b, n) := filterLoop keep a.length 0 0 a
  b.take n

/-- The front holds what was kept of the part already read, and the part still
to be read is untouched, since the front never overtakes it. -/
theorem filterLoop_spec {keep : α → Bool} {orig : List α} (k : Nat) {i n : Nat} {a : List α}
    (left : k + i = orig.length) (same : a.length = orig.length) (behind : n ≤ i)
    (front : a.take n = (orig.take i).filter keep) (rest : a.drop i = orig.drop i) :
    (filterLoop keep k i n a).1.take (filterLoop keep k i n a).2 = orig.filter keep := by
  induction k generalizing i n a with
  | zero =>
    rw [filterLoop, front, List.take_of_length_le (by omega)]
  | succ k ih =>
    have bound : i < orig.length := by omega
    have read : a[i]? = some orig[i] := by
      have heads := congrArg List.head? rest
      simpa [List.head?_drop, bound] using heads
    have tails : a.drop (i + 1) = orig.drop (i + 1) := by
      rw [← List.drop_drop, ← List.drop_drop, rest]
    have grown : orig.take (i + 1) = orig.take i ++ [orig[i]] := List.take_succ_eq_append_getElem bound
    rw [filterLoop, read]
    dsimp only
    split
    · rename_i kept
      refine ih (by omega) (by simpa using same) (by omega) ?_ ?_
      · have inside : n < a.length := by omega
        rw [List.take_succ_eq_append_getElem (by simpa using inside), List.take_set_of_le (Nat.le_refl _), front, grown,
          List.filter_append]
        simp [kept]
      · rw [List.drop_set_of_lt (by omega), tails]
    · rename_i dropped
      refine ih (by omega) same (by omega) ?_ tails
      rw [front, grown, List.filter_append]
      simp [dropped]

theorem filterInPlace_eq_filter (keep : α → Bool) (a : List α) : filterInPlace keep a = a.filter keep :=
  filterLoop_spec a.length rfl rfl (Nat.le_refl _) (by simp) rfl

variable [LT β] [DecidableLT β]

/-- A forward scan for the smallest score. A later element replaces the best
one only when it is strictly smaller; an element without a score is passed over. -/
def scanMin (score : α → Option β) : Option (Nat × β) → Nat → List α → Option (Nat × β)
  | best, _, [] => best
  | best, i, a :: rest =>
    match score a with
    | none => scanMin score best (i + 1) rest
    | some v =>
      match best with
      | none => scanMin score (some (i, v)) (i + 1) rest
      | some (j, b) => scanMin score (if v < b then some (i, v) else some (j, b)) (i + 1) rest

theorem scanMin_map {γ : Type*} (f : γ → α) (score : α → Option β) (best : Option (Nat × β)) (i : Nat) (l : List γ) :
    scanMin score best i (l.map f) = scanMin (fun a => score (f a)) best i l := by
  induction l generalizing best i with
  | nil => rfl
  | cons a rest ih =>
    simp only [List.map_cons, scanMin, ih]

theorem scanMin_isSome (score : α → Option β) (best : Nat × β) (i : Nat) (l : List α) :
    (scanMin score (some best) i l).isSome := by
  induction l generalizing best i with
  | nil => rfl
  | cons a rest ih =>
    rw [scanMin]
    split
    · exact ih best _
    · dsimp only
      split
      · exact ih _ _
      · exact ih best _

/-- The result is the starting best or an element of the list with its score. -/
theorem scanMin_score {score : α → Option β} {best : Option (Nat × β)} {i : Nat} {l : List α} {r : Nat × β}
    (found : scanMin score best i l = some r) :
    best = some r ∨ ∃ k a, l[k]? = some a ∧ r.1 = i + k ∧ score a = some r.2 := by
  induction l generalizing best i with
  | nil => exact Or.inl found
  | cons a rest ih =>
    have shift (later : ∃ k b, rest[k]? = some b ∧ r.1 = i + 1 + k ∧ score b = some r.2) :
        ∃ k b, (a :: rest)[k]? = some b ∧ r.1 = i + k ∧ score b = some r.2 := by
      obtain ⟨k, b, at_, index, scored⟩ := later
      exact ⟨k + 1, b, by simpa using at_, by omega, scored⟩
    simp only [scanMin] at found
    split at found
    · exact (ih found).imp_right shift
    · rename_i v scored
      split at found
      · rcases ih found with now | later
        · cases now
          exact Or.inr ⟨0, a, rfl, rfl, scored⟩
        · exact Or.inr (shift later)
      · rcases ih found with now | later
        · split at now
          · cases now
            exact Or.inr ⟨0, a, rfl, rfl, scored⟩
          · exact Or.inl now
        · exact Or.inr (shift later)

theorem scanMin_index {score : α → Option β} {i : Nat} {l : List α} {r : Nat × β}
    (found : scanMin score none i l = some r) : r.1 < i + l.length := by
  rcases scanMin_score found with impossible | ⟨k, a, at_, index, _⟩
  · cases impossible
  · have bound := (List.getElem?_eq_some_iff.mp at_).1
    omega

end Slice

namespace Slice

variable {α β : Type*} [LinearOrder β]

/-- No score is smaller than the result's. -/
theorem scanMin_le {score : α → Option β} {best : Option (Nat × β)} {i : Nat} {l : List α} {r : Nat × β}
    (found : scanMin score best i l = some r) :
    (∀ b, best = some b → r.2 ≤ b.2) ∧ ∀ a ∈ l, ∀ v, score a = some v → r.2 ≤ v := by
  induction l generalizing best i with
  | nil =>
    refine ⟨?_, nofun⟩
    rintro b rfl
    cases found
    exact le_rfl
  | cons a rest ih =>
    simp only [scanMin] at found
    rw [List.forall_mem_cons]
    split at found
    · rename_i unscored
      obtain ⟨start, later⟩ := ih found
      exact ⟨start, by simp [unscored], later⟩
    · rename_i v scored
      split at found
      · obtain ⟨start, later⟩ := ih found
        refine ⟨nofun, fun w same => ?_, later⟩
        cases scored.symm.trans same
        exact start _ rfl
      · rename_i j b
        by_cases less : v < b
        · rw [if_pos less] at found
          obtain ⟨start, later⟩ := ih found
          have bound : r.2 ≤ v := start _ rfl
          refine ⟨?_, fun w same => ?_, later⟩
          · rintro _ ⟨⟩
            exact le_trans bound (le_of_lt less)
          · cases scored.symm.trans same
            exact bound
        · rw [if_neg less] at found
          obtain ⟨start, later⟩ := ih found
          have bound : r.2 ≤ b := start _ rfl
          refine ⟨?_, fun w same => ?_, later⟩
          · rintro _ ⟨⟩
            exact bound
          · cases scored.symm.trans same
            exact le_trans bound (le_of_not_gt less)

/-- The element at the index has the smallest score, and no element before it
has that score too. -/
def LeftmostMin (score : α → Option β) (l : List α) (k : Nat) : Prop :=
  ∃ a v, l[k]? = some a ∧ score a = some v ∧
    ∀ (j : Nat) (b : α) (w : β), l[j]? = some b → score b = some w → v ≤ w ∧ (j < k → v < w)

/-- Only the order of the scores counts. -/
theorem LeftmostMin.map {γ : Type*} [LinearOrder γ] {score : α → Option β} {l : List α} {k : Nat} {f : β → γ}
    (mono : StrictMono f) (first : LeftmostMin (fun a => (score a).map f) l k) : LeftmostMin score l k := by
  obtain ⟨a, v, at_, scored, below⟩ := first
  obtain ⟨v, own, rfl⟩ := Option.map_eq_some_iff.mp scored
  refine ⟨a, v, at_, own, fun j b w here value => ?_⟩
  have bounds := below j b (f w) here (Option.map_eq_some_iff.mpr ⟨w, value, rfl⟩)
  exact ⟨mono.le_iff_le.mp bounds.1, fun earlier => mono.lt_iff_lt.mp (bounds.2 earlier)⟩

section Leftmost

variable {score : α → Option β} {i : Nat} {l : List α} {r : Nat × β}

/-- The best one is replaced by a strictly smaller one alone. -/
theorem scanMin_improves {best : Nat × β} (found : scanMin score (some best) i l = some r) :
    r = best ∨ r.2 < best.2 := by
  induction l generalizing best i with
  | nil => exact .inl (Option.some.inj found).symm
  | cons a rest ih =>
    simp only [scanMin] at found
    split at found
    · exact ih found
    · rename_i v scored
      by_cases less : v < best.2
      · rw [if_pos less] at found
        rcases ih found with rfl | smaller
        · exact .inr less
        · exact .inr (lt_trans smaller less)
      · rw [if_neg less] at found
        exact ih found

/-- An element read before the one that is found has a greater score. -/
theorem scanMin_before {best : Option (Nat × β)} (found : scanMin score best i l = some r)
    (older : ∀ b, best = some b → b.1 < i) {j : Nat} {b : α} {w : β} (at_ : l[j]? = some b)
    (scored : score b = some w) (earlier : i + j < r.1) : r.2 < w := by
  induction l generalizing best i j with
  | nil => simp at at_
  | cons a rest ih =>
    simp only [scanMin] at found
    cases j with
    | zero =>
      cases Option.some.inj (List.getElem?_cons_zero.symm.trans at_)
      simp only [scored] at found
      have replaced (started : scanMin score (some (i, w)) (i + 1) rest = some r) : r.2 < w := by
        rcases scanMin_improves started with rfl | smaller
        · simp at earlier
        · exact smaller
      split at found
      · exact replaced found
      · rename_i m v
        by_cases less : w < v
        · rw [if_pos less] at found
          exact replaced found
        · rw [if_neg less] at found
          rcases scanMin_improves found with rfl | smaller
          · have before : m < i := older _ rfl
            simp only at earlier
            omega
          · exact lt_of_lt_of_le smaller (le_of_not_gt less)
    | succ j =>
      rw [List.getElem?_cons_succ] at at_
      have onward : i + 1 + j < r.1 := by omega
      have aged : ∀ b, best = some b → b.1 < i + 1 := fun b same => Nat.lt_succ_of_lt (older b same)
      split at found
      · exact ih found aged at_ onward
      · rename_i v _
        have renewed : ∀ b, some (i, v) = some b → b.1 < i + 1 := by
          rintro _ ⟨⟩
          exact Nat.lt_succ_self i
        split at found
        · exact ih found renewed at_ onward
        · split at found
          · exact ih found renewed at_ onward
          · exact ih found aged at_ onward

/-- The scan finds the leftmost smallest element. -/
theorem scanMin_leftmost (found : scanMin score none 0 l = some r) : LeftmostMin score l r.1 := by
  rcases scanMin_score found with impossible | ⟨k, a, at_, index, scored⟩
  · cases impossible
  · have place : r.1 = k := by omega
    rw [← place] at at_
    refine ⟨a, r.2, at_, scored, fun j b w here value => ⟨?_, fun earlier => ?_⟩⟩
    · exact (scanMin_le found).2 b (List.mem_of_getElem? here) w value
    · exact scanMin_before found nofun here value (by omega)

theorem scanMin_eq_none : scanMin score none i l = none ↔ ∀ a ∈ l, score a = none := by
  induction l generalizing i with
  | nil => simp [scanMin]
  | cons a rest ih =>
    rw [List.forall_mem_cons, scanMin]
    cases scored : score a with
    | none => simpa using ih
    | some v =>
      have started := scanMin_isSome score (i, v) (i + 1) rest
      refine iff_of_false (fun missing => ?_) (by simp)
      dsimp only at missing
      rw [missing] at started
      cases started

end Leftmost

end Slice
