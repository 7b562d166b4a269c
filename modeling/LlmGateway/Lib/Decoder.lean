import LlmGateway.Lib.Reader

namespace Reader

variable {α ε σ ν : Type*}

/-- The reader with what it may still deliver and the error it has failed with. -/
structure Limited (σ ε : Type*) where
  left : Nat
  err : Option ε
  inner : σ

/-- A read of a limited reader. One element more than is left is asked for, to tell the
end of the data from the limit. -/
def limitedRead (tooLarge : ε) (read : Read σ α ε) : Read (Limited σ ε) α ε := fun s size =>
  match s.err with
  | some e => ⟨[], some e, s⟩
  | none =>
    if size = 0 then ⟨[], none, s⟩
    else
      let got := read s.inner (min size (s.left + 1))
      if got.bytes.length ≤ s.left then ⟨got.bytes, got.err, ⟨s.left - got.bytes.length, got.err, got.next⟩⟩
      else ⟨got.bytes.take s.left, some tooLarge, ⟨0, some tooLarge, got.next⟩⟩

section Limited

variable {tooLarge err : ε} {read : Read σ α ε} {s : σ} {data : List α}

theorem limitedRead_within {left size : Nat} (positive : 0 < size)
    (within : (read s (min size (left + 1))).bytes.length ≤ left) :
    limitedRead tooLarge read ⟨left, none, s⟩ size =
      ⟨(read s (min size (left + 1))).bytes, (read s (min size (left + 1))).err,
        ⟨left - (read s (min size (left + 1))).bytes.length, (read s (min size (left + 1))).err,
          (read s (min size (left + 1))).next⟩⟩ := by
  simp only [limitedRead]
  rw [if_neg positive.ne', if_pos within]

theorem limitedRead_beyond {left size : Nat} (positive : 0 < size)
    (beyond : ¬ (read s (min size (left + 1))).bytes.length ≤ left) :
    limitedRead tooLarge read ⟨left, none, s⟩ size =
      ⟨(read s (min size (left + 1))).bytes.take left, some tooLarge,
        ⟨0, some tooLarge, (read s (min size (left + 1))).next⟩⟩ := by
  simp only [limitedRead]
  rw [if_neg positive.ne', if_neg beyond]

/-- A limited reader delivers all of the data, or as much as it may before it fails. -/
theorem Delivers.limited (ends : Delivers read err s data) (left : Nat) :
    Delivers (limitedRead tooLarge read) (if data.length ≤ left then err else tooLarge) ⟨left, none, s⟩
      (data.take left) := by
  induction ends generalizing left with
  | @intro s data fits inOrder more last ih =>
    have asked (size : Nat) (positive : 0 < size) : 0 < min size (left + 1) := by omega
    refine .intro ?_ ?_ ?_ ?_
    · intro size positive
      have bound := fits _ (asked size positive)
      by_cases within : (read s (min size (left + 1))).bytes.length ≤ left
      · rw [limitedRead_within positive within]
        exact bound.trans (min_le_left _ _)
      · rw [limitedRead_beyond positive within]
        exact (List.length_take_le' _ _).trans (bound.trans (min_le_left _ _))
    · intro size positive
      have before := inOrder _ (asked size positive)
      by_cases within : (read s (min size (left + 1))).bytes.length ≤ left
      · rw [limitedRead_within positive within]
        exact List.prefix_take_iff.mpr ⟨before, within⟩
      · rw [limitedRead_beyond positive within]
        obtain ⟨rest, rfl⟩ := before
        rw [List.take_append_of_le_length (by omega)]
    · intro size positive going
      have before := (inOrder _ (asked size positive)).length_le
      by_cases within : (read s (min size (left + 1))).bytes.length ≤ left
      · rw [limitedRead_within positive within] at going ⊢
        have rest := ih _ (asked size positive) going (left - (read s (min size (left + 1))).bytes.length)
        have fail : (read s (min size (left + 1))).err = none := going
        rw [List.length_drop] at rest
        simp only [fail]
        rw [List.drop_take]
        by_cases whole : data.length ≤ left
        · rw [if_pos whole]
          rwa [if_pos (by omega)] at rest
        · rw [if_neg whole]
          rwa [if_neg (by omega)] at rest
      · rw [limitedRead_beyond positive within] at going
        cases going
    · intro size e positive failed
      have before := inOrder _ (asked size positive)
      by_cases within : (read s (min size (left + 1))).bytes.length ≤ left
      · rw [limitedRead_within positive within] at failed ⊢
        obtain ⟨rfl, all⟩ := last _ e (asked size positive) failed
        rw [all] at within
        exact ⟨by rw [if_pos within], all.trans (List.take_of_length_le within).symm⟩
      · rw [limitedRead_beyond positive within] at failed ⊢
        cases failed
        have long := before.length_le
        refine ⟨by rw [if_neg (by omega)], ?_⟩
        obtain ⟨rest, rfl⟩ := before
        rw [List.take_append_of_le_length (by omega)]

end Limited

/-- The reader with its errors under other names. -/
def mapError {ε' : Type*} (f : ε → ε') (read : Read σ α ε) : Read σ α ε' := fun s size =>
  ⟨(read s size).bytes, (read s size).err.map f, (read s size).next⟩

theorem Delivers.mapError {ε' : Type*} {read : Read σ α ε} {err : ε} {s : σ} {data : List α}
    (ends : Delivers read err s data) (f : ε → ε') : Delivers (Reader.mapError f read) (f err) s data := by
  induction ends with
  | @intro s data fits inOrder more last ih =>
    refine .intro fits inOrder (fun size positive going => ih size positive (Option.map_eq_none_iff.mp going)) ?_
    intro size e positive failed
    obtain ⟨e', ended, rfl⟩ := Option.map_eq_some_iff.mp failed
    obtain ⟨rfl, all⟩ := last size e' positive ended
    exact ⟨rfl, all⟩

/-- Bytes in memory are at their end for good. -/
theorem repeats_bytes (err : ε) : Repeats (bytesRead (α := α) err) err := by
  intro rest size _ ended
  cases rest with
  | nil => exact delivers_bytes err []
  | cons a rest => cases ended

/-- What the elements read so far amount to: a value, or the proof that there is none.
What follows does not change it. -/
structure ValueScanner (α ν : Type*) where
  verdict : List α → Option ν
  stable : ∀ {a v}, verdict a = some v → ∀ b, verdict (a ++ b) = some v

/-- The loop of a decoder: it reads into the room of its buffer until there is a verdict.
An error of the reader counts once the elements that came with it are looked at. The first
argument bounds the number of reads. -/
def valueLoop (read : Read σ α ε) (room : Nat → Nat) (scanner : ValueScanner α ν) :
    Nat → σ → List α → Option (Except (ε × List α) ν)
  | 0, _, _ => none
  | fuel + 1, s, buf =>
    match scanner.verdict buf with
    | some v => some (.ok v)
    | none =>
      let got := read s (room buf.length)
      match got.err with
      | none => valueLoop read room scanner fuel got.next (buf ++ got.bytes)
      | some e =>
        match scanner.verdict (buf ++ got.bytes) with
        | some v => some (.ok v)
        | none => some (.error (e, buf ++ got.bytes))

/-- The verdict on all of the data, or the error at its end. -/
def ValueScanner.outcome (scanner : ValueScanner α ν) (err : ε) (data : List α) : Except (ε × List α) ν :=
  match scanner.verdict data with
  | some v => .ok v
  | none => .error (err, data)

/-- In whatever pieces the data comes, the loop ends with the verdict on all of it. -/
theorem valueLoop_delivers {read : Read σ α ε} {room : Nat → Nat} {err : ε} {s : σ} {data : List α}
    (scanner : ValueScanner α ν) (space : ∀ n, 0 < room n) (ends : Delivers read err s data) (buf : List α) :
    ∃ enough, ∀ fuel ≥ enough, valueLoop read room scanner fuel s buf = some (scanner.outcome err (buf ++ data)) := by
  induction ends generalizing buf with
  | @intro s data fits inOrder more last ih =>
    cases early : scanner.verdict buf with
    | some v =>
      refine ⟨1, fun fuel enough => ?_⟩
      obtain ⟨fuel, rfl⟩ := Nat.exists_eq_add_of_le' enough
      simp only [valueLoop, early, ValueScanner.outcome, scanner.stable early data]
    | none =>
      cases ended : (read s (room buf.length)).err with
      | none =>
        obtain ⟨enough, later⟩ := ih (room buf.length) (space _) ended (buf ++ (read s (room buf.length)).bytes)
        refine ⟨enough + 1, fun fuel bound => ?_⟩
        obtain ⟨fuel, rfl⟩ := Nat.exists_eq_add_of_le' (Nat.le_of_add_left_le bound)
        have rest := later fuel (by omega)
        rw [List.append_assoc, ← List.prefix_append_drop (inOrder _ (space _))] at rest
        simp only [valueLoop, early, ended, rest]
      | some e =>
        obtain ⟨rfl, all⟩ := last _ e (space _) ended
        refine ⟨1, fun fuel enough => ?_⟩
        obtain ⟨fuel, rfl⟩ := Nat.exists_eq_add_of_le' enough
        simp only [valueLoop, early, ended, all, ValueScanner.outcome]
        cases scanner.verdict (buf ++ data) <;> rfl

end Reader
