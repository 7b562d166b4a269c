import Mathlib.Data.List.Infix

namespace Reader

variable {α ε σ τ : Type*}

/-- The outcome of one read: the elements, the error if there is one, and the
reader that is left. -/
structure Chunk (α ε σ : Type*) where
  bytes : List α
  err : Option ε
  next : σ

/-- A read with room for the given number of elements. -/
abbrev Read (σ α ε : Type*) := σ → Nat → Chunk α ε σ

/-- In whatever sizes it is read, the reader delivers the data after finitely
many reads and fails with the error then, along with the last elements or alone.
Nothing is said about what follows. -/
inductive Delivers (read : Read σ α ε) (err : ε) : σ → List α → Prop
  | intro {s : σ} {data : List α} (fits : ∀ size, 0 < size → (read s size).bytes.length ≤ size)
      (inOrder : ∀ size, 0 < size → (read s size).bytes <+: data)
      (more : ∀ size, 0 < size → (read s size).err = none →
        Delivers read err (read s size).next (data.drop (read s size).bytes.length))
      (last : ∀ size e, 0 < size → (read s size).err = some e → e = err ∧ (read s size).bytes = data) :
      Delivers read err s data

/-- A reader that has failed with the error fails with it again. -/
def Repeats (read : Read σ α ε) (err : ε) : Prop :=
  ∀ s size, 0 < size → (read s size).err = some err → Delivers read err (read s size).next []

section Delivers

variable {read : Read σ α ε} {err err' : ε} {s : σ} {data data' : List α}

/-- What a reader delivers, and how it ends, is determined. -/
theorem Delivers.unique (first : Delivers read err s data) (second : Delivers read err' s data') :
    err = err' ∧ data = data' := by
  induction first generalizing data' with
  | @intro s data _ inOrder _ last ih =>
    obtain ⟨_, inOrder', more', last'⟩ := second
    cases ended : (read s 1).err with
    | some e =>
      obtain ⟨rfl, rfl⟩ := last 1 e Nat.one_pos ended
      exact last' 1 e Nat.one_pos ended
    | none =>
      obtain ⟨same, rest⟩ := ih 1 Nat.one_pos ended (more' 1 Nat.one_pos ended)
      refine ⟨same, ?_⟩
      calc
        data = (read s 1).bytes ++ data.drop (read s 1).bytes.length := List.prefix_append_drop (inOrder 1 Nat.one_pos)
        _ = (read s 1).bytes ++ data'.drop (read s 1).bytes.length := by rw [rest]
        _ = data' := (List.prefix_append_drop (inOrder' 1 Nat.one_pos)).symm

/-- A reader whose reads are those of another delivers the same. -/
theorem Delivers.map_iff {read' : Read τ α ε} {f : σ → τ}
    (same : ∀ s size, read' (f s) size = ⟨(read s size).bytes, (read s size).err, f (read s size).next⟩) :
    Delivers read' err (f s) data ↔ Delivers read err s data := by
  constructor
  · intro ends
    generalize state : f s = t at ends
    induction ends generalizing s with
    | intro fits inOrder more last ih =>
      subst state
      simp only [same] at fits inOrder ih last
      exact .intro fits inOrder (fun size positive going => ih size positive going rfl) last
  · intro ends
    induction ends with
    | @intro s data fits inOrder more last ih =>
      refine .intro ?_ ?_ ?_ ?_
      · simpa only [same] using fits
      · simpa only [same] using inOrder
      · simpa only [same] using ih
      · simpa only [same] using last

end Delivers

/-- The loop of `io.ReadAtLeast` with a buffer that is to be filled: it reads
until nothing is wanted any more or there is an error. The first argument bounds
the number of reads. -/
def readLoop (read : Read σ α ε) : Nat → σ → Nat → Option (Chunk α ε σ)
  | 0, _, _ => none
  | fuel + 1, s, want =>
    if want = 0 then some ⟨[], none, s⟩
    else
      let got := read s want
      match got.err with
      | some e => some ⟨got.bytes, some e, got.next⟩
      | none =>
        (readLoop read fuel got.next (want - got.bytes.length)).map fun rest =>
          { rest with bytes := got.bytes ++ rest.bytes }

/-- `io.ReadFull`. A full buffer is no error; a part of one before the end is. -/
def readFull [DecidableEq ε] (eof unexpectedEOF : ε) (read : Read σ α ε) (fuel : Nat) (s : σ) (size : Nat) :
    Option (Chunk α ε σ) :=
  (readLoop read fuel s size).map fun got =>
    if size ≤ got.bytes.length then { got with err := none }
    else if 0 < got.bytes.length ∧ got.err = some eof then { got with err := some unexpectedEOF }
    else got

section Fill

variable {read : Read σ α ε} {err : ε} {s : σ} {data : List α}

@[simp] theorem readLoop_full (fuel : Nat) : readLoop read (fuel + 1) s 0 = some ⟨[], none, s⟩ := rfl

theorem readLoop_failed {fuel want : Nat} {e : ε} (wanted : 0 < want) (ended : (read s want).err = some e) :
    readLoop read (fuel + 1) s want = some ⟨(read s want).bytes, some e, (read s want).next⟩ := by
  rw [readLoop, if_neg wanted.ne']
  dsimp only
  rw [ended]

theorem readLoop_more {fuel want : Nat} (wanted : 0 < want) (going : (read s want).err = none) :
    readLoop read (fuel + 1) s want =
      (readLoop read fuel (read s want).next (want - (read s want).bytes.length)).map
        fun rest => { rest with bytes := (read s want).bytes ++ rest.bytes } := by
  rw [readLoop, if_neg wanted.ne']
  dsimp only
  rw [going]

theorem readLoop_mono {fuel fuel' want : Nat} {got : Chunk α ε σ} (enough : fuel ≤ fuel')
    (done : readLoop read fuel s want = some got) : readLoop read fuel' s want = some got := by
  induction fuel generalizing fuel' s want got with
  | zero => cases done
  | succ fuel ih =>
    obtain ⟨more, rfl⟩ : ∃ more, fuel' = more + 1 := ⟨fuel' - 1, by omega⟩
    rcases Nat.eq_zero_or_pos want with rfl | wanted
    · exact done
    · cases ended : (read s want).err with
      | some e => rwa [readLoop_failed wanted ended] at done ⊢
      | none =>
        rw [readLoop_more wanted ended] at done ⊢
        obtain ⟨rest, later, rfl⟩ := Option.map_eq_some_iff.mp done
        rw [ih (by omega) later, Option.map_some]

/-- The loop ends. It has taken what was wanted and left the rest to be
delivered; or it has taken all there was, and the last read failed. -/
theorem readLoop_delivers (ends : Delivers read err s data) (want : Nat) :
    ∃ fuel e next, readLoop read fuel s want = some ⟨data.take want, e, next⟩ ∧
      (want ≤ data.length ∧ e = none ∧ Delivers read err next (data.drop want) ∨
        data.length ≤ want ∧ e = some err ∧
          ∃ t size, 0 < size ∧ (read t size).err = some err ∧ (read t size).next = next) := by
  induction ends generalizing want with
  | @intro s data fits inOrder more last ih =>
    rcases Nat.eq_zero_or_pos want with rfl | wanted
    · exact ⟨1, none, s, by simp, Or.inl ⟨Nat.zero_le _, rfl, .intro fits inOrder more last⟩⟩
    · have bound := fits want wanted
      have before := inOrder want wanted
      cases ended : (read s want).err with
      | some e =>
        obtain ⟨rfl, all⟩ := last want e wanted ended
        rw [all] at bound
        refine ⟨1, some e, (read s want).next, ?_, Or.inr ⟨bound, rfl, s, want, wanted, ended, rfl⟩⟩
        rw [readLoop_failed wanted ended, all, List.take_of_length_le bound]
      | none =>
        obtain ⟨fuel, e, next, later, outcome⟩ := ih want wanted ended (want - (read s want).bytes.length)
        have length : (read s want).bytes.length ≤ data.length := before.length_le
        have whole : (read s want).bytes ++ (data.drop (read s want).bytes.length).take
            (want - (read s want).bytes.length) = data.take want := by
          obtain ⟨rest, rfl⟩ := before
          rw [List.drop_left, List.take_append, List.take_of_length_le bound]
        refine ⟨fuel + 1, e, next, ?_, ?_⟩
        · rw [readLoop_more wanted ended, later, Option.map_some, whole]
        · rw [List.length_drop, List.drop_drop] at outcome
          rcases outcome with ⟨enough, none, rest⟩ | ⟨short, failed⟩
          · rw [Nat.add_sub_cancel' bound] at rest
            exact Or.inl ⟨by omega, none, rest⟩
          · exact Or.inr ⟨by omega, failed⟩

/-- A reader that repeats its error has the rest to deliver after the loop, also
when the loop has seen the error. -/
theorem readLoop_repeats (again : Repeats read err) (ends : Delivers read err s data) (want : Nat) :
    ∃ fuel e next, readLoop read fuel s want = some ⟨data.take want, e, next⟩ ∧
      Delivers read err next (data.drop want) := by
  obtain ⟨fuel, e, next, taken, ⟨_, _, rest⟩ | ⟨short, _, t, size, positive, failed, rfl⟩⟩ :=
    readLoop_delivers ends want
  · exact ⟨fuel, e, next, taken, rest⟩
  · refine ⟨fuel, e, _, taken, ?_⟩
    rw [List.drop_of_length_le short]
    exact again t size positive failed

end Fill

/-- `bytes.Reader`. -/
def bytesRead (eof : ε) : Read (List α) α ε := fun rest size =>
  match rest with
  | [] => ⟨[], some eof, []⟩
  | _ :: _ => ⟨rest.take size, none, rest.drop size⟩

theorem delivers_bytes (eof : ε) (rest : List α) : Delivers (bytesRead eof) eof rest rest := by
  induction length : rest.length using Nat.strong_induction_on generalizing rest with
  | _ n ih =>
    cases rest with
    | nil =>
      refine .intro (fun size _ => Nat.zero_le _) (fun size _ => List.prefix_rfl) nofun ?_
      rintro size e _ ⟨⟩
      exact ⟨rfl, rfl⟩
    | cons a rest =>
      refine .intro (fun size _ => List.length_take_le _ _) (fun size _ => List.take_prefix _ _) ?_ nofun
      intro size positive _
      have shorter : ((a :: rest).drop size).length < n := by
        rw [List.length_drop, length]
        simp only [List.length_cons] at length
        omega
      have same : (a :: rest).drop (bytesRead eof (a :: rest) size).bytes.length = (a :: rest).drop size := by
        rw [show (bytesRead eof (a :: rest) size).bytes = (a :: rest).take size from rfl, List.length_take]
        rcases le_total size (a :: rest).length with inside | past
        · rw [min_eq_left inside]
        · rw [min_eq_right past, List.drop_length, List.drop_of_length_le past]
      rw [same]
      exact ih _ shorter _ rfl

/-- The state of `io.MultiReader` over two readers. -/
inductive Joined (σ τ : Type*) where
  | both (s : σ) (t : τ)
  | second (t : τ)
  | drained

variable [DecidableEq ε]

/-- `io.MultiReader` over two readers: at the end of the first it goes on with
the second, in the same read when the first had nothing more. -/
def joinedRead (eof : ε) (first : Read σ α ε) (second : Read τ α ε) : Read (Joined σ τ) α ε := fun state size =>
  let fromSecond (t : τ) : Chunk α ε (Joined σ τ) :=
    let got := second t size
    ⟨got.bytes, got.err, if got.err = some eof then .drained else .second got.next⟩
  match state with
  | .both s t =>
    let got := first s size
    if got.err = some eof then
      match got.bytes with
      | [] => fromSecond t
      | _ :: _ => ⟨got.bytes, none, .second t⟩
    else ⟨got.bytes, got.err, .both got.next t⟩
  | .second t => fromSecond t
  | .drained => ⟨[], some eof, .drained⟩

section Joined

variable {eof err : ε} {first : Read σ α ε} {second : Read τ α ε} {s : σ} {t : τ} {data before : List α}

theorem Delivers.onward (ends : Delivers second err t data) :
    Delivers (joinedRead eof first second) err (.second t) data := by
  induction ends with
  | @intro t data fits inOrder more last ih =>
    refine .intro fits inOrder ?_ last
    intro size positive going
    have next : (joinedRead eof first second (.second t) size).next = .second (second t size).next :=
      if_neg (by rw [show (second t size).err = none from going]; simp)
    rw [next]
    exact ih size positive going

variable (second) in
/-- One read of two readers: the first goes on, ends with something or ends alone. -/
theorem Delivers.joinedRead_cases (start : Delivers first eof s before) (t : τ) {size : Nat} (positive : 0 < size) :
    ((first s size).err = none ∧ joinedRead eof first second (.both s t) size =
      ⟨(first s size).bytes, none, .both (first s size).next t⟩) ∨
    (before ≠ [] ∧ before.length ≤ size ∧
      joinedRead eof first second (.both s t) size = ⟨before, none, .second t⟩) ∨
    (before = [] ∧ joinedRead eof first second (.both s t) size =
      joinedRead eof first second (.second t) size) := by
  obtain ⟨fits, _, _, last⟩ := start
  cases ended : (first s size).err with
  | none => exact Or.inl ⟨rfl, by simp [joinedRead, ended]⟩
  | some e =>
    obtain ⟨rfl, all⟩ := last size e positive ended
    have bound := fits size positive
    cases before with
    | nil => exact Or.inr (Or.inr ⟨rfl, by simp [joinedRead, ended, all]⟩)
    | cons a rest =>
      refine Or.inr (Or.inl ⟨by simp, all ▸ bound, ?_⟩)
      simp [joinedRead, ended, all]

/-- What two readers deliver one after the other. -/
theorem Delivers.joined (start : Delivers first eof s before) (ends : Delivers second err t data) :
    Delivers (joinedRead eof first second) err (.both s t) (before ++ data) := by
  have onward : Delivers (joinedRead eof first second) err (.second t) data := ends.onward
  induction start with
  | @intro s before fits inOrder more last ih =>
    have outcome (size : Nat) (positive : 0 < size) :=
      Delivers.joinedRead_cases second (.intro fits inOrder more last) t positive
    obtain ⟨fits', inOrder', more', last'⟩ := onward
    refine .intro ?_ ?_ ?_ ?_
    · intro size positive
      rcases outcome size positive with ⟨_, same⟩ | ⟨_, bound, same⟩ | ⟨_, same⟩
      · rw [same]
        exact fits size positive
      · rw [same]
        exact bound
      · rw [same]
        exact fits' size positive
    · intro size positive
      rcases outcome size positive with ⟨_, same⟩ | ⟨_, _, same⟩ | ⟨rfl, same⟩
      · rw [same]
        exact (inOrder size positive).trans (List.prefix_append _ _)
      · rw [same]
        exact List.prefix_append _ _
      · rw [same]
        exact inOrder' size positive
    · intro size positive going
      rcases outcome size positive with ⟨on, same⟩ | ⟨_, _, same⟩ | ⟨rfl, same⟩
      · rw [same]
        have rest := ih size positive on
        rwa [← List.drop_append_of_le_length (inOrder size positive).length_le] at rest
      · rw [same]
        dsimp only
        rw [List.drop_left]
        exact .intro fits' inOrder' more' last'
      · rw [same] at going ⊢
        exact more' size positive going
    · intro size e positive failed
      rcases outcome size positive with ⟨_, same⟩ | ⟨_, _, same⟩ | ⟨rfl, same⟩
      · rw [same] at failed
        cases failed
      · rw [same] at failed
        cases failed
      · rw [same] at failed ⊢
        exact last' size e positive failed

/-- What is delivered when only the second reader is left comes from it. -/
theorem Delivers.of_onward (ends : Delivers (joinedRead eof first second) err (.second t) data) :
    Delivers second err t data := by
  generalize state : (Joined.second t : Joined σ τ) = j at ends
  induction ends generalizing t with
  | @intro j data fits inOrder more last ih =>
    subst state
    refine .intro fits inOrder ?_ last
    intro size positive going
    have next : (joinedRead eof first second (.second t) size).next = .second (second t size).next :=
      if_neg (by rw [going]; simp)
    exact ih size positive going next.symm

/-- What follows the bytes in memory comes from the second reader. -/
theorem Delivers.after_bytes {rest : List α}
    (ends : Delivers (joinedRead eof (bytesRead eof) second) err (.both rest t) (rest ++ data)) :
    Delivers second err t data := by
  have passed (alone : Delivers (joinedRead eof (bytesRead eof) second) err (.both [] t) data) :
      Delivers second err t data := by
    have same (size : Nat) : joinedRead eof (bytesRead eof) second (.both [] t) size =
        joinedRead eof (bytesRead eof) second (.second t) size := by
      simp [joinedRead, bytesRead]
    obtain ⟨fits, inOrder, more, last⟩ := alone
    simp only [same] at fits inOrder more last
    exact .of_onward (.intro fits inOrder more last)
  cases rest with
  | nil => exact passed ends
  | cons a rest =>
    obtain ⟨_, _, more, _⟩ := ends
    have later := more (a :: rest).length (by simp) (by simp [joinedRead, bytesRead])
    refine passed ?_
    simpa [joinedRead, bytesRead] using later

end Joined

end Reader
