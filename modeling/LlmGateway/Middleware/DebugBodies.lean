import LlmGateway.Lib.Reader
import LlmGateway.Model.Int64

namespace LlmGateway

open Reader

/-- The error of a read of a request body. -/
inductive BodyError where
  | eof
  | unexpectedEOF
  | other (text : String)
deriving DecidableEq, Repr

def BodyError.error : BodyError → String
  | .eof => "EOF"
  | .unexpectedEOF => "unexpected EOF"
  | .other text => text

def defaultDebugBodyLimit : Int := 1 <<< 20

/-- A line of the debug log. `truncated` says that the attribute is there. -/
inductive DebugLine where
  | body (path : String) (len : Nat) (body : List UInt8) (truncated : Bool)
  | readFailed (err : String)
deriving DecidableEq, Repr

/-- The body that the handler reads: the one that came with the request, bytes in
memory, or bytes in memory and the rest of that one. -/
inductive HandlerBody (σ : Type) where
  | original (s : σ)
  | buffered (rest : List UInt8)
  | restored (joined : Joined (List UInt8) σ)

def HandlerBody.read {σ : Type} (read : Read σ UInt8 BodyError) : Read (HandlerBody σ) UInt8 BodyError :=
  fun body size =>
  match body with
  | .original s =>
    let got := read s size
    ⟨got.bytes, got.err, .original got.next⟩
  | .buffered rest =>
    let got := bytesRead .eof rest size
    ⟨got.bytes, got.err, .buffered got.next⟩
  | .restored joined =>
    let got := joinedRead .eof (bytesRead .eof) read joined size
    ⟨got.bytes, got.err, .restored got.next⟩

/-- What the middleware has made of a request: it still reads the body, it has
panicked, or it has called the handler with a body after logging. -/
inductive Debugged (σ : Type) where
  | reading
  | panicked (text : String)
  | served (logged : List DebugLine) (body : Option (HandlerBody σ))

/-- The limit that `DebugRequestBodies` captures. -/
def debugLimit (limit : Int) : Int := if limit ≤ 0 then defaultDebugBodyLimit else limit

/-- The handler of `DebugRequestBodies`. `none` is a nil body or `http.NoBody`;
`fuel` bounds the reads of `io.ReadFull`. The memory for the buffer is there. -/
def debugRequestBodies {σ : Type} (limit : Int) (enabled : Bool) (path : String) (read : Read σ UInt8 BodyError)
    (fuel : Nat) (body : Option σ) : Debugged σ :=
  let limit := debugLimit limit
  if !enabled then .served [] (body.map .original)
  else match body with
    | none => .served [] none
    | some s =>
      if wrap64 (limit + 1) < 0 then .panicked "runtime error: makeslice: len out of range"
      else match readFull .eof .unexpectedEOF read fuel s (wrap64 (limit + 1)).toNat with
        | none => .reading
        | some ⟨consumed, none, rest⟩ =>
          let logged := consumed.take limit.toNat
          .served [.body path logged.length logged true] (some (.restored (.both consumed rest)))
        | some ⟨consumed, some .unexpectedEOF, _⟩ | some ⟨consumed, some .eof, _⟩ =>
          .served [.body path consumed.length consumed false] (some (.buffered consumed))
        | some ⟨_, some (.other text), _⟩ =>
          .served [.readFailed (BodyError.other text).error] (some (.buffered []))

section Bodies

variable {σ : Type} {read : Read σ UInt8 BodyError} {err : BodyError} {data : List UInt8}

theorem delivers_original {s : σ} :
    Delivers (HandlerBody.read read) err (.original s) data ↔ Delivers read err s data :=
  Delivers.map_iff fun _ _ => rfl

theorem delivers_buffered (rest : List UInt8) : Delivers (HandlerBody.read read) .eof (.buffered rest) rest :=
  (Delivers.map_iff fun _ _ => rfl).mpr (delivers_bytes BodyError.eof rest)

theorem delivers_restored {joined : Joined (List UInt8) σ} :
    Delivers (HandlerBody.read read) err (.restored joined) data ↔
      Delivers (joinedRead .eof (bytesRead .eof) read) err joined data :=
  Delivers.map_iff fun _ _ => rfl

end Bodies

theorem debugLimit_pos (limit : Int) : 0 < debugLimit limit := by
  unfold debugLimit defaultDebugBodyLimit
  split <;> omega

theorem debugLimit_lt {limit : Int} (below : limit < maxInt) : debugLimit limit < maxInt := by
  unfold debugLimit
  split
  · decide
  · exact below

/-- One byte more than the limit is asked for. -/
theorem wrap64_debugLimit {limit : Int} (below : debugLimit limit < maxInt) :
    wrap64 (debugLimit limit + 1) = debugLimit limit + 1 := by
  have positive := debugLimit_pos limit
  unfold maxInt at below
  exact wrap64_of_fits (by omega) (by omega)

section Read

variable {σ : Type} {read : Read σ UInt8 BodyError} {limit : Int} {path : String} {fuel : Nat} {s : σ}

/-- A body that fills the buffer is logged up to the limit and put back before the
rest. -/
theorem debugRequestBodies_full (below : debugLimit limit < maxInt) {data : List UInt8}
    (long : (debugLimit limit).toNat < data.length) {e : Option BodyError} {rest : σ}
    (taken : readLoop read fuel s ((debugLimit limit).toNat + 1) =
      some ⟨data.take ((debugLimit limit).toNat + 1), e, rest⟩) :
    debugRequestBodies limit true path read fuel (some s) =
      .served [.body path (debugLimit limit).toNat (data.take (debugLimit limit).toNat) true]
        (some (.restored (.both (data.take ((debugLimit limit).toNat + 1)) rest))) := by
  have positive := debugLimit_pos limit
  have size : (debugLimit limit + 1).toNat = (debugLimit limit).toNat + 1 := by omega
  have length : (data.take ((debugLimit limit).toNat + 1)).length = (debugLimit limit).toNat + 1 := by
    rw [List.length_take]
    omega
  have full : readFull .eof .unexpectedEOF read fuel s ((debugLimit limit).toNat + 1) =
      some ⟨data.take ((debugLimit limit).toNat + 1), none, rest⟩ := by
    rw [readFull, taken, Option.map_some, if_pos length.ge]
  have logged : (data.take ((debugLimit limit).toNat + 1)).take (debugLimit limit).toNat =
      data.take (debugLimit limit).toNat := by
    rw [List.take_take, min_eq_left (by omega)]
  simp only [debugRequestBodies, Bool.not_true, Bool.false_eq_true, if_false, wrap64_debugLimit below, size, full,
    logged, List.length_take]
  rw [if_neg (by omega), min_eq_left (by omega)]

/-- What `io.ReadFull` makes of a body that ends before the buffer is full. -/
theorem readFull_short {data : List UInt8} {size : Nat} (short : data.length < size) {err : BodyError} {rest : σ}
    (taken : readLoop read fuel s size = some ⟨data, some err, rest⟩) :
    readFull .eof .unexpectedEOF read fuel s size =
      some ⟨data, some (if data ≠ [] ∧ err = .eof then .unexpectedEOF else err), rest⟩ := by
  rw [readFull, taken, Option.map_some, if_neg (by simpa using short)]
  by_cases partly : data ≠ [] ∧ err = .eof
  · rw [if_pos ⟨List.length_pos_iff.mpr partly.1, congrArg some partly.2⟩, if_pos partly]
  · rw [if_neg (by simpa [List.length_pos_iff] using partly), if_neg partly]

theorem debugRequestBodies_short (below : debugLimit limit < maxInt) {data : List UInt8} {err : BodyError}
    {rest : σ} (short : data.length ≤ (debugLimit limit).toNat)
    (taken : readLoop read fuel s ((debugLimit limit).toNat + 1) = some ⟨data, some err, rest⟩) :
    debugRequestBodies limit true path read fuel (some s) = match err with
      | .eof | .unexpectedEOF => .served [.body path data.length data false] (some (.buffered data))
      | .other text => .served [.readFailed text] (some (.buffered [])) := by
  have positive := debugLimit_pos limit
  have size : (debugLimit limit + 1).toNat = (debugLimit limit).toNat + 1 := by omega
  have filled := readFull_short (by omega) taken
  simp only [debugRequestBodies, Bool.not_true, Bool.false_eq_true, if_false, wrap64_debugLimit below, size, filled]
  rw [if_neg (by omega)]
  cases err with
  | eof => by_cases empty : data = [] <;> simp [empty]
  | unexpectedEOF => simp
  | other text => simp [BodyError.error]

end Read

/-- A body that ends in EOF reaches the handler as it is, and the log has its
first bytes up to the limit and the flag exactly when that is not all. -/
theorem debug_bodies_invisible (limit : Int) (below : limit < maxInt) (path : String) {σ : Type}
    (read : Read σ UInt8 BodyError) (again : Repeats read .eof) {s : σ} {data : List UInt8}
    (ends : Delivers read .eof s data) :
    let most := (debugLimit limit).toNat
    ∃ enough, ∀ fuel ≥ enough, ∃ body,
      debugRequestBodies limit true path read fuel (some s) =
        .served [.body path (min data.length most) (data.take (min data.length most)) (most < data.length)]
          (some body) ∧
      Delivers (HandlerBody.read read) .eof body data := by
  intro most
  have fits := debugLimit_lt below
  by_cases long : most < data.length
  · obtain ⟨enough, e, rest, taken, left⟩ := readLoop_repeats again ends (most + 1)
    refine ⟨enough, fun fuel more => ⟨.restored (.both (data.take (most + 1)) rest), ?_, delivers_restored.mpr ?_⟩⟩
    · rw [debugRequestBodies_full fits long (readLoop_mono more taken), min_eq_right long.le, decide_eq_true long]
    · have whole := (delivers_bytes BodyError.eof (data.take (most + 1))).joined left
      rwa [List.take_append_drop] at whole
  · obtain ⟨enough, e, rest, taken, outcome⟩ := readLoop_delivers ends (most + 1)
    have failed : e = some .eof := by
      rcases outcome with ⟨enough, _, _⟩ | ⟨_, failed, _⟩
      · omega
      · exact failed
    rw [List.take_of_length_le (by omega), failed] at taken
    refine ⟨enough, fun fuel more => ⟨.buffered data, ?_, delivers_buffered data⟩⟩
    rw [debugRequestBodies_short fits (by omega) (readLoop_mono more taken), min_eq_left (by omega),
      List.take_length, decide_eq_false long]

/-- A body of three bytes with a limit of two. -/
theorem debug_bodies_invisible_three :
    ∃ enough, ∀ fuel ≥ enough, ∃ body,
      debugRequestBodies 2 true "/v1/chat/completions" (bytesRead .eof) fuel (some [1, 2, 3]) =
        .served [.body "/v1/chat/completions" 2 [1, 2] true] (some body) ∧
      Delivers (HandlerBody.read (bytesRead .eof)) .eof body [1, 2, 3] := by
  refine debug_bodies_invisible 2 (by decide) "/v1/chat/completions" (bytesRead .eof) ?_
    (delivers_bytes BodyError.eof [1, 2, 3])
  intro rest size _ ended
  cases rest with
  | nil => exact delivers_bytes BodyError.eof []
  | cons a rest => cases ended

/-- The reader that is left when the loop of `io.ReadFull` has read this much. -/
def LeftAfter {σ : Type} (read : Read σ UInt8 BodyError) (s : σ) (size : Nat) (next : σ) : Prop :=
  ∃ fuel got, readLoop read fuel s size = some got ∧ got.next = next

/-- The loop leaves one reader, however much fuel it has. -/
theorem LeftAfter.unique {σ : Type} {read : Read σ UInt8 BodyError} {s next : σ} {size fuel : Nat}
    {got : Chunk UInt8 BodyError σ} (left : LeftAfter read s size next) (taken : readLoop read fuel s size = some got) :
    got.next = next := by
  obtain ⟨fuel', got', taken', rfl⟩ := left
  have one := readLoop_mono (Nat.le_add_right fuel fuel') taken
  rw [readLoop_mono (Nat.le_add_left fuel' fuel) taken'] at one
  rw [Option.some.inj one]

section Failing

variable {σ : Type} {read : Read σ UInt8 BodyError} {limit : Int} {path : String} {fuel : Nat} {s : σ}
  {data : List UInt8} {err : BodyError}

/-- Below the limit the failure is lost: a premature end is taken for the end, and
for any other failure the body is dropped. -/
theorem debug_failure_lost (below : debugLimit limit < maxInt) (short : data.length ≤ (debugLimit limit).toNat)
    (failure : err ≠ .eof) {rest : σ}
    (taken : readLoop read fuel s ((debugLimit limit).toNat + 1) = some ⟨data, some err, rest⟩)
    {logged : List DebugLine} {body : HandlerBody σ}
    (served : debugRequestBodies limit true path read fuel (some s) = .served logged (some body)) :
    ¬ Delivers (HandlerBody.read read) err body data := by
  intro delivered
  rw [debugRequestBodies_short below short taken] at served
  cases err with
  | eof => exact failure rfl
  | unexpectedEOF =>
    cases served
    cases (delivered.unique (delivers_buffered data)).1
  | other text =>
    cases served
    cases (delivered.unique (delivers_buffered [])).1

/-- The restored body fails as the rest of the original one does. -/
theorem delivers_restored_iff {taken : List UInt8} {rest : σ} {data : List UInt8} :
    Delivers (HandlerBody.read read) err (.restored (.both taken rest)) (taken ++ data) ↔
      Delivers read err rest data :=
  delivers_restored.trans ⟨Delivers.after_bytes, fun left => (delivers_bytes BodyError.eof taken).joined left⟩

/-- What the loop leaves fails as before iff it has not come to the failure, or
the reader fails once more. -/
theorem left_fails_iff {size : Nat} (long : size ≤ data.length) {e : Option BodyError} {next : σ}
    (taken : readLoop read fuel s size = some ⟨data.take size, e, next⟩)
    (outcome : size ≤ data.length ∧ e = none ∧ Delivers read err next (data.drop size) ∨ data.length ≤ size) :
    Delivers read err next (data.drop size) ↔
      size < data.length ∨ size = data.length ∧ ∃ next, LeftAfter read s size next ∧ Delivers read err next [] := by
  constructor
  · intro left
    rcases Nat.lt_or_ge size data.length with more | all
    · exact Or.inl more
    · rw [List.drop_of_length_le all] at left
      exact Or.inr ⟨by omega, next, ⟨fuel, _, taken, rfl⟩, left⟩
  · rintro (more | ⟨all, other, left, again⟩)
    · rcases outcome with ⟨_, _, left⟩ | ended
      · exact left
      · omega
    · have same : next = other := left.unique taken
      rw [List.drop_of_length_le (by omega), same]
      exact again

end Failing

/-- A body that fails reaches the handler as it is iff its failure comes after
the byte that follows the limit, or along with that byte from a reader that fails
once more. -/
theorem debug_failure_preserved_iff (limit : Int) (fits : limit ≤ maxInt) (enabled : Bool) (path : String) {σ : Type}
    (read : Read σ UInt8 BodyError) {s : σ} {data : List UInt8} {err : BodyError} (fails : Delivers read err s data)
    (failure : err ≠ .eof) :
    (∃ enough, ∀ fuel ≥ enough, ∃ logged body,
      debugRequestBodies limit enabled path read fuel (some s) = .served logged (some body) ∧
        Delivers (HandlerBody.read read) err body data) ↔
      enabled = false ∨ debugLimit limit < maxInt ∧
        ((debugLimit limit).toNat + 1 < data.length ∨
          (debugLimit limit).toNat + 1 = data.length ∧
            ∃ next, LeftAfter read s ((debugLimit limit).toNat + 1) next ∧ Delivers read err next []) := by
  cases enabled with
  | false => exact iff_of_true ⟨0, fun fuel _ => ⟨[], .original s, rfl, delivers_original.mpr fails⟩⟩ (Or.inl rfl)
  | true =>
    obtain ⟨enough, e, next, taken, outcome⟩ := readLoop_delivers fails ((debugLimit limit).toNat + 1)
    simp only [Bool.true_eq_false, false_or]
    by_cases below : debugLimit limit < maxInt
    · simp only [below, true_and]
      by_cases long : (debugLimit limit).toNat + 1 ≤ data.length
      · rw [← left_fails_iff long taken (outcome.imp_right And.left), ← delivers_restored_iff,
          List.take_append_drop]
        constructor
        · rintro ⟨enough', reads⟩
          obtain ⟨logged, body, served, delivered⟩ := reads (enough' + enough) (by omega)
          rw [debugRequestBodies_full below long (readLoop_mono (Nat.le_add_left _ _) taken)] at served
          cases served
          exact delivered
        · intro delivered
          exact ⟨enough, fun fuel more =>
            ⟨_, _, debugRequestBodies_full below long (readLoop_mono more taken), delivered⟩⟩
      · have failed : e = some err := by
          rcases outcome with ⟨enough, _, _⟩ | ⟨_, failed, _⟩
          · omega
          · exact failed
        rw [List.take_of_length_le (by omega), failed] at taken
        refine iff_of_false ?_ (by omega)
        rintro ⟨enough', reads⟩
        obtain ⟨logged, body, served, delivered⟩ := reads (enough' + enough) (by omega)
        exact debug_failure_lost below (by omega) failure (readLoop_mono (Nat.le_add_left _ _) taken) served delivered
    · have panics : wrap64 (debugLimit limit + 1) < 0 := by
        have most : debugLimit limit ≤ maxInt := by
          unfold debugLimit
          split
          · decide
          · exact fits
        rw [show debugLimit limit = maxInt by omega]
        decide
      refine iff_of_false ?_ (by simp [below])
      rintro ⟨enough', reads⟩
      obtain ⟨logged, body, served, _⟩ := reads enough' le_rfl
      simp [debugRequestBodies, panics] at served

/-- A connection that is reset after three bytes, with a limit of one. -/
theorem debug_failure_preserved_iff_reset :
    ∃ enough, ∀ fuel ≥ enough, ∃ logged body,
      debugRequestBodies 1 true "/v1/chat/completions" (bytesRead (.other "reset")) fuel (some [1, 2, 3]) =
        .served logged (some body) ∧
      Delivers (HandlerBody.read (bytesRead (.other "reset"))) (.other "reset") body [1, 2, 3] :=
  (debug_failure_preserved_iff 1 (by decide) true "/v1/chat/completions" (bytesRead (.other "reset"))
    (delivers_bytes (BodyError.other "reset") [1, 2, 3]) (by decide)).mpr (Or.inr ⟨by decide, Or.inl (by decide)⟩)

/-- An upload that breaks off is handed on as complete, and one that fails in
another way as empty. -/
theorem broken_upload_looks_complete :
    Delivers (bytesRead BodyError.unexpectedEOF) .unexpectedEOF [1, 2, 3] [1, 2, 3] ∧
      debugRequestBodies 0 true "/v1/chat/completions" (bytesRead .unexpectedEOF) 9 (some [1, 2, 3]) =
        .served [.body "/v1/chat/completions" 3 [1, 2, 3] false] (some (.buffered [1, 2, 3])) ∧
      Delivers (HandlerBody.read (bytesRead .unexpectedEOF)) .eof (.buffered [1, 2, 3]) [1, 2, 3] ∧
      debugRequestBodies 0 true "/v1/chat/completions" (bytesRead (.other "reset")) 9 (some [1, 2, 3]) =
        .served [.readFailed "reset"] (some (.buffered [])) ∧
      Delivers (HandlerBody.read (bytesRead (.other "reset"))) .eof (.buffered []) [] :=
  ⟨delivers_bytes _ _, rfl, delivers_buffered _, rfl, delivers_buffered _⟩

end LlmGateway
