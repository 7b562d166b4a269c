import LlmGateway.Lib.Transition
import LlmGateway.Provider.Stream

namespace LlmGateway

/-- How the loop of `trackStreamHealth` was left: with the input, or through
`ctx.Done` with an event in hand. -/
inductive LoopExit (γ : Type) where
  | inputClosed
  | ctxDone (evt : StreamEvent γ)

/-- Where the goroutine of `trackStreamHealth` stands. It closes its output last,
since the call is deferred. -/
inductive ForwardPC (γ : Type) where
  | receiving
  | sending (evt : StreamEvent γ)
  | recording (r : HealthRecord)
  | closing (exit : LoopExit γ)
  | exited (exit : LoopExit γ)

/-- The two channels, the goroutine between them and the context. `sent` is what
the producer has sent, `received` what the consumer has got, `recorded` what has
been recorded of the provider's health. -/
structure ForwardState (γ : Type) where
  input : List (StreamEvent γ)
  inClosed : Bool
  pc : ForwardPC γ
  sawError : Bool
  lastErr : Option CallError
  output : List (StreamEvent γ)
  outClosed : Bool
  cancelled : Bool
  sent : List (StreamEvent γ)
  received : List (StreamEvent γ)
  recorded : List HealthRecord

inductive ForwardAction (γ : Type) where
  | send (evt : StreamEvent γ)
  | closeInput
  | receive
  | seeClose
  | forward
  | leave
  | record
  | closeOutput
  | consume
  | cancel

namespace ForwardState

variable {γ : Type}

def start : ForwardState γ := ⟨[], false, .receiving, false, none, [], false, false, [], [], []⟩

/-- The head of the loop's body. -/
def take (s : ForwardState γ) (evt : StreamEvent γ) : ForwardState γ :=
  match evt with
  | .err e => { s with pc := .sending evt, sawError := true, lastErr := some e }
  | .chunk _ => { s with pc := .sending evt }

/-- Both channels have the same capacity; with none an event is handed over. When both
branches of the `select` are ready, either is taken. -/
def step (capacity : Nat) (s : ForwardState γ) : ForwardAction γ → Option (ForwardState γ)
  | .send evt =>
    if s.inClosed then none
    else if s.input.length < capacity then some { s with input := s.input ++ [evt], sent := s.sent ++ [evt] }
    else match s.pc with
      | .receiving => if capacity = 0 then some (take { s with sent := s.sent ++ [evt] } evt) else none
      | _ => none
  | .closeInput => if s.inClosed then none else some { s with inClosed := true }
  | .receive =>
    match s.pc, s.input with
    | .receiving, evt :: rest => some (take { s with input := rest } evt)
    | _, _ => none
  | .seeClose =>
    match s.pc, s.input with
    | .receiving, [] =>
      if s.inClosed then
        some { s with pc := .recording (if s.sawError then .failure s.lastErr else .success) }
      else none
    | _, _ => none
  | .forward =>
    match s.pc with
    | .sending evt =>
      if s.output.length < capacity then some { s with pc := .receiving, output := s.output ++ [evt] }
      else if capacity = 0 then some { s with pc := .receiving, received := s.received ++ [evt] }
      else none
    | _ => none
  | .leave =>
    match s.pc with
    | .sending evt => if s.cancelled then some { s with pc := .closing (.ctxDone evt) } else none
    | _ => none
  | .record =>
    match s.pc with
    | .recording r => some { s with pc := .closing .inputClosed, recorded := s.recorded ++ [r] }
    | _ => none
  | .closeOutput =>
    match s.pc with
    | .closing exit => some { s with pc := .exited exit, outClosed := true }
    | _ => none
  | .consume =>
    match s.output with
    | evt :: rest => some { s with output := rest, received := s.received ++ [evt] }
    | [] => none
  | .cancel => some { s with cancelled := true }

end ForwardState

namespace ForwardPC

variable {γ : Type}

/-- The event the goroutine holds, or held when it left. -/
def held : ForwardPC γ → List (StreamEvent γ)
  | .sending evt | .closing (.ctxDone evt) | .exited (.ctxDone evt) => [evt]
  | _ => []

/-- The loop was left with the input. -/
def AtEnd : ForwardPC γ → Prop
  | .recording _ | .closing .inputClosed | .exited .inputClosed => True
  | _ => False

/-- One outcome is recorded once the loop was left with the input, and none
otherwise. -/
def Recorded (sent : List (StreamEvent γ)) (recorded : List HealthRecord) : ForwardPC γ → Prop
  | .recording r => r = streamHealth sent ∧ recorded = []
  | .closing .inputClosed | .exited .inputClosed => recorded = [streamHealth sent]
  | _ => recorded = []

/-- The steps left to the goroutine once it has left the loop. -/
def wayOut : ForwardPC γ → Option (List (ForwardAction γ))
  | .recording _ => some [.record, .closeOutput]
  | .closing _ => some [.closeOutput]
  | .exited _ => some []
  | _ => none

def isExited : ForwardPC γ → Bool
  | .exited _ => true
  | _ => false

variable {pc : ForwardPC γ} {sent sent' : List (StreamEvent γ)} {recorded : List HealthRecord}

theorem Recorded.of_not_atEnd (inside : ¬ pc.AtEnd) (held : pc.Recorded sent recorded) :
    pc.Recorded sent' recorded := by
  rcases pc with _ | _ | _ | (_ | _) | (_ | _)
  all_goals first | exact held | exact absurd trivial inside

end ForwardPC

namespace ForwardState

variable {γ : Type} {capacity : Nat} {s t : ForwardState γ}

/-- What the goroutine has taken from its input. -/
def taken (s : ForwardState γ) : List (StreamEvent γ) := s.received ++ s.output ++ s.pc.held

/-- No event is lost or doubled on the way, the error remembered is the last one
taken, and the outcome is recorded at its place. -/
structure Forwarding (capacity : Nat) (s : ForwardState γ) : Prop where
  bounded : s.input.length ≤ capacity
  outBounded : s.output.length ≤ capacity
  conserved : s.sent = s.taken ++ s.input
  remembered : s.lastErr = lastStreamErr s.taken
  noticed : s.sawError = s.lastErr.isSome
  ended : s.pc.AtEnd → s.inClosed = true ∧ s.input = []
  recorded : s.pc.Recorded s.sent s.recorded
  closed : s.outClosed = s.pc.isExited

theorem forwarding_start : Forwarding capacity (start : ForwardState γ) :=
  ⟨Nat.zero_le _, Nat.zero_le _, rfl, rfl, rfl, nofun, rfl, rfl⟩

/-- The event that comes after what was taken so far is taken. -/
theorem Forwarding.take {evt : StreamEvent γ} (bounded : s.input.length ≤ capacity)
    (outBounded : s.output.length ≤ capacity) (receiving : s.pc = .receiving)
    (conserved : s.sent = s.taken ++ evt :: s.input) (remembered : s.lastErr = lastStreamErr s.taken)
    (noticed : s.sawError = s.lastErr.isSome) (unrecorded : s.recorded = []) (opened : s.outClosed = false) :
    Forwarding capacity (s.take evt) := by
  have before : s.taken = s.received ++ s.output := by
    rw [taken, receiving]
    exact List.append_nil _
  have more : (s.take evt).taken = s.taken ++ [evt] := by
    rw [before]
    cases evt <;> rfl
  cases evt with
  | err e =>
    refine ⟨bounded, outBounded, ?_, ?_, rfl, nofun, unrecorded, opened⟩
    · rw [more]
      exact conserved.trans (List.append_cons ..)
    · rw [more, lastStreamErr_concat]
      rfl
  | chunk c =>
    refine ⟨bounded, outBounded, ?_, ?_, noticed, nofun, unrecorded, opened⟩
    · rw [more]
      exact conserved.trans (List.append_cons ..)
    · rw [more, lastStreamErr_concat]
      exact remembered

/-- What the invariant says at one place of the goroutine. -/
theorem Forwarding.at {pc : ForwardPC γ} (held : Forwarding capacity s) (here : s.pc = pc) :
    (pc.AtEnd → s.inClosed = true ∧ s.input = []) ∧ pc.Recorded s.sent s.recorded ∧ s.outClosed = pc.isExited := by
  subst here
  exact ⟨held.ended, held.recorded, held.closed⟩

theorem Forwarding.send {evt : StreamEvent γ} (held : Forwarding capacity s)
    (next : step capacity s (.send evt) = some t) : Forwarding capacity t := by
  simp only [step] at next
  split at next
  · cases next
  · rename_i opened
    have inside : ¬ s.pc.AtEnd := fun atEnd => opened (held.ended atEnd).1
    split at next
    · cases next
      refine ⟨?_, held.outBounded, ?_, held.remembered, held.noticed, fun atEnd => absurd atEnd inside,
        held.recorded.of_not_atEnd inside, held.closed⟩
      · rename_i room
        exact (List.length_append ..).trans_le room
      · exact (congrArg (· ++ [evt]) held.conserved).trans (List.append_assoc ..)
    · split at next
      · rename_i receiving
        split at next
        · rename_i unbuffered
          cases next
          have empty : s.input = [] := List.eq_nil_of_length_eq_zero (Nat.le_zero.mp (unbuffered ▸ held.bounded))
          have conserved : s.sent ++ [evt] = s.taken ++ evt :: s.input := by
            rw [held.conserved, empty, List.append_nil]
          obtain ⟨-, unrecorded, outOpen⟩ := held.at receiving
          exact Forwarding.take (s := { s with sent := s.sent ++ [evt] }) held.bounded held.outBounded receiving
            conserved held.remembered held.noticed unrecorded outOpen
        · cases next
      · cases next

theorem Forwarding.receive (held : Forwarding capacity s) (next : step capacity s .receive = some t) :
    Forwarding capacity t := by
  simp only [step] at next
  split at next
  · rename_i evt rest receiving input
    cases next
    obtain ⟨-, unrecorded, opened⟩ := held.at receiving
    refine Forwarding.take (s := { s with input := rest }) ?_ held.outBounded receiving ?_ held.remembered
      held.noticed unrecorded opened
    · have bounded := held.bounded
      rw [input] at bounded
      exact (Nat.le_succ _).trans bounded
    · rw [← input]
      exact held.conserved
  · cases next

/-- A step that takes nothing from the input keeps what was taken. -/
theorem Forwarding.move (held : Forwarding capacity s) (input : t.input = s.input) (sent : t.sent = s.sent)
    (lastErr : t.lastErr = s.lastErr) (sawError : t.sawError = s.sawError)
    (outBounded : t.output.length ≤ capacity) (same : t.taken = s.taken)
    (ended : t.pc.AtEnd → t.inClosed = true ∧ t.input = []) (recorded : t.pc.Recorded t.sent t.recorded)
    (closed : t.outClosed = t.pc.isExited) : Forwarding capacity t where
  bounded := input ▸ held.bounded
  outBounded := outBounded
  conserved := by rw [sent, same, input, held.conserved]
  remembered := by rw [lastErr, same, held.remembered]
  noticed := by rw [sawError, lastErr, held.noticed]
  ended := ended
  recorded := recorded
  closed := closed

theorem Forwarding.seeClose (held : Forwarding capacity s) (next : step capacity s .seeClose = some t) :
    Forwarding capacity t := by
  simp only [step] at next
  split at next
  · rename_i receiving input
    split at next
    · rename_i ended
      cases next
      have all : s.sent = s.taken := by rw [held.conserved, input, List.append_nil]
      obtain ⟨-, unrecorded, opened⟩ := held.at receiving
      refine held.move rfl rfl rfl rfl held.outBounded ?_ (fun _ => ⟨ended, input⟩) ⟨?_, unrecorded⟩ opened
      · rw [taken, taken, receiving]
        rfl
      · show (if s.sawError then HealthRecord.failure s.lastErr else .success) = streamHealth s.sent
        rw [streamHealth, all, ← held.remembered, held.noticed]
        cases s.lastErr <;> rfl
    · cases next
  · cases next

theorem Forwarding.forward (held : Forwarding capacity s) (next : step capacity s .forward = some t) :
    Forwarding capacity t := by
  simp only [step] at next
  split at next
  · rename_i evt sending
    obtain ⟨-, recorded, closed⟩ := held.at sending
    have whole : s.taken = s.received ++ s.output ++ [evt] := by
      rw [taken, sending]
      rfl
    split at next
    · rename_i room
      cases next
      refine held.move rfl rfl rfl rfl ((List.length_append ..).trans_le room) ?_ nofun recorded closed
      rw [whole, List.append_assoc]
      exact List.append_nil _
    · split at next
      · rename_i unbuffered
        cases next
        have empty : s.output = [] := List.eq_nil_of_length_eq_zero (Nat.le_zero.mp (unbuffered ▸ held.outBounded))
        refine held.move rfl rfl rfl rfl held.outBounded ?_ nofun recorded closed
        rw [whole, empty, List.append_nil]
        exact (List.append_nil _).trans (List.append_nil _)
      · cases next
  · cases next

theorem Forwarding.leave (held : Forwarding capacity s) (next : step capacity s .leave = some t) :
    Forwarding capacity t := by
  simp only [step] at next
  split at next
  · rename_i evt sending
    obtain ⟨-, recorded, closed⟩ := held.at sending
    split at next
    · cases next
      refine held.move rfl rfl rfl rfl held.outBounded ?_ nofun recorded closed
      rw [taken, taken, sending]
      rfl
    · cases next
  · cases next

theorem Forwarding.record (held : Forwarding capacity s) (next : step capacity s .record = some t) :
    Forwarding capacity t := by
  simp only [step] at next
  split at next
  · rename_i r recording
    obtain ⟨ended, ⟨outcome, none⟩, closed⟩ := held.at recording
    cases next
    refine held.move rfl rfl rfl rfl held.outBounded ?_ (fun _ => ended trivial) ?_ closed
    · rw [taken, taken, recording]
      rfl
    · show s.recorded ++ [r] = [streamHealth s.sent]
      rw [outcome, none]
      rfl
  · cases next

theorem Forwarding.closeOutput (held : Forwarding capacity s) (next : step capacity s .closeOutput = some t) :
    Forwarding capacity t := by
  simp only [step] at next
  split at next
  · rename_i exit closing
    obtain ⟨ended, recorded, -⟩ := held.at closing
    cases next
    refine held.move rfl rfl rfl rfl held.outBounded ?_ ?_ ?_ rfl
    · rw [taken, taken, closing]
      cases exit <;> rfl
    · cases exit with
      | inputClosed => exact ended
      | ctxDone evt => exact nofun
    · cases exit <;> exact recorded
  · cases next

theorem Forwarding.consume (held : Forwarding capacity s) (next : step capacity s .consume = some t) :
    Forwarding capacity t := by
  simp only [step] at next
  split at next
  · rename_i evt rest output
    cases next
    refine held.move rfl rfl rfl rfl ?_ ?_ held.ended held.recorded held.closed
    · have bounded := held.outBounded
      rw [output] at bounded
      exact (Nat.le_succ _).trans bounded
    · simp only [taken, output, List.append_assoc, List.cons_append, List.nil_append]
  · cases next

/-- What one step preserves. -/
theorem Forwarding.step {a : ForwardAction γ} (held : Forwarding capacity s)
    (next : ForwardState.step capacity s a = some t) : Forwarding capacity t := by
  cases a with
  | send evt => exact held.send next
  | closeInput =>
    simp only [ForwardState.step] at next
    split at next
    · cases next
    · cases next
      exact held.move rfl rfl rfl rfl held.outBounded rfl (fun atEnd => ⟨rfl, (held.ended atEnd).2⟩) held.recorded
        held.closed
  | receive => exact held.receive next
  | seeClose => exact held.seeClose next
  | forward => exact held.forward next
  | leave => exact held.leave next
  | record => exact held.record next
  | closeOutput => exact held.closeOutput next
  | consume => exact held.consume next
  | cancel =>
    cases next
    exact held.move rfl rfl rfl rfl held.outBounded rfl held.ended held.recorded held.closed

theorem forwarding_run {actions : List (ForwardAction γ)}
    (run : Transition.run (step capacity) start actions = some s) : Forwarding capacity s :=
  Transition.run_invariant (fun _ _ _ held next => held.step next) forwarding_start run

theorem Forwarding.received_prefix (held : Forwarding capacity s) : s.received <+: s.sent := by
  refine ⟨s.output ++ s.pc.held ++ s.input, ?_⟩
  rw [held.conserved, taken]
  simp only [List.append_assoc]

/-- When the loop is left with the input, everything sent has been passed on. -/
theorem Forwarding.all_passed (held : Forwarding capacity s) (atEnd : s.pc.AtEnd) :
    s.received ++ s.output = s.sent := by
  have none : s.pc.held = [] := by
    rcases pc : s.pc with _ | _ | _ | (_ | _) | (_ | _)
    all_goals first | rfl | exact absurd atEnd (by rw [pc]; exact id)
  rw [held.conserved, (held.ended atEnd).2, taken, none, List.append_nil, List.append_nil]

/-- The goroutine needs nobody to close its output. -/
theorem Forwarding.way_out (held : Forwarding capacity s) {rest : List (ForwardAction γ)}
    (left : s.pc.wayOut = some rest) :
    ∃ t, Transition.run (ForwardState.step capacity) s rest = some t ∧ t.outClosed = true := by
  cases pc : s.pc with
  | receiving | sending evt =>
    rw [pc] at left
    cases left
  | recording r =>
    rw [pc] at left
    cases left
    refine ⟨{ s with pc := .exited .inputClosed, recorded := s.recorded ++ [r], outClosed := true }, ?_, rfl⟩
    simp only [Transition.run, ForwardState.step, pc, Option.bind_some]
  | closing exit =>
    rw [pc] at left
    cases left
    refine ⟨{ s with pc := .exited exit, outClosed := true }, ?_, rfl⟩
    simp only [Transition.run, ForwardState.step, pc, Option.bind_some]
  | exited exit =>
    rw [pc] at left
    cases left
    exact ⟨s, rfl, (held.at pc).2.2⟩

/-- At every moment the consumer has got the events in order and none twice. When
the loop has run to the close of the input, all of them have been passed on and
one outcome is recorded, a failure with the last error if there was one. When it
was left through the context, none is. In both cases the output is closed. -/
theorem forwarded_and_recorded_once {actions : List (ForwardAction γ)}
    (run : Transition.run (step capacity) start actions = some s) :
    s.received <+: s.sent ∧
      (s.pc.AtEnd → s.received ++ s.output = s.sent) ∧
      (∀ rest, s.pc.wayOut = some rest →
        ∃ t, Transition.run (step capacity) s rest = some t ∧ t.outClosed = true) ∧
      (s.pc = .exited .inputClosed →
        s.outClosed = true ∧
          (Failed s.sent → ∃ before e after, s.sent = before ++ .err e :: after ∧ ¬ Failed after ∧
            s.recorded = [.failure (some e)]) ∧
          (¬ Failed s.sent → s.recorded = [.success])) ∧
      ∀ evt, s.pc = .exited (.ctxDone evt) → s.outClosed = true ∧ s.recorded = [] := by
  have held := forwarding_run run
  refine ⟨held.received_prefix, held.all_passed, fun rest left => held.way_out left, ?_, ?_⟩
  · intro exited
    obtain ⟨-, recorded, closed⟩ := held.at exited
    replace recorded : s.recorded = [streamHealth s.sent] := recorded
    refine ⟨closed, fun failed => ?_, fun clean => ?_⟩
    · obtain ⟨e, last⟩ := Option.isSome_iff_exists.mp (lastStreamErr_isSome.mpr failed)
      obtain ⟨before, after, split, quiet⟩ := lastStreamErr_eq_some last
      refine ⟨before, e, after, split, quiet, ?_⟩
      rw [recorded, streamHealth, last]
    · have none : lastStreamErr s.sent = none := by
        rw [← Option.not_isSome_iff_eq_none, lastStreamErr_isSome]
        exact clean
      rw [recorded, streamHealth, none]
  · intro evt exited
    obtain ⟨-, recorded, closed⟩ := held.at exited
    exact ⟨closed, recorded⟩

/-- A stream without buffers whose second event is an error. -/
def failingStream : List (ForwardAction Nat) :=
  [.send (.chunk 0), .forward, .send (.err (.other "stream broke")), .closeInput, .cancel, .forward, .seeClose,
    .record, .closeOutput]

theorem forwarded_and_recorded_once_failing :
    ∃ s : ForwardState Nat, Transition.run (step 0) start failingStream = some s ∧
      s.received <+: s.sent ∧ s.outClosed = true := by
  obtain ⟨s, taken⟩ : ∃ s : ForwardState Nat, Transition.run (step 0) start failingStream = some s := ⟨_, rfl⟩
  have exited : s.pc = .exited .inputClosed := by
    cases taken
    rfl
  obtain ⟨order, -, -, ended, -⟩ := forwarded_and_recorded_once taken
  exact ⟨s, taken, order, (ended exited).1⟩

end ForwardState

end LlmGateway
