import LlmGateway.Handler.Relay

namespace LlmGateway

/-- The steps left to the adapter without another line. -/
def ScanPC.rank : ScanPC → Nat
  | .sending _ (some _) => 10
  | .scanning _ => 6
  | .sending _ none => 5
  | .checking _ _ => 2
  | .closing => 1
  | .exited => 0

def ForwardPC.rank {γ : Type} : ForwardPC γ → Nat
  | .sending _ => 5
  | .receiving => 3
  | .recording _ => 2
  | .closing _ => 1
  | .exited _ => 0

def HandlerPC.rank : HandlerPC → Nat
  | .returned => 0
  | _ => 1

/-- What the lines still to be read add as long as the context is alive. -/
def ScanPC.reading (left : Nat) : ScanPC → Nat
  | .checking _ _ => 6 * left + 9
  | _ => 6 * left

namespace PipelineState

/-- An event on its way has three steps before it in the first channel and one in
the second. -/
def rank (s : PipelineState) : Nat :=
  s.scanner.rank + 3 * s.channels.input.length + s.channels.pc.rank + s.channels.output.length + s.handler.rank +
    if s.channels.cancelled then 0 else 1 + s.scanner.reading s.left.length

/-- The goroutines have exited and the handler has returned. -/
def Finished (s : PipelineState) : Prop :=
  s.scanner = .exited ∧ s.channels.pc.isExited = true ∧ s.handler = .returned

end PipelineState

namespace Pipeline

variable {P : Pipeline} {w : ResponseWriter} {s t : PipelineState}

theorem rank_leaveLoop (P : Pipeline) (scanErr : Option String) (left : Nat) :
    (P.leaveLoop scanErr).rank ≤ 5 ∧ (P.leaveLoop scanErr).reading left = 6 * left := by
  rw [leaveLoop]
  cases P.adapter.onEnd scanErr with
  | some err => exact ⟨Nat.le_refl _, rfl⟩
  | none => exact ⟨by decide, rfl⟩

theorem rank_onLine (P : Pipeline) (vars : Anthropic.StreamVars) (line : List UInt8) (left : Nat) :
    (P.onLine left vars line).rank ≤ 10 ∧ (P.onLine left vars line).reading left = 6 * left := by
  rw [onLine]
  cases P.adapter.onLine (P.now left) vars line with
  | next vars => exact ⟨Nat.le_add_right 6 4, rfl⟩
  | emit chunk vars => exact ⟨Nat.le_refl _, rfl⟩
  | fail err => exact ⟨Nat.le_add_right 5 5, rfl⟩
  | stop => exact ⟨Nat.le_add_right 1 9, rfl⟩

/-- The goroutine of `trackStreamHealth` lowers the rank of the channels. -/
theorem rank_tracked {channels channels' : ForwardState ChatCompletionChunk}
    (tracked : ForwardState.Tracked channels channels') :
    3 * channels'.input.length + channels'.pc.rank + channels'.output.length <
      3 * channels.input.length + channels.pc.rank + channels.output.length := by
  cases tracked with
  | @receive evt rest pc input =>
    rw [pc, input]
    cases evt <;> simp only [ForwardState.take, ForwardPC.rank, List.length_cons] <;> omega
  | seeClose r pc => simp only [pc, ForwardPC.rank]; omega
  | forward pc => simp only [pc, ForwardPC.rank, List.length_append, List.length_singleton]; omega
  | leave pc => simp only [pc, ForwardPC.rank]; omega
  | record pc => simp only [pc, ForwardPC.rank]; omega
  | closeOutput pc => simp only [pc, ForwardPC.rank]; omega

/-- Every step lowers the rank. -/
theorem rank_moved (moved : Moved P s t) : t.rank < s.rank := by
  cases moved with
  | @scanLine vars line rest scanner left =>
    simp only [PipelineState.rank, scanner, left, ScanPC.rank, ScanPC.reading, List.length_cons]
    split <;> omega
  | scanEnd scanner left =>
    obtain ⟨rank, reading⟩ := P.rank_leaveLoop (scanBody P.body P.fault).err s.left.length
    have before : s.scanner.rank = 6 ∧ s.scanner.reading s.left.length = 6 * s.left.length := by
      rw [scanner]
      exact ⟨rfl, rfl⟩
    simp only [PipelineState.rank, reading, before]
    omega
  | abort scanner done =>
    obtain ⟨rank, -⟩ := P.rank_leaveLoop (some "context canceled") s.left.length
    have before : s.scanner.rank = 6 := by rw [scanner]; rfl
    simp only [PipelineState.rank, done, before, if_true]
    omega
  | checkDone scanner done =>
    simp only [PipelineState.rank, scanner, done, ScanPC.rank, if_true]
    omega
  | @checkLine vars line scanner running =>
    obtain ⟨rank, reading⟩ := P.rank_onLine vars line s.left.length
    have before : s.scanner.rank = 2 ∧ s.scanner.reading s.left.length = 6 * s.left.length + 9 := by
      rw [scanner]
      exact ⟨rfl, rfl⟩
    simp only [PipelineState.rank, running, reading, before, Bool.false_eq_true, if_false]
    omega
  | @send evt onward channels scanner next =>
    obtain ⟨-, rfl⟩ := ForwardState.step_send (by decide) next
    simp only [PipelineState.rank, scanner, List.length_append, List.length_singleton]
    cases onward <;> simp only [Option.elim, ScanPC.rank, ScanPC.reading] <;> omega
  | @quit evt onward scanner done =>
    simp only [PipelineState.rank, scanner, done, if_true]
    cases onward <;> simp only [ScanPC.rank] <;> omega
  | close scanner next =>
    obtain ⟨-, rfl⟩ := ForwardState.step_closeInput next
    simp only [PipelineState.rank, scanner, ScanPC.rank, ScanPC.reading]
    omega
  | track tracks next =>
    have tracked := ForwardState.step_tracks tracks (by decide) next
    have lower := rank_tracked tracked
    simp only [PipelineState.rank, tracked.frame.2.2.1]
    omega
  | @relay evt rest channels output next handler =>
    obtain ⟨_, _, same, rfl⟩ := ForwardState.step_consume next
    have after : (P.relay evt s.writer).1.rank ≤ 1 := by cases (P.relay evt s.writer).1 <;> decide
    have before : s.handler.rank = 1 := by rw [handler]; rfl
    simp only [PipelineState.rank, same, before, List.length_cons]
    omega
  | drain next handler =>
    obtain ⟨_, _, same, rfl⟩ := ForwardState.step_consume next
    simp only [PipelineState.rank, same, List.length_cons]
    omega
  | finish closed empty handler =>
    rcases handler with relays | drains
    · simp only [PipelineState.rank, relays, HandlerPC.rank]
      omega
    · simp only [PipelineState.rank, drains, HandlerPC.rank]
      omega
  | discard closed empty handler =>
    simp only [PipelineState.rank, handler, HandlerPC.rank]
    omega
  | cancel running =>
    simp only [PipelineState.rank, running, Bool.false_eq_true, if_true, if_false]
    omega

theorem rank_start (P : Pipeline) (w : ResponseWriter) :
    (P.start w).rank = 6 * (scanBody P.body P.fault).lines.length + 11 := by
  simp only [PipelineState.rank, start, ForwardState.start, ScanPC.rank, ForwardPC.rank, ScanPC.reading,
    List.length_nil, Bool.false_eq_true, if_false]
  cases w.flusher <;> simp only [Bool.false_eq_true, if_true, if_false, HandlerPC.rank] <;> omega

/-- With full channels and a done context there are at most 48 steps left. -/
theorem Streams.rank_le (streams : Streams P w s) (done : s.channels.cancelled = true) : s.rank ≤ 48 := by
  have input := streams.forwarding.bounded
  have output := streams.forwarding.outBounded
  have scanner : s.scanner.rank ≤ 10 := by
    cases s.scanner with
    | sending evt onward => cases onward <;> simp [ScanPC.rank]
    | scanning | checking | closing | exited => simp [ScanPC.rank]
  have pc : s.channels.pc.rank ≤ 5 := by cases s.channels.pc <;> simp [ForwardPC.rank]
  have handler : s.handler.rank ≤ 1 := by cases s.handler <;> simp [HandlerPC.rank]
  simp only [PipelineState.rank, done, if_true, streamBuffer] at input output ⊢
  omega

/-- Nobody can move but the upstream and the client. -/
def Quiet (P : Pipeline) (s : PipelineState) : Prop := ∀ a, a ≠ .scan → a ≠ .cancel → P.step s a = none

/-- In a quiet state the handler has emptied its channel. -/
theorem Streams.output_eq_nil (streams : Streams P w s) (quiet : Quiet P s) : s.channels.output = [] := by
  cases output : s.channels.output with
  | nil => rfl
  | cons evt rest =>
    have blocked := quiet .consume (by simp) (by simp)
    simp only [Pipeline.step, output, ForwardState.step, Option.bind_some] at blocked
    cases handler : s.handler with
    | returned => exact absurd (streams.handles.returned handler).2.1 (by simp [output])
    | relaying | draining | discarding => simp [handler] at blocked

/-- A quiet goroutine between the channels waits for its input or has exited. -/
theorem Streams.tracker_waits (streams : Streams P w s) (quiet : Quiet P s) :
    s.channels.pc = .receiving ∧ s.channels.input = [] ∧ s.channels.inClosed = false ∨
      s.channels.pc.isExited = true := by
  have empty := streams.output_eq_nil quiet
  have blocked : ∀ a, a.tracks = true → s.channels.step streamBuffer a = none := by
    intro a tracks
    have none := quiet (.track a) (by simp) (by simp)
    simpa only [Pipeline.step, tracks, if_true, Option.map_eq_none_iff] using none
  cases pc : s.channels.pc with
  | receiving =>
    left
    cases input : s.channels.input with
    | cons evt rest =>
      have none := blocked .receive rfl
      simp [ForwardState.step, pc, input] at none
    | nil =>
      have none := blocked .seeClose rfl
      refine ⟨rfl, rfl, ?_⟩
      simpa [ForwardState.step, pc, input] using none
  | sending evt =>
    have none := blocked .forward rfl
    simp [ForwardState.step, pc, empty, streamBuffer] at none
  | recording r =>
    have none := blocked .record rfl
    simp [ForwardState.step, pc] at none
  | closing exit =>
    have none := blocked .closeOutput rfl
    simp [ForwardState.step, pc] at none
  | exited exit => exact .inr rfl

/-- A quiet adapter waits for the upstream, or for room in its channel, or has
exited. -/
theorem Streams.scanner_waits (streams : Streams P w s) (quiet : Quiet P s) :
    s.scanner = .exited ∨ s.channels.cancelled = false ∧
      ((∃ vars, s.scanner = .scanning vars) ∨ s.channels.input ≠ [] ∧ s.channels.inClosed = false) := by
  have opened : s.scanner ≠ .exited → s.channels.inClosed = false := by
    intro inside
    rw [streams.scans.closed]
    cases scanner : s.scanner with
    | exited => exact absurd scanner inside
    | scanning | checking | sending | closing => rfl
  cases scanner : s.scanner with
  | scanning vars =>
    have none := quiet .abort (by simp) (by simp)
    have alive : s.channels.cancelled = false := by simpa [Pipeline.step, scanner] using none
    exact .inr ⟨alive, .inl ⟨vars, rfl⟩⟩
  | checking vars line =>
    have none := quiet .check (by simp) (by simp)
    simp [Pipeline.step, scanner] at none
  | sending evt onward =>
    have unsent := quiet .send (by simp) (by simp)
    have none := quiet .quit (by simp) (by simp)
    have alive : s.channels.cancelled = false := by simpa [Pipeline.step, scanner] using none
    have running := opened (by simp [scanner])
    refine .inr ⟨alive, .inr ⟨?_, running⟩⟩
    intro empty
    simp [Pipeline.step, scanner, ForwardState.step, running, empty, streamBuffer] at unsent
  | closing =>
    have none := quiet .close (by simp) (by simp)
    simp [Pipeline.step, scanner, ForwardState.step, opened (by simp [scanner])] at none
  | exited => exact .inl rfl

/-- In a quiet state all parties have come to their end, or the adapter waits for
the upstream of a client that is there, and everything sent has been received. -/
theorem Streams.quiet_cases (streams : Streams P w s) (quiet : Quiet P s) :
    s.Finished ∨ s.channels.cancelled = false ∧ s.handler ≠ .returned ∧ (∃ vars, s.scanner = .scanning vars) ∧
      s.channels.received = s.channels.sent := by
  have empty := streams.output_eq_nil quiet
  rcases streams.tracker_waits quiet with ⟨pc, input, opened⟩ | exited
  · have outOpen : s.channels.outClosed = false := by
      rw [streams.forwarding.closed, pc]
      rfl
    have staying : s.handler ≠ .returned := by
      intro left
      rw [(streams.handles.returned left).1] at outOpen
      cases outOpen
    rcases streams.scanner_waits quiet with gone | ⟨alive, waiting | ⟨full, -⟩⟩
    · rw [streams.scans.closed, gone] at opened
      cases opened
    · refine .inr ⟨alive, staying, waiting, ?_⟩
      rw [streams.forwarding.conserved, ForwardState.taken, pc, input, empty]
      simp [ForwardPC.held]
    · exact absurd input full
  · have closed : s.channels.outClosed = true := streams.forwarding.closed.trans exited
    have left : s.handler = .returned := by
      have none := quiet .finish (by simp) (by simp)
      cases handler : s.handler with
      | returned => rfl
      | relaying | draining | discarding => simp [Pipeline.step, closed, empty, handler] at none
    refine .inl ⟨?_, exited, left⟩
    rcases streams.scanner_waits quiet with gone | ⟨alive, inside⟩
    · exact gone
    · have atEnd := (streams.passed_on closed alive).2
      have inClosed := (streams.forwarding.ended (atEnd ▸ trivial)).1
      rcases inside with ⟨vars, scanner⟩ | ⟨-, opened⟩
      · rw [streams.scans.closed, scanner] at inClosed
        cases inClosed
      · rw [inClosed] at opened
        cases opened

/-- No goroutine is leaked. A run is never longer than six steps for each line of
the answer and eleven more; once the client has left, at most 48 steps follow,
whatever the upstream does; and where no step is left but that of a client who leaves,
the goroutines have exited and the handler has returned. -/
theorem stream_winds_down (P : Pipeline) (w : ResponseWriter) {actions : List PipelineAction}
    (run : Transition.run P.step (P.start w) actions = some s) :
    actions.length ≤ 6 * (scanBody P.body P.fault).lines.length + 11 ∧
      (s.channels.cancelled = true → ∀ further t, Transition.run P.step s further = some t → further.length ≤ 48) ∧
      ((∀ a, a ≠ .cancel → P.step s a = none) → s.Finished) := by
  have streams := streams_run run
  have shorter {start final : PipelineState} {steps : List PipelineAction}
      (taken : Transition.run P.step start steps = some final) : steps.length + final.rank ≤ start.rank := by
    have lower (s : PipelineState) (a : PipelineAction) (t : PipelineState) (_ : True) (next : P.step s a = some t) :
        t.rank < s.rank := rank_moved (moved_of_step next)
    exact Transition.run_length_le (fun _ _ _ _ _ => trivial) lower trivial taken
  refine ⟨?_, fun done further t more => ?_, fun stuck => ?_⟩
  · have bound := shorter run
    rw [rank_start] at bound
    omega
  · have bound := shorter more
    have few := streams.rank_le done
    omega
  · rcases streams.quiet_cases (fun a _ staying => stuck a staying) with finished | ⟨-, -, ⟨vars, scanner⟩, -⟩
    · exact finished
    · have none := stuck .scan (by simp)
      cases left : s.left <;> simp [Pipeline.step, scanner, left] at none

theorem stream_winds_down_interrupted :
    ∃ s, Transition.run sampleAnswer.step (sampleAnswer.start sampleWriter) interruptedRun = some s ∧
      s.channels.cancelled = true ∧
      ∀ further t, Transition.run sampleAnswer.step s further = some t → further.length ≤ 48 := by
  obtain ⟨s, taken⟩ : ∃ s, Transition.run sampleAnswer.step (sampleAnswer.start sampleWriter) interruptedRun = some s :=
    ⟨_, rfl⟩
  have done : s.channels.cancelled = true := by
    cases taken
    rfl
  exact ⟨s, taken, done, (stream_winds_down sampleAnswer sampleWriter taken).2.1 done⟩

/-- While the upstream is silent nothing is held back from the client: when only
the upstream can move, the response is the one of the sequential handler on all
events sent so far. -/
theorem client_kept_up_to_date (P : Pipeline) (w : ResponseWriter) {actions : List PipelineAction}
    (run : Transition.run P.step (P.start w) actions = some s) (quiet : Quiet P s) :
    s.Finished ∨ (∃ vars, s.scanner = .scanning vars) ∧ s.channels.sent <+: P.events ∧
      s.writer = handleStream P.marshal P.encode false (.ok s.channels.sent) w := by
  have streams := streams_run run
  rcases streams.quiet_cases quiet with finished | ⟨alive, staying, ⟨vars, scanner⟩, received⟩
  · exact .inl finished
  · refine .inr ⟨⟨vars, scanner⟩, ?_, ?_⟩
    · have on := streams.scans.prefix_of_loop (by rw [scanner]; exact fun _ _ => id)
      exact ⟨_, on.symm⟩
    · have now := streams.handles.running staying
      rw [← handled_eq, ← received, ← now]
      cases w.flusher <;> rfl

/-- The first chunk has reached the client and the second line is awaited. -/
def awaitingRun : List PipelineAction := [.scan, .check, .send, .track .receive, .track .forward, .consume]

theorem client_kept_up_to_date_awaiting :
    ∃ s, Transition.run sampleAnswer.step (sampleAnswer.start sampleWriter) awaitingRun = some s ∧
      Quiet sampleAnswer s ∧
      (s.Finished ∨ (∃ vars, s.scanner = .scanning vars) ∧ s.channels.sent <+: sampleAnswer.events ∧
        s.writer = handleStream sampleAnswer.marshal sampleAnswer.encode false (.ok s.channels.sent) sampleWriter) := by
  obtain ⟨s, taken⟩ : ∃ s, Transition.run sampleAnswer.step (sampleAnswer.start sampleWriter) awaitingRun = some s :=
    ⟨_, rfl⟩
  have quiet : Quiet sampleAnswer s := by
    cases taken
    intro a notScan notCancel
    cases a with
    | scan => exact absurd rfl notScan
    | cancel => exact absurd rfl notCancel
    | track a => cases a <;> rfl
    | abort | check | send | quit | close | consume | finish => rfl
  exact ⟨s, taken, quiet, client_kept_up_to_date sampleAnswer sampleWriter taken quiet⟩

end Pipeline

end LlmGateway
