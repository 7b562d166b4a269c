import LlmGateway.Handler.Pipeline

namespace LlmGateway.Pipeline

variable {P : Pipeline} {w : ResponseWriter} {s t : PipelineState}

/-- The events of the upstream's answer, as the adapter translates it. -/
def events (P : Pipeline) : List ChunkEvent := P.adapter.chatCompletionStream P.now P.body P.fault

/-- The events the adapter goes on to send from where it stands. -/
def pending (P : Pipeline) (left : List (List UInt8)) : ScanPC → List ChunkEvent
  | .scanning vars => P.adapter.events P.now (scanBody P.body P.fault).err vars left
  | .checking vars line => P.adapter.events P.now (scanBody P.body P.fault).err vars (line :: left)
  | .sending evt (some vars) => evt :: P.adapter.events P.now (scanBody P.body P.fault).err vars left
  | .sending evt none => [evt]
  | .closing | .exited => []

theorem pending_leaveLoop (P : Pipeline) (vars : Anthropic.StreamVars) (left : List (List UInt8)) :
    P.pending left (P.leaveLoop (scanBody P.body P.fault).err) =
      P.adapter.events P.now (scanBody P.body P.fault).err vars [] := by
  rw [AdapterStream.events, leaveLoop]
  cases P.adapter.onEnd (scanBody P.body P.fault).err <;> rfl

theorem pending_onLine (P : Pipeline) (vars : Anthropic.StreamVars) (line : List UInt8) (left : List (List UInt8)) :
    P.pending left (P.onLine left.length vars line) =
      P.adapter.events P.now (scanBody P.body P.fault).err vars (line :: left) := by
  rw [AdapterStream.events, onLine]
  cases P.adapter.onLine (P.now left.length) vars line <;> rfl

/-- What has been sent is the beginning of the events, but for an error that tells
of the cancellation. -/
def Begins (events sent : List ChunkEvent) : Prop :=
  ∃ before, before <+: events ∧ (sent = before ∨ ∃ e, sent = before ++ [.err e])

/-- A cancelled adapter is on its way out of its loop. -/
def Leaving (events sent : List ChunkEvent) : ScanPC → Prop
  | .sending evt none => (∃ e, evt = .err e) ∧ sent <+: events
  | .closing | .exited => Begins events sent
  | _ => False

/-- The adapter sends the events of the answer until it is cancelled. -/
structure Scans (P : Pipeline) (s : PipelineState) : Prop where
  course : P.events = s.channels.sent ++ P.pending s.left s.scanner ∨
    s.channels.cancelled = true ∧ Leaving P.events s.channels.sent s.scanner
  closed : s.channels.inClosed = s.scanner.isExited

theorem scans_start (P : Pipeline) (w : ResponseWriter) : Scans P (P.start w) where
  course := .inl (P.adapter.chatCompletionStream_eq P.now P.body P.fault)
  closed := rfl

/-- What does not concern the adapter keeps it on its course. -/
theorem Scans.frame (scans : Scans P s) (left : t.left = s.left) (scanner : t.scanner = s.scanner)
    (sent : t.channels.sent = s.channels.sent) (inClosed : t.channels.inClosed = s.channels.inClosed)
    (cancelled : s.channels.cancelled = true → t.channels.cancelled = true) : Scans P t where
  course := by
    rw [sent, left, scanner]
    exact scans.course.imp_right fun off => ⟨cancelled off.1, off.2⟩
  closed := by rw [inClosed, scanner, scans.closed]

/-- The adapter leaves its loop because of the context. -/
theorem leaving_leaveLoop {sent : List ChunkEvent} (on : sent <+: P.events) (scanErr : Option String) :
    Leaving P.events sent (P.leaveLoop scanErr) ∧ (P.leaveLoop scanErr).isExited = false := by
  rw [leaveLoop]
  cases P.adapter.onEnd scanErr with
  | some err => exact ⟨⟨⟨err, rfl⟩, on⟩, rfl⟩
  | none => exact ⟨⟨sent, on, .inl rfl⟩, rfl⟩

/-- An adapter in its loop has sent the beginning of the events. -/
theorem Scans.prefix_of_loop (scans : Scans P s) (inside : ∀ events sent, ¬ Leaving events sent s.scanner) :
    P.events = s.channels.sent ++ P.pending s.left s.scanner := by
  rcases scans.course with on | ⟨-, off⟩
  · exact on
  · exact absurd off (inside _ _)

theorem Scans.moved (scans : Scans P s) (moved : Moved P s t) : Scans P t := by
  have course := scans.course
  have closed := scans.closed
  cases moved with
  | scanLine scanner left =>
    have on := scans.prefix_of_loop (by rw [scanner]; exact fun _ _ => id)
    rw [scanner] at on closed
    rw [left] at on
    exact ⟨.inl on, closed⟩
  | @scanEnd vars scanner left =>
    have on := scans.prefix_of_loop (by rw [scanner]; exact fun _ _ => id)
    rw [scanner] at on closed
    rw [left] at on
    refine ⟨.inl ?_, ?_⟩
    · rw [on]
      exact congrArg (s.channels.sent ++ ·) (P.pending_leaveLoop vars _).symm
    · rw [closed, leaveLoop]
      cases P.adapter.onEnd (scanBody P.body P.fault).err <;> rfl
  | abort scanner done =>
    have on := scans.prefix_of_loop (by rw [scanner]; exact fun _ _ => id)
    rw [scanner] at closed
    obtain ⟨leaving, running⟩ := leaving_leaveLoop ⟨_, on.symm⟩ (some "context canceled")
    exact ⟨.inr ⟨done, leaving⟩, closed.trans running.symm⟩
  | checkDone scanner done =>
    have on := scans.prefix_of_loop (by rw [scanner]; exact fun _ _ => id)
    rw [scanner] at closed
    exact ⟨.inr ⟨done, _, ⟨_, on.symm⟩, .inl rfl⟩, closed⟩
  | @checkLine vars line scanner running =>
    have on := scans.prefix_of_loop (by rw [scanner]; exact fun _ _ => id)
    rw [scanner] at on closed
    refine ⟨.inl ?_, ?_⟩
    · rw [on]
      exact congrArg (s.channels.sent ++ ·) (P.pending_onLine vars line _).symm
    · rw [closed, onLine]
      cases P.adapter.onLine (P.now s.left.length) vars line <;> rfl
  | @send evt onward channels scanner next =>
    obtain ⟨-, rfl⟩ := ForwardState.step_send (by decide) next
    rw [scanner] at course closed
    refine ⟨?_, ?_⟩
    · rcases course with on | ⟨done, off⟩
      · left
        rw [on]
        cases onward <;> exact List.append_cons ..
      · right
        cases onward with
        | none =>
          obtain ⟨⟨e, rfl⟩, begins⟩ := off
          exact ⟨done, _, begins, .inr ⟨e, rfl⟩⟩
        | some vars => exact off.elim
    · cases onward <;> exact closed
  | @quit evt onward scanner done =>
    rw [scanner] at course closed
    refine ⟨.inr ⟨done, ?_⟩, closed⟩
    rcases course with on | ⟨-, off⟩
    · exact ⟨_, ⟨_, on.symm⟩, .inl rfl⟩
    · cases onward with
      | none => exact ⟨_, off.2, .inl rfl⟩
      | some vars => exact off.elim
  | close scanner next =>
    obtain ⟨-, rfl⟩ := ForwardState.step_closeInput next
    rw [scanner] at course
    exact ⟨course, rfl⟩
  | track tracks next =>
    obtain ⟨sent, inClosed, cancelled, -⟩ := (ForwardState.step_tracks tracks (by decide) next).frame
    exact scans.frame rfl rfl sent inClosed fun done => cancelled.trans done
  | relay _ next | drain next =>
    obtain ⟨_, _, -, rfl⟩ := ForwardState.step_consume next
    exact scans.frame rfl rfl rfl rfl id
  | finish | discard => exact scans.frame rfl rfl rfl rfl id
  | cancel => exact scans.frame rfl rfl rfl rfl fun _ => rfl

/-- The body of the handler's loop, which is over once an event could not be
written. -/
def handle (P : Pipeline) (at_ : HandlerPC × ResponseWriter) (evt : ChunkEvent) : HandlerPC × ResponseWriter :=
  if at_.1 = .relaying then P.relay evt at_.2 else at_

/-- Where the handler stands after the events. -/
def handled (P : Pipeline) (w : ResponseWriter) (events : List ChunkEvent) : HandlerPC × ResponseWriter :=
  events.foldl P.handle ((P.start w).handler, (P.start w).writer)

theorem handled_concat (P : Pipeline) (w : ResponseWriter) (events : List ChunkEvent) (evt : ChunkEvent) :
    P.handled w (events ++ [evt]) = P.handle (P.handled w events) evt := by
  rw [handled, List.foldl_append]
  rfl

theorem foldl_handle_of_ne {pc : HandlerPC} (ended : pc ≠ .relaying) (w : ResponseWriter) (events : List ChunkEvent) :
    events.foldl P.handle (pc, w) = (pc, w) := by
  induction events with
  | nil => rfl
  | cons evt rest ih => rw [List.foldl_cons, handle, if_neg ended, ih]

/-- The loop writes the frames of the chunks before the first event that cannot be
written. -/
theorem foldl_handle (events : List ChunkEvent) (w : ResponseWriter) :
    (events.foldl P.handle (.relaying, w)).2 = (streamCalls P.marshal events).foldl ResponseWriter.call w := by
  induction events generalizing w with
  | nil => rfl
  | cons evt rest ih =>
    have draining : HandlerPC.draining ≠ .relaying := by decide
    rw [List.foldl_cons, handle, if_pos rfl]
    cases evt with
    | err e => rw [relay, foldl_handle_of_ne draining, streamCalls, List.foldl_nil]
    | chunk chunk =>
      simp only [relay, streamCalls]
      cases P.marshal chunk with
      | error e => rw [foldl_handle_of_ne draining, List.foldl_nil]
      | ok data => exact ih _

/-- The handler stands where the events it has received leave it. After its return
the channel is closed; a client that was still there has received all events. -/
structure Handles (P : Pipeline) (w : ResponseWriter) (s : PipelineState) : Prop where
  running : s.handler ≠ .returned → (s.handler, s.writer) = P.handled w s.channels.received
  returned : s.handler = .returned → s.channels.outClosed = true ∧ s.channels.output = [] ∧
    ∃ connected, (connected = true → s.channels.received = P.events) ∧
      (connected = false → s.channels.cancelled = true) ∧
      s.writer = (if w.flusher then doneCalls connected else []).foldl ResponseWriter.call
        (P.handled w s.channels.received).2

theorem handles_start (P : Pipeline) (w : ResponseWriter) : Handles P w (P.start w) where
  running _ := rfl
  returned left := by
    simp only [start] at left
    split at left <;> cases left

/-- What does not concern the handler keeps it where it is. -/
theorem Handles.frame (handles : Handles P w s) (handler : t.handler = s.handler) (writer : t.writer = s.writer)
    (received : t.channels.received = s.channels.received)
    (cancelled : s.channels.cancelled = true → t.channels.cancelled = true)
    (closed : s.channels.outClosed = true → s.channels.output = [] →
      t.channels.outClosed = true ∧ t.channels.output = []) : Handles P w t where
  running := by
    rw [handler, writer, received]
    exact handles.running
  returned := by
    rw [handler, writer, received]
    intro left
    obtain ⟨ended, empty, connected, all, gone, written⟩ := handles.returned left
    exact ⟨(closed ended empty).1, (closed ended empty).2, connected, all, fun off => cancelled (gone off), written⟩

/-- The three parties are where the events of the answer lead them. -/
structure Streams (P : Pipeline) (w : ResponseWriter) (s : PipelineState) : Prop where
  forwarding : s.channels.Forwarding streamBuffer
  scans : Scans P s
  early : s.channels.pc.LeftEarly → s.channels.cancelled = true
  handles : Handles P w s

theorem streams_start (P : Pipeline) (w : ResponseWriter) : Streams P w (P.start w) :=
  ⟨ForwardState.forwarding_start, scans_start P w, nofun, handles_start P w⟩

/-- Once the output is closed in the life of the context, all events of the answer
have been passed on. -/
theorem Streams.passed_on (streams : Streams P w s) (closed : s.channels.outClosed = true)
    (alive : s.channels.cancelled = false) :
    s.channels.received ++ s.channels.output = P.events ∧ s.channels.pc = .exited .inputClosed := by
  have exited : s.channels.pc = .exited .inputClosed := by
    rw [streams.forwarding.closed] at closed
    cases pc : s.channels.pc with
    | exited exit =>
      cases exit with
      | inputClosed => rfl
      | ctxDone evt =>
        have done := streams.early (pc ▸ trivial)
        rw [alive] at done
        cases done
    | receiving | sending | recording | closing =>
      rw [pc] at closed
      cases closed
  have atEnd : s.channels.pc.AtEnd := exited ▸ trivial
  have gone : s.scanner = .exited := by
    have inClosed := (streams.forwarding.ended atEnd).1
    rw [streams.scans.closed] at inClosed
    cases scanner : s.scanner with
    | exited => rfl
    | scanning | checking | sending | closing =>
      rw [scanner] at inClosed
      cases inClosed
  refine ⟨?_, exited⟩
  rw [streams.forwarding.all_passed atEnd]
  rcases streams.scans.course with on | ⟨done, -⟩
  · rw [on, gone]
    exact (List.append_nil _).symm
  · rw [alive] at done
    cases done

theorem Streams.all_received (streams : Streams P w s) (closed : s.channels.outClosed = true)
    (empty : s.channels.output = []) (alive : s.channels.cancelled = false) : s.channels.received = P.events := by
  have all := (streams.passed_on closed alive).1
  rw [empty, List.append_nil] at all
  exact all

theorem Handles.finish {handler : HandlerPC} (handles : Handles P w s) (here : s.handler = handler)
    (running : handler ≠ .returned) : P.handled w s.channels.received = (handler, s.writer) := by
  rw [← handles.running (here ▸ running), here]

/-- Only a writer that cannot flush has its events discarded. -/
theorem handled_discarding (P : Pipeline) (w : ResponseWriter) (events : List ChunkEvent) :
    (P.handled w events).1 = .discarding ↔ w.flusher = false := by
  induction events using List.reverseRecOn with
  | nil =>
    simp only [handled, List.foldl_nil, start]
    cases w.flusher <;> simp
  | append_singleton events evt ih =>
    rw [handled_concat, ← ih, handle]
    split
    · rename_i relaying
      rw [relaying]
      cases evt with
      | err e => simp [relay]
      | chunk chunk =>
        rw [relay]
        cases P.marshal chunk <;> simp
    · rfl

theorem Streams.handles_moved (streams : Streams P w s) (moved : Moved P s t) : Handles P w t := by
  have handles := streams.handles
  cases moved with
  | scanLine | scanEnd | abort | checkDone | checkLine | quit =>
    exact handles.frame rfl rfl rfl id fun closed empty => ⟨closed, empty⟩
  | send scanner next =>
    obtain ⟨-, rfl⟩ := ForwardState.step_send (by decide) next
    exact handles.frame rfl rfl rfl id fun closed empty => ⟨closed, empty⟩
  | close scanner next =>
    obtain ⟨-, rfl⟩ := ForwardState.step_closeInput next
    exact handles.frame rfl rfl rfl id fun closed empty => ⟨closed, empty⟩
  | track tracks next =>
    have tracked := ForwardState.step_tracks tracks (by decide) next
    obtain ⟨-, -, cancelled, received⟩ := tracked.frame
    refine handles.frame rfl rfl received (fun done => cancelled.trans done) fun closed _ => ?_
    rw [streams.forwarding.closed, tracked.running] at closed
    cases closed
  | @relay evt rest channels output next handler =>
    obtain ⟨_, _, same, rfl⟩ := ForwardState.step_consume next
    obtain ⟨rfl, rfl⟩ := List.cons.inj (output.symm.trans same)
    have now := handles.finish handler (by decide)
    have after : P.handled w (s.channels.received ++ [evt]) = P.relay evt s.writer := by
      rw [handled_concat, now, handle, if_pos rfl]
    refine ⟨fun _ => after.symm, fun left => ?_⟩
    have running : (P.relay evt s.writer).1 ≠ .returned := by
      cases evt with
      | err e => nofun
      | chunk chunk =>
        rw [relay]
        cases P.marshal chunk <;> nofun
    exact absurd left running
  | drain next handler =>
    obtain ⟨evt, rest, -, rfl⟩ := ForwardState.step_consume next
    have ended : s.handler ≠ .relaying ∧ s.handler ≠ .returned := by
      rcases handler with drains | discards
      · rw [drains]
        decide
      · rw [discards]
        decide
    refine ⟨fun _ => ?_, fun left => absurd left ended.2⟩
    rw [handled_concat, ← handles.running ended.2, handle, if_neg ended.1]
  | finish closed empty handler =>
    have running : s.handler ≠ .returned ∧ s.handler ≠ .discarding := by
      rcases handler with relays | drains
      · rw [relays]
        decide
      · rw [drains]
        decide
    have now := handles.finish rfl running.1
    have flushes : w.flusher = true := by
      have kept := mt (P.handled_discarding w s.channels.received).mpr (by rw [now]; exact running.2)
      exact Bool.not_eq_false _ ▸ kept
    refine ⟨fun left => absurd rfl left, fun _ => ⟨closed, empty, !s.channels.cancelled, ?_, ?_, ?_⟩⟩
    · exact fun alive => streams.all_received closed empty (by simpa using alive)
    · exact fun gone => by simpa using gone
    · rw [now, if_pos flushes]
  | discard closed empty handler =>
    have now := handles.finish handler (by decide)
    have mute : w.flusher = false := (P.handled_discarding w s.channels.received).mp (by rw [now])
    refine ⟨fun left => absurd rfl left, fun _ => ⟨closed, empty, !s.channels.cancelled, ?_, ?_, ?_⟩⟩
    · exact fun alive => streams.all_received closed empty (by simpa using alive)
    · exact fun gone => by simpa using gone
    · rw [now, if_neg (by simp [mute])]
      rfl
  | cancel => exact handles.frame rfl rfl rfl (fun _ => rfl) fun closed empty => ⟨closed, empty⟩

theorem Streams.forwarding_moved (streams : Streams P w s) (moved : Moved P s t) :
    t.channels.Forwarding streamBuffer := by
  have held := streams.forwarding
  cases moved with
  | scanLine | scanEnd | abort | checkDone | checkLine | quit | finish | discard => exact held
  | send _ next | close _ next | track _ next | relay _ next | drain next => exact held.step next
  | cancel => exact held.step (a := .cancel) rfl

theorem Streams.early_moved (streams : Streams P w s) (moved : Moved P s t) (early : t.channels.pc.LeftEarly) :
    t.channels.cancelled = true := by
  cases moved with
  | scanLine | scanEnd | abort | checkDone | checkLine | quit | finish | discard => exact streams.early early
  | send _ next =>
    obtain ⟨-, rfl⟩ := ForwardState.step_send (by decide) next
    exact streams.early early
  | close _ next =>
    obtain ⟨-, rfl⟩ := ForwardState.step_closeInput next
    exact streams.early early
  | track tracks next =>
    have tracked := ForwardState.step_tracks tracks (by decide) next
    rw [tracked.frame.2.2.1]
    exact (tracked.leftEarly early).elim streams.early id
  | relay _ next | drain next =>
    obtain ⟨_, _, -, rfl⟩ := ForwardState.step_consume next
    exact streams.early early
  | cancel => rfl

/-- What one step preserves. -/
theorem Streams.step {a : PipelineAction} (streams : Streams P w s) (next : P.step s a = some t) : Streams P w t :=
  have moved := moved_of_step next
  ⟨streams.forwarding_moved moved, streams.scans.moved moved, streams.early_moved moved, streams.handles_moved moved⟩

theorem streams_run {actions : List PipelineAction} (run : Transition.run P.step (P.start w) actions = some s) :
    Streams P w s :=
  Transition.run_invariant (fun _ _ _ streams next => streams.step next) (streams_start P w) run

/-- The loop of the concurrent handler and the sequential `handleStream` write the
same for the same events. -/
theorem handled_eq (P : Pipeline) (w : ResponseWriter) (connected : Bool) (events : List ChunkEvent) :
    (if w.flusher then doneCalls connected else []).foldl ResponseWriter.call (P.handled w events).2 =
      handleStream P.marshal P.encode connected (.ok events) w := by
  rw [handled, handleStream]
  cases flushes : w.flusher with
  | true =>
    simp only [start, flushes, if_true]
    rw [foldl_handle, List.foldl_append]
  | false =>
    have discarding : HandlerPC.discarding ≠ .relaying := by decide
    simp only [start, flushes, Bool.false_eq_true, if_false]
    rw [foldl_handle_of_ne discarding, List.foldl_nil]

theorem streamCalls_concat_err (marshal : ChatCompletionChunk → Except String (List UInt8)) (events : List ChunkEvent)
    (e : CallError) : streamCalls marshal (events ++ [.err e]) = streamCalls marshal events := by
  induction events with
  | nil => rfl
  | cons evt rest ih =>
    rw [List.cons_append]
    cases evt with
    | err _ => rfl
    | chunk chunk =>
      simp only [streamCalls]
      cases marshal chunk with
      | error _ => rfl
      | ok data => rw [ih]

/-- An error at the end makes no difference to what is written. -/
theorem handleStream_concat_err (P : Pipeline) (w : ResponseWriter) (connected : Bool) (events : List ChunkEvent)
    (e : CallError) :
    handleStream P.marshal P.encode connected (.ok (events ++ [.err e])) w =
      handleStream P.marshal P.encode connected (.ok events) w := by
  simp only [handleStream, streamCalls_concat_err]

/-- What has been received is the beginning of the events, but for an error that
tells of the cancellation. -/
theorem Streams.received_begins (streams : Streams P w s) : Begins P.events s.channels.received := by
  have received := streams.forwarding.received_prefix
  rcases streams.scans.course with on | ⟨-, off⟩
  · exact ⟨_, received.trans ⟨_, on.symm⟩, .inl rfl⟩
  · have begins : Begins P.events s.channels.sent := by
      cases scanner : s.scanner with
      | sending evt onward =>
        rw [scanner] at off
        cases onward with
        | none => exact ⟨_, off.2, .inl rfl⟩
        | some vars => exact off.elim
      | closing | exited =>
        rw [scanner] at off
        exact off
      | scanning | checking =>
        rw [scanner] at off
        exact off.elim
    obtain ⟨before, start, rfl | ⟨e, sent⟩⟩ := begins
    · exact ⟨_, received.trans start, .inl rfl⟩
    · rw [sent] at received
      rcases List.prefix_concat_iff.mp received with all | less
      · exact ⟨before, start, .inr ⟨e, all⟩⟩
      · exact ⟨_, less.trans start, .inl rfl⟩

/-- At every moment of every run, what has been written is what the sequential
handler writes for the beginning of the answer's events. The sentinel is there
only when the handler has returned after all of them. -/
theorem written_begins_answer (P : Pipeline) (w : ResponseWriter) {actions : List PipelineAction}
    (run : Transition.run P.step (P.start w) actions = some s) :
    ∃ events connected, events <+: P.events ∧
      (connected = true → events = P.events ∧ s.handler = .returned) ∧
      s.writer = handleStream P.marshal P.encode connected (.ok events) w := by
  have streams := streams_run run
  have shorten : s.writer = handleStream P.marshal P.encode false (.ok s.channels.received) w →
      ∃ events connected, events <+: P.events ∧
        (connected = true → events = P.events ∧ s.handler = .returned) ∧
        s.writer = handleStream P.marshal P.encode connected (.ok events) w := by
    intro written
    obtain ⟨before, begins, received | ⟨e, received⟩⟩ := streams.received_begins
    · exact ⟨before, false, begins, nofun, received ▸ written⟩
    · rw [received, handleStream_concat_err] at written
      exact ⟨before, false, begins, nofun, written⟩
  by_cases left : s.handler = .returned
  · obtain ⟨-, -, connected, all, -, written⟩ := streams.handles.returned left
    rw [handled_eq] at written
    cases connected with
    | true =>
      rw [all rfl] at written
      exact ⟨P.events, true, List.prefix_rfl, fun _ => ⟨rfl, left⟩, written⟩
    | false => exact shorten written
  · refine shorten ?_
    have now := streams.handles.running left
    rw [← handled_eq, ← now]
    cases w.flusher <;> rfl

/-- An answer of one chunk whose client leaves while the second line is read. -/
def sampleAnswer : Pipeline where
  adapter := .openAI unmarshalZero
  now := fun _ => 0
  body := frame zeroText ++ frame OpenAI.done
  fault := none
  marshal := marshalZero
  encode := fun _ => []

def sampleWriter : ResponseWriter := ⟨"", true, [], none, []⟩

def interruptedRun : List PipelineAction :=
  [.scan, .check, .send, .scan, .track .receive, .track .forward, .cancel, .consume, .check, .close, .track .seeClose,
    .track .record, .track .closeOutput, .finish]

theorem written_begins_answer_interrupted :
    ∃ s, Transition.run sampleAnswer.step (sampleAnswer.start sampleWriter) interruptedRun = some s ∧
      ∃ events connected, events <+: sampleAnswer.events ∧
        (connected = true → events = sampleAnswer.events ∧ s.handler = .returned) ∧
        s.writer = handleStream sampleAnswer.marshal sampleAnswer.encode connected (.ok events) sampleWriter := by
  obtain ⟨s, taken⟩ : ∃ s, Transition.run sampleAnswer.step (sampleAnswer.start sampleWriter) interruptedRun = some s :=
    ⟨_, rfl⟩
  exact ⟨s, taken, written_begins_answer sampleAnswer sampleWriter taken⟩

/-- Whatever the interleaving, when the handler has returned and the client is still
there, the response is the one of the sequential handler on the events of the
answer, and their outcome is recorded once. -/
theorem stream_refines_sequential (P : Pipeline) (w : ResponseWriter) {actions : List PipelineAction}
    (run : Transition.run P.step (P.start w) actions = some s) (left : s.handler = .returned)
    (alive : s.channels.cancelled = false) :
    s.writer = handleStream P.marshal P.encode true (.ok P.events) w ∧
      s.channels.recorded = [streamHealth P.events] := by
  have streams := streams_run run
  obtain ⟨closed, empty, connected, all, gone, written⟩ := streams.handles.returned left
  have here : connected = true := by
    cases connected with
    | true => rfl
    | false =>
      rw [gone rfl] at alive
      cases alive
  obtain ⟨-, exited⟩ := streams.passed_on closed alive
  obtain ⟨-, recorded, -⟩ := streams.forwarding.at exited
  refine ⟨?_, ?_⟩
  · rw [written, handled_eq, all here, here]
  · have sent := streams.forwarding.all_passed (exited ▸ trivial)
    rw [all here, empty, List.append_nil] at sent
    rw [sent]
    exact recorded

def completedRun : List PipelineAction :=
  [.scan, .check, .send, .scan, .check, .scan, .check, .close, .track .receive, .track .forward, .track .seeClose,
    .track .record, .track .closeOutput, .consume, .finish]

theorem stream_refines_sequential_completed :
    ∃ s, Transition.run sampleAnswer.step (sampleAnswer.start sampleWriter) completedRun = some s ∧
      s.handler = .returned ∧ s.channels.cancelled = false ∧
      s.writer = handleStream sampleAnswer.marshal sampleAnswer.encode true (.ok sampleAnswer.events) sampleWriter ∧
      s.channels.recorded = [streamHealth sampleAnswer.events] := by
  obtain ⟨s, taken⟩ : ∃ s, Transition.run sampleAnswer.step (sampleAnswer.start sampleWriter) completedRun = some s :=
    ⟨_, rfl⟩
  have ended : s.handler = .returned ∧ s.channels.cancelled = false := by
    cases taken
    exact ⟨rfl, rfl⟩
  exact ⟨s, taken, ended.1, ended.2, stream_refines_sequential sampleAnswer sampleWriter taken ended.1 ended.2⟩

end LlmGateway.Pipeline
