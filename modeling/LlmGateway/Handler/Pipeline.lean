import LlmGateway.Handler.Stream
import LlmGateway.Provider.LineLoop
import LlmGateway.Provider.TrackStream

namespace LlmGateway

/-- The capacity the adapters give to their channel. -/
def streamBuffer : Nat := 8

/-- Where the goroutine of the adapter stands: in `Scan`, before the check of the
context that follows it, in the `select` that sends an event, or in its deferred
calls. Without variables to go on with it returns after the event is sent. -/
inductive ScanPC where
  | scanning (vars : Anthropic.StreamVars)
  | checking (vars : Anthropic.StreamVars) (line : List UInt8)
  | sending (evt : ChunkEvent) (onward : Option Anthropic.StreamVars)
  | closing
  | exited

/-- Where `handleStream` stands: in its loop, in the loop that drains the channel
after an error, in the one that drains it for a writer that cannot flush, or
behind its return. -/
inductive HandlerPC where
  | relaying
  | draining
  | discarding
  | returned
deriving DecidableEq

/-- A streamed answer on its way to the client: the goroutine of the adapter scans
the response and sends events on a channel, the goroutine of `trackStreamHealth`
passes them on, and `handleStream` writes them. The context is the one of the
client's request. -/
structure PipelineState where
  left : List (List UInt8)
  scanner : ScanPC
  channels : ForwardState ChatCompletionChunk
  handler : HandlerPC
  writer : ResponseWriter

inductive PipelineAction where
  | scan
  | abort
  | check
  | send
  | quit
  | close
  | track (a : ForwardAction ChatCompletionChunk)
  | consume
  | finish
  | cancel

/-- The steps of the goroutine of `trackStreamHealth` itself. -/
def ForwardAction.tracks {γ : Type} : ForwardAction γ → Bool
  | .receive | .seeClose | .forward | .leave | .record | .closeOutput => true
  | .send _ | .closeInput | .consume | .cancel => false

/-- One streamed answer: the adapter, the clock by the lines left, the response of
the upstream with the error its body ends with, and the encoders of the handler. -/
structure Pipeline where
  adapter : AdapterStream
  now : Nat → Int
  body : List UInt8
  fault : Option String
  marshal : ChatCompletionChunk → Except String (List UInt8)
  encode : APIErr → List UInt8

namespace Pipeline

/-- The goroutines are started and `handleStream` has set its headers, or reported
that the writer cannot flush. -/
def start (P : Pipeline) (w : ResponseWriter) : PipelineState where
  left := (scanBody P.body P.fault).lines
  scanner := .scanning {}
  channels := .start
  handler := if w.flusher then .relaying else .discarding
  writer :=
    if w.flusher then { w with contentType := "text/event-stream" }
    else APIErr.write P.encode w ⟨500, "internal_error", "internal_error", "streaming not supported"⟩

/-- What the adapter does behind its loop. -/
def leaveLoop (P : Pipeline) (scanErr : Option String) : ScanPC :=
  match P.adapter.onEnd scanErr with
  | some err => .sending (.err err) none
  | none => .closing

/-- The body of the adapter's loop behind the check of the context. -/
def onLine (P : Pipeline) (left : Nat) (vars : Anthropic.StreamVars) (line : List UInt8) : ScanPC :=
  match P.adapter.onLine (P.now left) vars line with
  | .next vars => .scanning vars
  | .emit chunk vars => .sending (.chunk chunk) (some vars)
  | .fail err => .sending (.err err) none
  | .stop => .closing

/-- The body of the handler's loop. -/
def relay (P : Pipeline) (evt : ChunkEvent) (w : ResponseWriter) : HandlerPC × ResponseWriter :=
  match evt with
  | .err _ => (.draining, w)
  | .chunk chunk =>
    match P.marshal chunk with
    | .error _ => (.draining, w)
    | .ok data => (.relaying, (w.write (frame data)).flush)

/-- The transport gives up the read of a body whose context is done. The handler
finishes on a channel that is closed and empty; its sentinel is for a client that is
still there. -/
def step (P : Pipeline) (s : PipelineState) : PipelineAction → Option PipelineState
  | .scan =>
    match s.scanner, s.left with
    | .scanning vars, line :: rest => some { s with scanner := .checking vars line, left := rest }
    | .scanning _, [] => some { s with scanner := P.leaveLoop (scanBody P.body P.fault).err }
    | _, _ => none
  | .abort =>
    match s.scanner with
    | .scanning _ =>
      if s.channels.cancelled then some { s with scanner := P.leaveLoop (some "context canceled") } else none
    | _ => none
  | .check =>
    match s.scanner with
    | .checking vars line =>
      some { s with scanner := if s.channels.cancelled then .closing else P.onLine s.left.length vars line }
    | _ => none
  | .send =>
    match s.scanner with
    | .sending evt onward =>
      (s.channels.step streamBuffer (.send evt)).map fun channels =>
        { s with channels := channels, scanner := onward.elim .closing .scanning }
    | _ => none
  | .quit =>
    match s.scanner with
    | .sending _ _ => if s.channels.cancelled then some { s with scanner := .closing } else none
    | _ => none
  | .close =>
    match s.scanner with
    | .closing =>
      (s.channels.step streamBuffer .closeInput).map fun channels =>
        { s with channels := channels, scanner := .exited }
    | _ => none
  | .track a =>
    if a.tracks then (s.channels.step streamBuffer a).map fun channels => { s with channels := channels } else none
  | .consume =>
    match s.channels.output with
    | [] => none
    | evt :: _ =>
      (s.channels.step streamBuffer .consume).bind fun channels =>
        match s.handler with
        | .relaying =>
          let (handler, writer) := P.relay evt s.writer
          some { s with channels := channels, handler := handler, writer := writer }
        | .draining | .discarding => some { s with channels := channels }
        | .returned => none
  | .finish =>
    if s.channels.outClosed ∧ s.channels.output = [] then
      match s.handler with
      | .relaying | .draining =>
        some { s with
          handler := .returned
          writer := (doneCalls !s.channels.cancelled).foldl ResponseWriter.call s.writer }
      | .discarding => some { s with handler := .returned }
      | .returned => none
    else none
  | .cancel => if s.channels.cancelled then none else some { s with channels := { s.channels with cancelled := true } }

end Pipeline

namespace ForwardState

variable {γ : Type} {capacity : Nat} {s t : ForwardState γ}

theorem step_send {evt : StreamEvent γ} (room : 0 < capacity) (next : step capacity s (.send evt) = some t) :
    s.inClosed = false ∧ t = { s with input := s.input ++ [evt], sent := s.sent ++ [evt] } := by
  simp only [step] at next
  split at next
  · cases next
  · rename_i opened
    split at next
    · cases next
      exact ⟨Bool.eq_false_iff.mpr opened, rfl⟩
    · split at next
      · rw [if_neg (by omega)] at next
        cases next
      · cases next

theorem step_closeInput (next : step capacity s .closeInput = some t) :
    s.inClosed = false ∧ t = { s with inClosed := true } := by
  simp only [step] at next
  split at next
  · cases next
  · rename_i opened
    cases next
    exact ⟨Bool.eq_false_iff.mpr opened, rfl⟩

theorem step_consume (next : step capacity s .consume = some t) :
    ∃ evt rest, s.output = evt :: rest ∧ t = { s with output := rest, received := s.received ++ [evt] } := by
  simp only [step] at next
  split at next
  · rename_i evt rest output
    cases next
    exact ⟨evt, rest, output, rfl⟩
  · cases next

/-- The steps of the goroutine between the channels, as they change the state. -/
inductive Tracked (s : ForwardState γ) : ForwardState γ → Prop where
  | receive {evt : StreamEvent γ} {rest : List (StreamEvent γ)} (pc : s.pc = .receiving)
      (input : s.input = evt :: rest) : Tracked s (take { s with input := rest } evt)
  | seeClose (r : HealthRecord) (pc : s.pc = .receiving) (input : s.input = []) (closed : s.inClosed = true) :
      Tracked s { s with pc := .recording r }
  | forward {evt : StreamEvent γ} (pc : s.pc = .sending evt) :
      Tracked s { s with pc := .receiving, output := s.output ++ [evt] }
  | leave {evt : StreamEvent γ} (pc : s.pc = .sending evt) (done : s.cancelled = true) :
      Tracked s { s with pc := .closing (.ctxDone evt) }
  | record {r : HealthRecord} (pc : s.pc = .recording r) :
      Tracked s { s with pc := .closing .inputClosed, recorded := s.recorded ++ [r] }
  | closeOutput {exit : LoopExit γ} (pc : s.pc = .closing exit) :
      Tracked s { s with pc := .exited exit, outClosed := true }

theorem step_tracks {a : ForwardAction γ} (tracks : a.tracks = true) (room : 0 < capacity)
    (next : step capacity s a = some t) : Tracked s t := by
  cases a with
  | send | closeInput | consume | cancel => cases tracks
  | receive =>
    simp only [step] at next
    split at next
    · rename_i receiving input
      cases next
      exact .receive receiving input
    · cases next
  | seeClose =>
    simp only [step] at next
    split at next
    · rename_i receiving input
      split at next
      · rename_i closed
        cases next
        exact .seeClose _ receiving input closed
      · cases next
    · cases next
  | forward =>
    simp only [step] at next
    split at next
    · rename_i sending
      split at next
      · cases next
        exact .forward sending
      · rw [if_neg (by omega)] at next
        cases next
    · cases next
  | leave =>
    simp only [step] at next
    split at next
    · rename_i sending
      split at next
      · rename_i done
        cases next
        exact .leave sending done
      · cases next
    · cases next
  | record =>
    simp only [step] at next
    split at next
    · rename_i recording
      cases next
      exact .record recording
    · cases next
  | closeOutput =>
    simp only [step] at next
    split at next
    · rename_i closing
      cases next
      exact .closeOutput closing
    · cases next

/-- The goroutine leaves alone what its neighbours do. -/
theorem Tracked.frame (tracked : Tracked s t) :
    t.sent = s.sent ∧ t.inClosed = s.inClosed ∧ t.cancelled = s.cancelled ∧ t.received = s.received := by
  cases tracked with
  | @receive evt => cases evt <;> exact ⟨rfl, rfl, rfl, rfl⟩
  | seeClose | forward | leave | record | closeOutput => exact ⟨rfl, rfl, rfl, rfl⟩

theorem Tracked.running (tracked : Tracked s t) : s.pc.isExited = false := by
  cases tracked with
  | receive pc | seeClose _ pc | forward pc | leave pc | record pc | closeOutput pc => rw [pc]; rfl

end ForwardState

/-- The loop of `trackStreamHealth` was left through the context. -/
def ForwardPC.LeftEarly {γ : Type} : ForwardPC γ → Prop
  | .closing (.ctxDone _) | .exited (.ctxDone _) => True
  | _ => False

/-- It is left so only when the context is done. -/
theorem ForwardState.Tracked.leftEarly {γ : Type} {s t : ForwardState γ} (tracked : Tracked s t)
    (early : t.pc.LeftEarly) : s.pc.LeftEarly ∨ s.cancelled = true := by
  cases tracked with
  | @receive evt => cases evt <;> exact early.elim
  | seeClose | forward | record => exact early.elim
  | leave pc done => exact .inr done
  | @closeOutput exit pc =>
    cases exit with
    | inputClosed => exact early.elim
    | ctxDone evt => exact .inl (pc ▸ trivial)

def ScanPC.isExited : ScanPC → Bool
  | .exited => true
  | _ => false

namespace Pipeline

variable {P : Pipeline} {w : ResponseWriter} {s t : PipelineState}

/-- The steps of the three parties, as they change the state. -/
inductive Moved (P : Pipeline) (s : PipelineState) : PipelineState → Prop where
  | scanLine {vars : Anthropic.StreamVars} {line : List UInt8} {rest : List (List UInt8)}
      (scanner : s.scanner = .scanning vars) (left : s.left = line :: rest) :
      Moved P s { s with scanner := .checking vars line, left := rest }
  | scanEnd {vars : Anthropic.StreamVars} (scanner : s.scanner = .scanning vars) (left : s.left = []) :
      Moved P s { s with scanner := P.leaveLoop (scanBody P.body P.fault).err }
  | abort {vars : Anthropic.StreamVars} (scanner : s.scanner = .scanning vars) (done : s.channels.cancelled = true) :
      Moved P s { s with scanner := P.leaveLoop (some "context canceled") }
  | checkDone {vars : Anthropic.StreamVars} {line : List UInt8} (scanner : s.scanner = .checking vars line)
      (done : s.channels.cancelled = true) : Moved P s { s with scanner := .closing }
  | checkLine {vars : Anthropic.StreamVars} {line : List UInt8} (scanner : s.scanner = .checking vars line)
      (running : s.channels.cancelled = false) : Moved P s { s with scanner := P.onLine s.left.length vars line }
  | send {evt : ChunkEvent} {onward : Option Anthropic.StreamVars} {channels : ForwardState ChatCompletionChunk}
      (scanner : s.scanner = .sending evt onward) (next : s.channels.step streamBuffer (.send evt) = some channels) :
      Moved P s { s with channels := channels, scanner := onward.elim .closing .scanning }
  | quit {evt : ChunkEvent} {onward : Option Anthropic.StreamVars} (scanner : s.scanner = .sending evt onward)
      (done : s.channels.cancelled = true) : Moved P s { s with scanner := .closing }
  | close {channels : ForwardState ChatCompletionChunk} (scanner : s.scanner = .closing)
      (next : s.channels.step streamBuffer .closeInput = some channels) :
      Moved P s { s with channels := channels, scanner := .exited }
  | track {a : ForwardAction ChatCompletionChunk} {channels : ForwardState ChatCompletionChunk}
      (tracks : a.tracks = true) (next : s.channels.step streamBuffer a = some channels) :
      Moved P s { s with channels := channels }
  | relay {evt : ChunkEvent} {rest : List ChunkEvent} {channels : ForwardState ChatCompletionChunk}
      (output : s.channels.output = evt :: rest) (next : s.channels.step streamBuffer .consume = some channels)
      (handler : s.handler = .relaying) :
      Moved P s { s with channels := channels, handler := (P.relay evt s.writer).1, writer := (P.relay evt s.writer).2 }
  | drain {channels : ForwardState ChatCompletionChunk} (next : s.channels.step streamBuffer .consume = some channels)
      (handler : s.handler = .draining ∨ s.handler = .discarding) : Moved P s { s with channels := channels }
  | finish (closed : s.channels.outClosed = true) (empty : s.channels.output = [])
      (handler : s.handler = .relaying ∨ s.handler = .draining) :
      Moved P s { s with
        handler := .returned
        writer := (doneCalls !s.channels.cancelled).foldl ResponseWriter.call s.writer }
  | discard (closed : s.channels.outClosed = true) (empty : s.channels.output = [])
      (handler : s.handler = .discarding) : Moved P s { s with handler := .returned }
  | cancel (running : s.channels.cancelled = false) :
      Moved P s { s with channels := { s.channels with cancelled := true } }

theorem moved_of_step {a : PipelineAction} (next : P.step s a = some t) : Moved P s t := by
  cases a with
  | scan =>
    simp only [step] at next
    split at next
    · rename_i scanner left
      cases next
      exact .scanLine scanner left
    · rename_i scanner left
      cases next
      exact .scanEnd scanner left
    · cases next
  | abort =>
    simp only [step] at next
    split at next
    · rename_i scanner
      split at next
      · rename_i done
        cases next
        exact .abort scanner done
      · cases next
    · cases next
  | check =>
    simp only [step] at next
    split at next
    · rename_i scanner
      cases next
      by_cases done : s.channels.cancelled = true
      · rw [if_pos done]
        exact .checkDone scanner done
      · rw [if_neg done]
        exact .checkLine scanner (Bool.eq_false_iff.mpr done)
    · cases next
  | send =>
    simp only [step] at next
    split at next
    · rename_i scanner
      obtain ⟨channels, sent, rfl⟩ := Option.map_eq_some_iff.mp next
      exact .send scanner sent
    · cases next
  | quit =>
    simp only [step] at next
    split at next
    · rename_i scanner
      split at next
      · rename_i done
        cases next
        exact .quit scanner done
      · cases next
    · cases next
  | close =>
    simp only [step] at next
    split at next
    · rename_i scanner
      obtain ⟨channels, closed, rfl⟩ := Option.map_eq_some_iff.mp next
      exact .close scanner closed
    · cases next
  | track a =>
    simp only [step] at next
    split at next
    · rename_i tracks
      obtain ⟨channels, moved, rfl⟩ := Option.map_eq_some_iff.mp next
      exact .track tracks moved
    · cases next
  | consume =>
    simp only [step] at next
    split at next
    · cases next
    · rename_i evt rest output
      obtain ⟨channels, consumed, next⟩ := Option.bind_eq_some_iff.mp next
      split at next
      · rename_i handler
        cases next
        exact .relay output consumed handler
      · rename_i handler
        cases next
        exact .drain consumed (.inl handler)
      · rename_i handler
        cases next
        exact .drain consumed (.inr handler)
      · cases next
  | finish =>
    simp only [step] at next
    split at next
    · rename_i ended
      split at next
      · rename_i handler
        cases next
        exact .finish ended.1 ended.2 (.inl handler)
      · rename_i handler
        cases next
        exact .finish ended.1 ended.2 (.inr handler)
      · rename_i handler
        cases next
        exact .discard ended.1 ended.2 handler
      · cases next
    · cases next
  | cancel =>
    simp only [step] at next
    split at next
    · cases next
    · rename_i running
      cases next
      exact .cancel (Bool.eq_false_iff.mpr running)

end Pipeline

end LlmGateway
