import LlmGateway.Handler.Errors
import LlmGateway.Provider.OpenAI

namespace LlmGateway

open Lines

def frame (data : List UInt8) : List UInt8 := dataField ++ data ++ bytes "\n\n"

/-- The loop of `handleStream`. After an error the channel is drained and nothing
more is written. -/
def streamCalls (marshal : ChatCompletionChunk → Except String (List UInt8)) : List ChunkEvent → List HandlerCall
  | [] => []
  | .err _ :: _ => []
  | .chunk chunk :: rest =>
    match marshal chunk with
    | .error _ => []
    | .ok data => .write (frame data) :: .flush :: streamCalls marshal rest

/-- The sentinel after the loop, unless the client has disconnected. -/
def doneCalls (connected : Bool) : List HandlerCall :=
  if connected then [.write (frame OpenAI.done), .flush] else []

/-- `handleStream`. `opened` is what `ChatCompletionStream` returned, with the
events its channel delivers; `connected` says that the client is still there when
the channel is closed. -/
def handleStream (marshal : ChatCompletionChunk → Except String (List UInt8)) (encode : APIErr → List UInt8)
    (connected : Bool) (opened : Except CallError (List ChunkEvent)) (w : ResponseWriter) : ResponseWriter :=
  match opened with
  | .error err => (handleProviderError err).write encode w
  | .ok events =>
    if w.flusher then
      (streamCalls marshal events ++ doneCalls connected).foldl ResponseWriter.call
        { w with contentType := "text/event-stream" }
    else APIErr.write encode w ⟨500, "internal_error", "internal_error", "streaming not supported"⟩

/-- What a call adds to the body. -/
def HandlerCall.written : HandlerCall → List UInt8
  | .write b => b
  | _ => []

theorem ResponseWriter.body_call (w : ResponseWriter) (c : HandlerCall) :
    (w.call c).body = w.body ++ c.written := by
  cases c with
  | writeHeader status => simp only [call, body_writeHeader, HandlerCall.written, List.append_nil]
  | write b => rfl
  | flush =>
    simp only [call, flush, HandlerCall.written, List.append_nil]
    split
    · exact w.body_writeHeader 200
    · rfl

theorem ResponseWriter.body_calls (w : ResponseWriter) (calls : List HandlerCall) :
    (calls.foldl call w).body = w.body ++ calls.flatMap HandlerCall.written := by
  induction calls generalizing w with
  | nil => simp
  | cons c rest ih => rw [List.foldl_cons, ih, body_call, List.flatMap_cons, List.append_assoc]

/-- The JSON text of the chunk is read back as the chunk, and its frame is one
line of the stream. -/
def Framed (marshal : ChatCompletionChunk → Except String (List UInt8))
    (unmarshal : List UInt8 → Except String ChatCompletionChunk) (chunk : ChatCompletionChunk) : Prop :=
  ∃ data, marshal chunk = .ok data ∧ unmarshal data = .ok chunk ∧ lineFeed ∉ data ∧ carriageReturn ∉ data ∧
    (dataField ++ data).length < streamLineLimit

/-- A frame is scanned as its data line and an empty line. -/
theorem scanBody_frame {data : List UInt8} (single : lineFeed ∉ data) (bare : carriageReturn ∉ data)
    (fits : (dataField ++ data).length < streamLineLimit) (rest : List UInt8) (fault : Option String) :
    scanBody (frame data ++ rest) fault =
      ⟨(dataField ++ data) :: [] :: (scanBody rest fault).lines, (scanBody rest fault).err⟩ := by
  have split : frame data ++ rest = (dataField ++ data) ++ lineFeed :: ([] ++ lineFeed :: rest) := by
    rw [frame, show bytes "\n\n" = [lineFeed, lineFeed] by decide, List.append_assoc]
    rfl
  have fieldFeed : lineFeed ∉ dataField := by decide
  have fieldReturn : carriageReturn ∉ dataField := by decide
  rw [split, scanBody, scan_line (by simp [fieldFeed, single]) fits, scan_line (by simp) (by decide),
    dropCR_of_notMem (by simp [fieldReturn, bare])]
  rfl

variable {marshal : ChatCompletionChunk → Except String (List UInt8)}
  {unmarshal : List UInt8 → Except String ChatCompletionChunk}

/-- The frames written for the events, followed by the sentinel, are read as the
chunks before the first error. -/
theorem read_streamCalls (unread : ¬ (unmarshal OpenAI.done).isOk) {events : List ChunkEvent}
    (framed : ∀ chunk, .chunk chunk ∈ events → Framed marshal unmarshal chunk) (fault : Option String) :
    OpenAI.chatCompletionStream unmarshal
        ((streamCalls marshal events).flatMap HandlerCall.written ++ frame OpenAI.done) fault =
      events.takeWhile fun evt => evt matches .chunk _ := by
  have ended : OpenAI.chatCompletionStream unmarshal (frame OpenAI.done) fault = [] := by
    rw [← List.append_nil (frame OpenAI.done), OpenAI.chatCompletionStream,
      scanBody_frame (by decide) (by decide) (by decide)]
    exact OpenAI.streamLoop_done
  induction events with
  | nil => exact ended
  | cons evt rest ih =>
    cases evt with
    | err e => exact ended
    | chunk chunk =>
      obtain ⟨data, marshalled, decoded, single, bare, fits⟩ := framed chunk List.mem_cons_self
      have running : data ≠ OpenAI.done := by
        rintro rfl
        exact unread (by rw [decoded]; rfl)
      have tail := ih fun c mem => framed c (List.mem_cons_of_mem _ mem)
      simp only [streamCalls, marshalled, List.flatMap_cons, HandlerCall.written, List.nil_append, List.append_assoc]
      rw [OpenAI.chatCompletionStream, scanBody_frame single bare fits, OpenAI.streamLoop_chunk running decoded,
        OpenAI.streamLoop_skip (by decide), ← OpenAI.chatCompletionStream, tail]
      rfl

/-- The body `handleStream` writes while the client stays connected is read back
by the OpenAI adapter as the chunks before the first error, and the stream ends
without an error. -/
theorem handleStream_read (encode : APIErr → List UInt8) {w : ResponseWriter} (streams : w.flusher)
    (fresh : w.body = []) (unread : ¬ (unmarshal OpenAI.done).isOk) {events : List ChunkEvent}
    (framed : ∀ chunk, .chunk chunk ∈ events → Framed marshal unmarshal chunk) (fault : Option String) :
    OpenAI.chatCompletionStream unmarshal (handleStream marshal encode true (.ok events) w).body fault =
      events.takeWhile fun evt => evt matches .chunk _ := by
  rw [handleStream, if_pos streams, ResponseWriter.body_calls, List.flatMap_append]
  simp only [fresh, List.nil_append]
  rw [show (doneCalls true).flatMap HandlerCall.written = frame OpenAI.done from List.append_nil _]
  exact read_streamCalls unread framed fault

/-- The zero chunk in JSON. -/
def zeroText : List UInt8 :=
  bytes "\x7b\"id\":\"\",\"object\":\"\",\"created\":0,\"model\":\"\",\"choices\":null\x7d"

def marshalZero (chunk : ChatCompletionChunk) : Except String (List UInt8) :=
  if chunk = {} then .ok zeroText else .error "unsupported value"

def unmarshalZero (data : List UInt8) : Except String ChatCompletionChunk :=
  if data = zeroText then .ok {} else .error "invalid character"

theorem handleStream_read_midStreamError :
    Framed marshalZero unmarshalZero {} ∧
      OpenAI.chatCompletionStream unmarshalZero (handleStream marshalZero (fun _ => []) true
        (.ok [.chunk {}, .err (.other "connection lost"), .chunk {}]) ⟨"", true, [], none, []⟩).body none =
          [.chunk {}] := by
  have framed : Framed marshalZero unmarshalZero {} :=
    ⟨zeroText, if_pos rfl, if_pos rfl, by decide, by decide, by decide⟩
  refine ⟨framed, handleStream_read _ rfl rfl (by decide) (fun chunk mem => ?_) none⟩
  simp only [List.mem_cons, StreamEvent.chunk.injEq, reduceCtorEq, List.not_mem_nil, false_or, or_false, or_self]
    at mem
  exact mem ▸ framed

end LlmGateway
