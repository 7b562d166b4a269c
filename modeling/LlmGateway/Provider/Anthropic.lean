import LlmGateway.Provider.Stream

namespace LlmGateway.Anthropic

open Lines

/-- `messageStartEvent`, as far as the stream reads it. -/
structure MessageStartEvent where
  id : String
  model : String
  inputTokens : Int
deriving DecidableEq, Repr

structure ContentBlockDeltaEvent where
  deltaType : String
  text : String
deriving DecidableEq, Repr

structure MessageDeltaEvent where
  stopReason : String
  outputTokens : Int
deriving DecidableEq, Repr

/-- `json.Unmarshal` at the types of the events. -/
structure EventDecoder where
  messageStart : List UInt8 → Except String MessageStartEvent
  contentBlockDelta : List UInt8 → Except String ContentBlockDeltaEvent
  messageDelta : List UInt8 → Except String MessageDeltaEvent

def mapStopReason (reason : String) : String :=
  if reason = "end_turn" then "stop"
  else if reason = "max_tokens" then "length"
  else if reason = "stop_sequence" then "stop"
  else reason

/-- The variables of the stream goroutine. -/
structure StreamVars where
  msgID : String := ""
  msgModel : String := ""
  inputTokens : Int := 0
  eventType : List UInt8 := []

/-- What the switch over the event type does with a data line. -/
inductive OnData where
  | fail (err : CallError)
  | stop
  | next (vars : StreamVars) (chunk : Option ChatCompletionChunk)

/-- The switch over the event type. A type it does not know is passed over. -/
def onData (decoder : EventDecoder) (now : Int) (v : StreamVars) (data : List UInt8) : OnData :=
  if v.eventType = bytes "message_start" then
    match decoder.messageStart data with
    | .error err => .fail (decoding "message_start" err)
    | .ok ev => .next { v with msgID := ev.id, msgModel := ev.model, inputTokens := ev.inputTokens } none
  else if v.eventType = bytes "content_block_delta" then
    match decoder.contentBlockDelta data with
    | .error err => .fail (decoding "content_block_delta" err)
    | .ok ev =>
      if ev.deltaType ≠ "text_delta" then .next v none
      else .next v (some
        { id := v.msgID
          object := "chat.completion.chunk"
          created := now
          model := v.msgModel
          choices := [{ index := 0, delta := { content := ev.text } }] })
  else if v.eventType = bytes "message_delta" then
    match decoder.messageDelta data with
    | .error err => .fail (decoding "message_delta" err)
    | .ok ev => .next v (some
        { id := v.msgID
          object := "chat.completion.chunk"
          created := now
          model := v.msgModel
          choices := [{ index := 0, finishReason := some (mapStopReason ev.stopReason) }]
          usage := some ⟨v.inputTokens, ev.outputTokens, v.inputTokens + ev.outputTokens⟩ })
  else if v.eventType = bytes "message_stop" then .stop
  else .next v none

/-- The loop of the stream goroutine and what follows it. `now k` is the time when
`k` lines of the response are left. -/
def streamLoop (decoder : EventDecoder) (now : Nat → Int) (scanErr : Option String) :
    StreamVars → List (List UInt8) → List ChunkEvent
  | _, [] =>
    match scanErr with
    | some err => [.err (readingStream err)]
    | none => [.err (readingStream "unexpected EOF without message_stop")]
  | v, line :: rest =>
    match line.dropPrefix? eventField with
    | some val => streamLoop decoder now scanErr { v with eventType := val } rest
    | none =>
      match line.dropPrefix? dataField with
      | none => streamLoop decoder now scanErr v rest
      | some data =>
        match onData decoder (now rest.length) v data with
        | .fail err => [.err err]
        | .stop => []
        | .next v' none => streamLoop decoder now scanErr v' rest
        | .next v' (some chunk) => .chunk chunk :: streamLoop decoder now scanErr v' rest

def chatCompletionStream (decoder : EventDecoder) (now : Nat → Int) (body : List UInt8) (fault : Option String) :
    List ChunkEvent :=
  streamLoop decoder now (scanBody body fault).err {} (scanBody body fault).lines

/-- The data lines, each with the event type in force. -/
def typedFrames : List UInt8 → List (List UInt8) → List (List UInt8 × List UInt8)
  | _, [] => []
  | eventType, line :: rest =>
    match line.dropPrefix? eventField with
    | some val => typedFrames val rest
    | none =>
      match line.dropPrefix? dataField with
      | none => typedFrames eventType rest
      | some data => (eventType, data) :: typedFrames eventType rest

def IsStop (frame : List UInt8 × List UInt8) : Prop := frame.1 = bytes "message_stop"

/-- The frame is of a type that is not decoded, or its data can be decoded. -/
def EventDecoder.Decodes (decoder : EventDecoder) (frame : List UInt8 × List UInt8) : Prop :=
  (frame.1 = bytes "message_start" → (decoder.messageStart frame.2).isOk) ∧
    (frame.1 = bytes "content_block_delta" → (decoder.contentBlockDelta frame.2).isOk) ∧
    (frame.1 = bytes "message_delta" → (decoder.messageDelta frame.2).isOk)

section frames

variable (decoder : EventDecoder) (data : List UInt8) {eventType : List UInt8}

theorem messageStart_frame (type : eventType = bytes "message_start") :
    ¬ IsStop (eventType, data) ∧ (decoder.Decodes (eventType, data) ↔ (decoder.messageStart data).isOk) := by
  subst type
  have delta : bytes "message_start" ≠ bytes "content_block_delta" := by decide
  have final : bytes "message_start" ≠ bytes "message_delta" := by decide
  have stop : bytes "message_start" ≠ bytes "message_stop" := by decide
  simp only [IsStop, EventDecoder.Decodes, delta, final, stop, false_implies, true_implies, and_true,
    not_false_eq_true]

theorem contentBlockDelta_frame (type : eventType = bytes "content_block_delta") :
    ¬ IsStop (eventType, data) ∧ (decoder.Decodes (eventType, data) ↔ (decoder.contentBlockDelta data).isOk) := by
  subst type
  have start : bytes "content_block_delta" ≠ bytes "message_start" := by decide
  have final : bytes "content_block_delta" ≠ bytes "message_delta" := by decide
  have stop : bytes "content_block_delta" ≠ bytes "message_stop" := by decide
  simp only [IsStop, EventDecoder.Decodes, start, final, stop, false_implies, true_implies, and_true,
    not_false_eq_true, true_and]

theorem messageDelta_frame (type : eventType = bytes "message_delta") :
    ¬ IsStop (eventType, data) ∧ (decoder.Decodes (eventType, data) ↔ (decoder.messageDelta data).isOk) := by
  subst type
  have start : bytes "message_delta" ≠ bytes "message_start" := by decide
  have delta : bytes "message_delta" ≠ bytes "content_block_delta" := by decide
  have stop : bytes "message_delta" ≠ bytes "message_stop" := by decide
  simp only [IsStop, EventDecoder.Decodes, start, delta, stop, false_implies, true_implies, not_false_eq_true,
    true_and]

end frames

/-- What the outcome of the switch says about the frame. -/
def OnData.Explains (decoder : EventDecoder) (v : StreamVars) (data : List UInt8) : OnData → Prop
  | .fail _ => ¬ IsStop (v.eventType, data) ∧ ¬ decoder.Decodes (v.eventType, data)
  | .stop => IsStop (v.eventType, data)
  | .next v' _ =>
    ¬ IsStop (v.eventType, data) ∧ decoder.Decodes (v.eventType, data) ∧ v'.eventType = v.eventType

theorem onData_explains (decoder : EventDecoder) (now : Int) (v : StreamVars) (data : List UInt8) :
    (onData decoder now v data).Explains decoder v data := by
  unfold onData
  split
  · rename_i type
    obtain ⟨running, decodes⟩ := messageStart_frame decoder data type
    cases decoded : decoder.messageStart data with
    | error err => exact ⟨running, by simp [decodes, decoded]⟩
    | ok ev => exact ⟨running, by simp [decodes, decoded], rfl⟩
  · rename_i notStart
    split
    · rename_i type
      obtain ⟨running, decodes⟩ := contentBlockDelta_frame decoder data type
      cases decoded : decoder.contentBlockDelta data with
      | error err => exact ⟨running, by simp [decodes, decoded]⟩
      | ok ev =>
        dsimp only
        split <;> exact ⟨running, by simp [decodes, decoded], rfl⟩
    · rename_i notDelta
      split
      · rename_i type
        obtain ⟨running, decodes⟩ := messageDelta_frame decoder data type
        cases decoded : decoder.messageDelta data with
        | error err => exact ⟨running, by simp [decodes, decoded]⟩
        | ok ev => exact ⟨running, by simp [decodes, decoded], rfl⟩
      · rename_i notFinal
        split
        · assumption
        · rename_i running
          exact ⟨running, ⟨fun other => absurd other notStart, fun other => absurd other notDelta,
            fun other => absurd other notFinal⟩, rfl⟩

/-- The stream ends without an error iff a `message_stop` is reached through data
lines that are all decoded, as far as their type is. -/
theorem failed_streamLoop {decoder : EventDecoder} {now : Nat → Int} {scanErr : Option String} (v : StreamVars)
    (lines : List (List UInt8)) :
    Failed (streamLoop decoder now scanErr v lines) ↔
      ¬ Reaches IsStop decoder.Decodes (typedFrames v.eventType lines) := by
  induction lines generalizing v with
  | nil => cases scanErr <;> simp [streamLoop, typedFrames]
  | cons line rest ih =>
    simp only [streamLoop, typedFrames]
    cases line.dropPrefix? eventField with
    | some val => exact ih { v with eventType := val }
    | none =>
      cases line.dropPrefix? dataField with
      | none => exact ih v
      | some data =>
        have explained := onData_explains decoder (now rest.length) v data
        dsimp only
        rw [reaches_cons]
        cases switched : onData decoder (now rest.length) v data with
        | fail err =>
          rw [switched] at explained
          simp [explained.1, explained.2]
        | stop =>
          rw [switched] at explained
          simp [show IsStop (v.eventType, data) from explained]
        | next v' chunk =>
          rw [switched] at explained
          obtain ⟨running, decoded, same⟩ := explained
          have tail := ih v'
          rw [same] at tail
          cases chunk with
          | none => simpa [running, decoded] using tail
          | some chunk => simpa [running, decoded] using tail

end LlmGateway.Anthropic
