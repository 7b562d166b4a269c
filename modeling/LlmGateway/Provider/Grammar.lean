import LlmGateway.Provider.OpenAI
import LlmGateway.Provider.Google
import LlmGateway.Provider.Anthropic

namespace LlmGateway

open Lines

/-- The events are one chunk for each frame, in the order of the frames, and then
one error unless the stream `ended` as it should. -/
def Follows {φ γ : Type} (translates : φ → γ → Prop) (frames : List φ) (ended : Prop)
    (events : List (StreamEvent γ)) : Prop :=
  ∃ chunks, List.Forall₂ translates frames chunks ∧
    (ended ∧ events = chunks.map .chunk ∨ ¬ ended ∧ ∃ e, events = chunks.map .chunk ++ [.err e])

section Follows

variable {φ γ : Type} {translates : φ → γ → Prop} {ended : Prop} {e : CallError}

theorem Follows.stop (finished : ended) : Follows translates [] ended [] :=
  ⟨[], .nil, .inl ⟨finished, rfl⟩⟩

theorem Follows.fail (cut : ¬ ended) : Follows translates [] ended [.err e] :=
  ⟨[], .nil, .inr ⟨cut, e, rfl⟩⟩

theorem Follows.chunk {f : φ} {c : γ} {frames : List φ} {events : List (StreamEvent γ)} (first : translates f c)
    (follows : Follows translates frames ended events) :
    Follows translates (f :: frames) ended (.chunk c :: events) := by
  obtain ⟨chunks, translated, ending⟩ := follows
  refine ⟨c :: chunks, .cons first translated, ?_⟩
  rcases ending with ⟨finished, rfl⟩ | ⟨cut, e, rfl⟩
  · exact .inl ⟨finished, rfl⟩
  · exact .inr ⟨cut, e, rfl⟩

end Follows

namespace OpenAI

variable {unmarshal : List UInt8 → Except String ChatCompletionChunk} {scanErr : Option String}

/-- A data line the stream passes: it is not the terminator and can be decoded. -/
def Passes (unmarshal : List UInt8 → Except String ChatCompletionChunk) (data : List UInt8) : Prop :=
  data ≠ done ∧ (unmarshal data).isOk

instance (data : List UInt8) : Decidable (Passes unmarshal data) := inferInstanceAs (Decidable (_ ∧ _))

def Terminated (unmarshal : List UInt8 → Except String ChatCompletionChunk) (lines : List (List UInt8)) : Prop :=
  Reaches (· = done) (fun data => (unmarshal data).isOk) (dataFrames lines)

theorem streamLoop_follows (lines : List (List UInt8)) :
    Follows (fun data chunk => unmarshal data = .ok chunk) ((dataFrames lines).takeWhile (Passes unmarshal ·))
      (Terminated unmarshal lines) (streamLoop unmarshal scanErr lines) := by
  induction lines with
  | nil => cases scanErr <;> exact .fail reaches_nil
  | cons line rest ih =>
    cases field : line.dropPrefix? dataField with
    | none =>
      rw [Terminated, streamLoop_skip field, dataFrames_skip field]
      exact ih
    | some data =>
      obtain rfl := dropPrefix_eq_some.mp field
      rw [Terminated, dataFrames_data field, reaches_cons]
      by_cases last : data = done
      · rw [last, streamLoop_done, List.takeWhile_cons_of_neg (by simp [Passes])]
        exact .stop (.inl rfl)
      · cases decoded : unmarshal data with
        | error err =>
          rw [List.takeWhile_cons_of_neg (by simp [Passes, decoded])]
          simp only [streamLoop, field, if_neg last, decoded]
          exact .fail (by simp [last])
        | ok chunk =>
          rw [streamLoop_chunk last decoded, List.takeWhile_cons_of_pos (by simp [Passes, last, decoded])]
          simp only [last, isOk_ok, true_and, false_or]
          exact .chunk decoded ih

end OpenAI

namespace Google

variable {unmarshal : List UInt8 → Except String GeminiResponse} {call : StreamCall} {scanErr : Option String}

/-- The chunk made of a data line at some reading of the clock. -/
def Translates (unmarshal : List UInt8 → Except String GeminiResponse) (call : StreamCall) (data : List UInt8)
    (chunk : ChatCompletionChunk) : Prop :=
  ∃ resp left, unmarshal data = .ok resp ∧ chunk = translateChunk resp call.streamID call.reqModel (call.now left)

def Completed (unmarshal : List UInt8 → Except String GeminiResponse) (scanErr : Option String)
    (lines : List (List UInt8)) : Prop :=
  scanErr = none ∧ ∀ data ∈ dataFrames lines, (unmarshal data).isOk

theorem streamLoop_follows (lines : List (List UInt8)) :
    Follows (Translates unmarshal call) ((dataFrames lines).takeWhile fun data => (unmarshal data).isOk)
      (Completed unmarshal scanErr lines) (streamLoop unmarshal call scanErr lines) := by
  induction lines with
  | nil =>
    cases scanErr with
    | some err => exact .fail (by simp [Completed])
    | none => exact .stop ⟨rfl, List.forall_mem_nil _⟩
  | cons line rest ih =>
    cases field : line.dropPrefix? dataField with
    | none =>
      rw [Completed, dataFrames_skip field]
      simp only [streamLoop, field]
      exact ih
    | some data =>
      rw [Completed, dataFrames_data field, List.forall_mem_cons]
      simp only [streamLoop, field]
      cases decoded : unmarshal data with
      | error err =>
        rw [List.takeWhile_cons_of_neg (by simp [decoded])]
        exact .fail (by simp)
      | ok resp =>
        rw [List.takeWhile_cons_of_pos (by simp [decoded])]
        simp only [isOk_ok, true_and]
        exact .chunk ⟨resp, rest.length, decoded, rfl⟩ ih

end Google

namespace Anthropic

/-- The event type in force and the data of a data line. -/
abbrev Frame := List UInt8 × List UInt8

variable {decoder : EventDecoder} {now : Nat → Int} {scanErr : Option String} {seen : List Frame} {frame : Frame}

instance (frame : Frame) : Decidable (IsStop frame) := inferInstanceAs (Decidable (_ = _))

instance (frame : Frame) : Decidable (decoder.Decodes frame) := inferInstanceAs (Decidable (_ ∧ _))

/-- A frame the stream passes. -/
def Passes (decoder : EventDecoder) (frame : Frame) : Prop := ¬ IsStop frame ∧ decoder.Decodes frame

instance (frame : Frame) : Decidable (Passes decoder frame) := inferInstanceAs (Decidable (_ ∧ _))

def Terminated (decoder : EventDecoder) (frames : List Frame) : Prop := Reaches IsStop decoder.Decodes frames

def EventDecoder.startOf (decoder : EventDecoder) (frame : Frame) : Option MessageStartEvent :=
  if frame.1 = bytes "message_start" then (decoder.messageStart frame.2).toOption else none

/-- The `message_start` in force after the frames; Go's zero value before the first. -/
def lastStart (decoder : EventDecoder) (seen : List Frame) : MessageStartEvent :=
  (seen.filterMap decoder.startOf).getLast?.getD ⟨"", "", 0⟩

/-- The frames that make a chunk: a delta of text, or the end of the message. -/
def Relevant (decoder : EventDecoder) (frame : Frame) : Prop :=
  (frame.1 = bytes "content_block_delta" ∧
      (decoder.contentBlockDelta frame.2).toOption.any (·.deltaType = "text_delta")) ∨
    frame.1 = bytes "message_delta"

instance (frame : Frame) : Decidable (Relevant decoder frame) := inferInstanceAs (Decidable (_ ∨ _))

def textChunk (start : MessageStartEvent) (now : Int) (ev : ContentBlockDeltaEvent) : ChatCompletionChunk where
  id := start.id
  object := "chat.completion.chunk"
  created := now
  model := start.model
  choices := [{ index := 0, delta := { content := ev.text } }]

def finalChunk (start : MessageStartEvent) (now : Int) (ev : MessageDeltaEvent) : ChatCompletionChunk where
  id := start.id
  object := "chat.completion.chunk"
  created := now
  model := start.model
  choices := [{ index := 0, finishReason := some (mapStopReason ev.stopReason) }]
  usage := some ⟨start.inputTokens, ev.outputTokens, start.inputTokens + ev.outputTokens⟩

/-- The chunk made of a frame under `start`. -/
def TranslatesUnder (decoder : EventDecoder) (start : MessageStartEvent) (now : Int) (frame : Frame)
    (chunk : ChatCompletionChunk) : Prop :=
  (frame.1 = bytes "content_block_delta" ∧
      ∃ ev, decoder.contentBlockDelta frame.2 = .ok ev ∧ chunk = textChunk start now ev) ∨
    frame.1 = bytes "message_delta" ∧
      ∃ ev, decoder.messageDelta frame.2 = .ok ev ∧ chunk = finalChunk start now ev

/-- The chunk made of a frame after those before it, at some reading of the clock. -/
def Translates (decoder : EventDecoder) (now : Nat → Int) (frame : List Frame × Frame)
    (chunk : ChatCompletionChunk) : Prop :=
  ∃ left, TranslatesUnder decoder (lastStart decoder frame.1) (now left) frame.2 chunk

/-- The frames, each with those before it. -/
def withHistory : List Frame → List Frame → List (List Frame × Frame)
  | _, [] => []
  | seen, frame :: frames => (seen, frame) :: withHistory (seen ++ [frame]) frames

/-- The frames of which chunks are made, out of those that are passed. -/
def relevantFrames (decoder : EventDecoder) (seen frames : List Frame) : List (List Frame × Frame) :=
  (withHistory seen (frames.takeWhile (Passes decoder ·))).filter (Relevant decoder ·.2)

theorem relevantFrames_stop (last : ¬ Passes decoder frame) (frames : List Frame) :
    relevantFrames decoder seen (frame :: frames) = [] := by
  rw [relevantFrames, List.takeWhile_cons_of_neg (by simpa using last)]
  rfl

theorem relevantFrames_pass (passes : Passes decoder frame) (frames : List Frame) :
    relevantFrames decoder seen (frame :: frames) =
      if Relevant decoder frame then (seen, frame) :: relevantFrames decoder (seen ++ [frame]) frames
      else relevantFrames decoder (seen ++ [frame]) frames := by
  rw [relevantFrames, List.takeWhile_cons_of_pos (by simpa using passes), withHistory, List.filter_cons]
  simp only [decide_eq_true_eq, relevantFrames]

theorem lastStart_concat (seen : List Frame) (frame : Frame) :
    lastStart decoder (seen ++ [frame]) = (decoder.startOf frame).getD (lastStart decoder seen) := by
  rw [lastStart, List.filterMap_append, List.filterMap_cons]
  cases decoder.startOf frame <;> simp [lastStart]

/-- The variables that remember the last `message_start`. -/
def StreamVars.start (v : StreamVars) : MessageStartEvent := ⟨v.msgID, v.msgModel, v.inputTokens⟩

/-- What the outcome of the switch says about the chunk of the frame. -/
def OnData.Translated (decoder : EventDecoder) (now : Int) (v : StreamVars) (data : List UInt8) : OnData → Prop
  | .fail _ => True
  | .stop => True
  | .next v' none =>
    ¬ Relevant decoder (v.eventType, data) ∧ v'.start = (decoder.startOf (v.eventType, data)).getD v.start
  | .next v' (some chunk) =>
    Relevant decoder (v.eventType, data) ∧ v'.start = (decoder.startOf (v.eventType, data)).getD v.start ∧
      TranslatesUnder decoder v.start now (v.eventType, data) chunk

theorem onData_translated (decoder : EventDecoder) (now : Int) (v : StreamVars) (data : List UInt8) :
    (onData decoder now v data).Translated decoder now v data := by
  have startDelta : bytes "message_start" ≠ bytes "content_block_delta" := by decide
  have startFinal : bytes "message_start" ≠ bytes "message_delta" := by decide
  have deltaFinal : bytes "content_block_delta" ≠ bytes "message_delta" := by decide
  unfold onData
  split
  · rename_i type
    cases decoded : decoder.messageStart data with
    | error err => trivial
    | ok ev =>
      refine ⟨?_, ?_⟩
      · simp only [Relevant, type, startDelta, startFinal, false_and, or_self, not_false_eq_true]
      · simp only [EventDecoder.startOf, type, if_true, decoded]
        rfl
  · rename_i notStart
    have started : decoder.startOf (v.eventType, data) = none := if_neg notStart
    split
    · rename_i type
      cases decoded : decoder.contentBlockDelta data with
      | error err => trivial
      | ok ev =>
        dsimp only
        split
        · rename_i other
          refine ⟨?_, by rw [started]; rfl⟩
          simp only [Relevant, type, deltaFinal, or_false, true_and, decoded]
          simpa [Except.toOption] using other
        · rename_i isText
          refine ⟨.inl ⟨type, ?_⟩, by rw [started]; rfl, .inl ⟨type, ev, decoded, rfl⟩⟩
          simpa [decoded, Except.toOption] using isText
    · rename_i notDelta
      split
      · rename_i type
        cases decoded : decoder.messageDelta data with
        | error err => trivial
        | ok ev => exact ⟨.inr type, by rw [started]; rfl, .inr ⟨type, ev, decoded, rfl⟩⟩
      · rename_i notFinal
        split
        · trivial
        · refine ⟨?_, by rw [started]; rfl⟩
          rintro (⟨type, -⟩ | type)
          · exact notDelta type
          · exact notFinal type

/-- The loop, started with variables that agree with the frames seen so far. -/
theorem streamLoop_follows (v : StreamVars) (remembers : v.start = lastStart decoder seen)
    (lines : List (List UInt8)) :
    Follows (Translates decoder now) (relevantFrames decoder seen (typedFrames v.eventType lines))
      (Terminated decoder (typedFrames v.eventType lines)) (streamLoop decoder now scanErr v lines) := by
  induction lines generalizing v seen with
  | nil => cases scanErr <;> exact .fail reaches_nil
  | cons line rest ih =>
    simp only [streamLoop, typedFrames]
    cases line.dropPrefix? eventField with
    | some val => exact ih { v with eventType := val } remembers
    | none =>
      cases line.dropPrefix? dataField with
      | none => exact ih v remembers
      | some data =>
        have explained := onData_explains decoder (now rest.length) v data
        have translated := onData_translated decoder (now rest.length) v data
        dsimp only
        rw [Terminated, reaches_cons]
        cases switched : onData decoder (now rest.length) v data with
        | fail err =>
          rw [switched] at explained
          obtain ⟨running, garbled⟩ := explained
          rw [relevantFrames_stop fun passes => garbled passes.2]
          exact .fail (by simp [running, garbled])
        | stop =>
          rw [switched] at explained
          rw [relevantFrames_stop fun passes => passes.1 explained]
          exact .stop (.inl explained)
        | next v' chunk =>
          rw [switched] at explained translated
          obtain ⟨running, decoded, same⟩ := explained
          rw [relevantFrames_pass ⟨running, decoded⟩]
          simp only [running, decoded, true_and, false_or]
          cases chunk with
          | none =>
            obtain ⟨irrelevant, start⟩ := translated
            rw [if_neg irrelevant]
            have tail := ih v' (by rw [start, lastStart_concat, remembers])
            rwa [same] at tail
          | some chunk =>
            obtain ⟨relevant, start, translation⟩ := translated
            rw [if_pos relevant]
            have tail := ih v' (by rw [start, lastStart_concat, remembers])
            rw [same] at tail
            rw [remembers] at translation
            exact .chunk ⟨rest.length, translation⟩ tail

end Anthropic

/-- The events of the three stream loops on the lines of a response, after which
the input ends, with an error if `scanErr` is one. -/
theorem stream_events_follow (lines : List (List UInt8)) (scanErr : Option String) :
    (∀ unmarshal,
      Follows (fun data chunk => unmarshal data = .ok chunk) ((dataFrames lines).takeWhile (OpenAI.Passes unmarshal ·))
        (OpenAI.Terminated unmarshal lines) (OpenAI.streamLoop unmarshal scanErr lines)) ∧
    (∀ decoder now,
      Follows (Anthropic.Translates decoder now) (Anthropic.relevantFrames decoder [] (Anthropic.typedFrames [] lines))
        (Anthropic.Terminated decoder (Anthropic.typedFrames [] lines))
        (Anthropic.streamLoop decoder now scanErr {} lines)) ∧
    ∀ unmarshal call,
      Follows (Google.Translates unmarshal call) ((dataFrames lines).takeWhile fun data => (unmarshal data).isOk)
        (Google.Completed unmarshal scanErr lines) (Google.streamLoop unmarshal call scanErr lines) :=
  ⟨fun _ => OpenAI.streamLoop_follows lines, fun _ _ => Anthropic.streamLoop_follows {} rfl lines,
    fun _ _ => Google.streamLoop_follows lines⟩

end LlmGateway
