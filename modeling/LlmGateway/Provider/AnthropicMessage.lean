import LlmGateway.Provider.Grammar

namespace LlmGateway

/-- The chunks say together what the response says: its text in pieces, its finish
reason and usage once each, its id and model on every chunk. -/
structure Agrees (chunks : List ChatCompletionChunk) (resp : ChatCompletionResponse) : Prop where
  content : String.join (chunks.flatMap fun c => c.choices.map (·.delta.content)) =
    String.join (resp.choices.map (·.message.content))
  finishReason : chunks.flatMap (fun c => c.choices.filterMap (·.finishReason)) = resp.choices.map (·.finishReason)
  usage : chunks.filterMap (·.usage) = [resp.usage]
  id : ∀ c ∈ chunks, c.id = resp.id
  model : ∀ c ∈ chunks, c.model = resp.model

namespace Anthropic

open Lines

structure AnthropicContent where
  type : String
  text : String
deriving DecidableEq, Repr

structure AnthropicUsage where
  inputTokens : Int
  outputTokens : Int
deriving DecidableEq, Repr

/-- `anthropicResponse`, as far as the translation reads it. -/
structure AnthropicResponse where
  id : String
  content : List AnthropicContent
  model : String
  stopReason : String
  usage : AnthropicUsage
deriving DecidableEq, Repr

/-- The text of the whole answer: that of its text blocks. -/
def textParts (content : List AnthropicContent) : List String :=
  (content.filter (·.type = "text")).map (·.text)

def translateResponse (resp : AnthropicResponse) (now : Int) : ChatCompletionResponse where
  id := resp.id
  object := "chat.completion"
  created := now
  model := resp.model
  choices :=
    [{ index := 0
       message := { role := "assistant", content := String.join (textParts resp.content) }
       finishReason := mapStopReason resp.stopReason }]
  usage := ⟨resp.usage.inputTokens, resp.usage.outputTokens, resp.usage.inputTokens + resp.usage.outputTokens⟩

/-- The events that deliver a message. -/
inductive Event where
  | messageStart (ev : MessageStartEvent)
  | contentBlockStart
  | contentBlockDelta (ev : ContentBlockDeltaEvent)
  | contentBlockStop
  | messageDelta (ev : MessageDeltaEvent)
  | messageStop

def Event.type : Event → List UInt8
  | .messageStart _ => bytes "message_start"
  | .contentBlockStart => bytes "content_block_start"
  | .contentBlockDelta _ => bytes "content_block_delta"
  | .contentBlockStop => bytes "content_block_stop"
  | .messageDelta _ => bytes "message_delta"
  | .messageStop => bytes "message_stop"

/-- The data of the event; any data where the stream does not look at it. -/
def Event.Encoded (decoder : EventDecoder) (data : List UInt8) : Event → Prop
  | .messageStart ev => decoder.messageStart data = .ok ev
  | .contentBlockDelta ev => decoder.contentBlockDelta data = .ok ev
  | .messageDelta ev => decoder.messageDelta data = .ok ev
  | .contentBlockStart => True
  | .contentBlockStop => True
  | .messageStop => True

def Carries (decoder : EventDecoder) (frame : Frame) (event : Event) : Prop :=
  frame.1 = event.type ∧ event.Encoded decoder frame.2

/-- The frame is of a type a message is delivered with: no ping, and nothing new. -/
def Known (frame : Frame) : Prop :=
  frame.1 ∈ [bytes "message_start", bytes "content_block_start", bytes "content_block_delta",
    bytes "content_block_stop", bytes "message_delta", bytes "message_stop"]

instance (frame : Frame) : Decidable (Known frame) := inferInstanceAs (Decidable (_ ∈ _))

def IsText (ev : ContentBlockDeltaEvent) : Prop := ev.deltaType = "text_delta"

instance (ev : ContentBlockDeltaEvent) : Decidable (IsText ev) := inferInstanceAs (Decidable (_ = _))

/-- The texts of the `text_delta`s. -/
def textDeltas (deltas : List ContentBlockDeltaEvent) : List String := (deltas.filter (IsText ·)).map (·.text)

/-- The deltas split the text of a text block; a block of another type has none of text. -/
def Splits (block : AnthropicContent) (deltas : List ContentBlockDeltaEvent) : Prop :=
  if block.type = "text" then String.join (textDeltas deltas) = block.text else ∀ ev ∈ deltas, ¬ IsText ev

def blockEvents (deltas : List ContentBlockDeltaEvent) : List Event :=
  .contentBlockStart :: deltas.map .contentBlockDelta ++ [.contentBlockStop]

/-- What follows the start of a message and precedes its stop. -/
def innerEvents (msg : AnthropicResponse) (deltas : List (List ContentBlockDeltaEvent)) : List Event :=
  deltas.flatMap blockEvents ++ [.messageDelta ⟨msg.stopReason, msg.usage.outputTokens⟩]

def messageEvents (msg : AnthropicResponse) (deltas : List (List ContentBlockDeltaEvent)) : List Event :=
  .messageStart ⟨msg.id, msg.model, msg.usage.inputTokens⟩ :: innerEvents msg deltas ++ [.messageStop]

/-- The frames are those of the events, with frames of other types anywhere between. -/
def Conveys (decoder : EventDecoder) (frames : List Frame) (events : List Event) : Prop :=
  List.Forall₂ (Carries decoder) (frames.filter (Known ·)) events

/-- The frames deliver the message, each block in some deltas. -/
def Delivers (decoder : EventDecoder) (frames : List Frame) (msg : AnthropicResponse) : Prop :=
  ∃ deltas, List.Forall₂ Splits msg.content deltas ∧ Conveys decoder frames (messageEvents msg deltas)

variable {decoder : EventDecoder} {now : Nat → Int} {scanErr : Option String} {seen frames : List Frame}
  {frame : Frame} {events : List Event} {start : MessageStartEvent}

/-- An event between the start and the stop of its message. -/
def Event.Inner : Event → Prop
  | .messageStart _ => False
  | .messageStop => False
  | _ => True

def Event.Relevant : Event → Prop
  | .contentBlockDelta ev => IsText ev
  | .messageDelta _ => True
  | _ => False

instance : DecidablePred Event.Relevant
  | .messageStart _ => .isFalse id
  | .contentBlockStart => .isFalse id
  | .contentBlockDelta ev => inferInstanceAs (Decidable (IsText ev))
  | .contentBlockStop => .isFalse id
  | .messageDelta _ => .isTrue trivial
  | .messageStop => .isFalse id

/-- A frame that is passed and leaves the variables as they are. -/
structure Neutral (decoder : EventDecoder) (frame : Frame) : Prop where
  passes : Passes decoder frame
  startOf : decoder.startOf frame = none

/-- The switch has no case for the type. -/
def Unread (type : List UInt8) : Prop :=
  type ≠ bytes "message_start" ∧ type ≠ bytes "content_block_delta" ∧ type ≠ bytes "message_delta" ∧
    type ≠ bytes "message_stop"

instance (type : List UInt8) : Decidable (Unread type) := inferInstanceAs (Decidable (_ ∧ _))

theorem neutral_of_unread (decoder : EventDecoder) (frame : Frame) (unread : Unread frame.1) :
    Neutral decoder frame ∧ ¬ Relevant decoder frame := by
  obtain ⟨notStart, notDelta, notFinal, notStop⟩ := unread
  have passes : Passes decoder frame := ⟨notStop, fun type => absurd type notStart, fun type => absurd type notDelta,
    fun type => absurd type notFinal⟩
  refine ⟨⟨passes, if_neg notStart⟩, ?_⟩
  rintro (⟨type, -⟩ | type)
  · exact notDelta type
  · exact notFinal type

theorem unread_of_unknown (unknown : ¬ Known frame) : Unread frame.1 := by
  simp only [Known, List.mem_cons, List.not_mem_nil, or_false, not_or] at unknown
  exact ⟨unknown.1, unknown.2.2.1, unknown.2.2.2.2⟩

theorem Carries.known {event : Event} (carries : Carries decoder frame event) : Known frame := by
  rw [Known, carries.1]
  cases event <;> simp [Event.type]

/-- A frame of an event inside a message. -/
theorem Carries.inner {event : Event} (carries : Carries decoder frame event) (inner : event.Inner) :
    Neutral decoder frame ∧ (Relevant decoder frame ↔ event.Relevant) := by
  obtain ⟨type, data⟩ := frame
  obtain ⟨named, encoded⟩ := carries
  change type = event.type at named
  subst named
  cases event with
  | messageStart ev => exact inner.elim
  | messageStop => exact inner.elim
  | contentBlockStart =>
    have unread : Unread (bytes "content_block_start") := by decide
    obtain ⟨neutral, irrelevant⟩ := neutral_of_unread decoder (_, data) unread
    exact ⟨neutral, iff_of_false irrelevant id⟩
  | contentBlockStop =>
    have unread : Unread (bytes "content_block_stop") := by decide
    obtain ⟨neutral, irrelevant⟩ := neutral_of_unread decoder (_, data) unread
    exact ⟨neutral, iff_of_false irrelevant id⟩
  | contentBlockDelta ev =>
    change decoder.contentBlockDelta data = .ok ev at encoded
    obtain ⟨running, decodes⟩ := contentBlockDelta_frame decoder data rfl
    have notStart : bytes "content_block_delta" ≠ bytes "message_start" := by decide
    have notFinal : bytes "content_block_delta" ≠ bytes "message_delta" := by decide
    refine ⟨⟨⟨running, decodes.mpr (by rw [encoded]; rfl)⟩, if_neg notStart⟩, ?_⟩
    simp [Relevant, Event.type, notFinal, encoded, Except.toOption, Event.Relevant, IsText]
  | messageDelta ev =>
    change decoder.messageDelta data = .ok ev at encoded
    obtain ⟨running, decodes⟩ := messageDelta_frame decoder data rfl
    have notStart : bytes "message_delta" ≠ bytes "message_start" := by decide
    exact ⟨⟨⟨running, decodes.mpr (by rw [encoded]; rfl)⟩, if_neg notStart⟩, iff_of_true (.inr rfl) trivial⟩

theorem Carries.messageStart (carries : Carries decoder frame (.messageStart start)) :
    Passes decoder frame ∧ decoder.startOf frame = some start ∧ ¬ Relevant decoder frame := by
  have type : frame.1 = bytes "message_start" := carries.1
  have decoded : decoder.messageStart frame.2 = .ok start := carries.2
  have notDelta : bytes "message_start" ≠ bytes "content_block_delta" := by decide
  have notFinal : bytes "message_start" ≠ bytes "message_delta" := by decide
  obtain ⟨running, decodes⟩ := messageStart_frame decoder frame.2 type
  refine ⟨⟨running, decodes.mpr (by rw [decoded]; rfl)⟩, ?_, ?_⟩
  · rw [EventDecoder.startOf, if_pos type, decoded]
    rfl
  · simp only [Relevant, type, notDelta, notFinal, false_and, or_self, not_false_eq_true]

theorem Neutral.lastStart_concat (neutral : Neutral decoder frame) (seen : List Frame) :
    lastStart decoder (seen ++ [frame]) = lastStart decoder seen := by
  rw [Anthropic.lastStart_concat, neutral.startOf, Option.getD_none]

theorem Neutral.terminated (neutral : Neutral decoder frame) :
    Terminated decoder (frame :: frames) ↔ Terminated decoder frames := by
  rw [Terminated, reaches_cons]
  simp only [neutral.passes.1, neutral.passes.2, true_and, false_or, Terminated]

theorem conveys_skip (unknown : ¬ Known frame) :
    Conveys decoder (frame :: frames) events ↔ Conveys decoder frames events := by
  rw [Conveys, List.filter_cons_of_neg (by simpa using unknown), Conveys]

theorem conveys_cons {event : Event} (known : Known frame) :
    Conveys decoder (frame :: frames) (event :: events) ↔
      Carries decoder frame event ∧ Conveys decoder frames events := by
  rw [Conveys, List.filter_cons_of_pos (by simpa using known), List.forall₂_cons, Conveys]

/-- A frame of which a chunk is made under `start`, and its event. -/
def Matched (decoder : EventDecoder) (start : MessageStartEvent) (frame : List Frame × Frame) (event : Event) : Prop :=
  lastStart decoder frame.1 = start ∧ Carries decoder frame.2 event

/-- What follows the start of a message makes chunks of its relevant events, up to the stop. -/
theorem Conveys.inner (conveyed : Conveys decoder frames (events ++ [.messageStop]))
    (inner : ∀ event ∈ events, event.Inner) (remembers : lastStart decoder seen = start) :
    Terminated decoder frames ∧
      List.Forall₂ (Matched decoder start) (relevantFrames decoder seen frames) (events.filter (·.Relevant)) := by
  induction frames generalizing events seen with
  | nil => cases events <;> cases conveyed
  | cons frame rest ih =>
    by_cases known : Known frame
    · cases events with
      | nil =>
        have stop : IsStop frame := ((conveys_cons known).mp conveyed).1.1
        rw [relevantFrames_stop fun passes => passes.1 stop]
        exact ⟨reaches_cons.mpr (.inl stop), .nil⟩
      | cons event events =>
        obtain ⟨carries, others⟩ := (conveys_cons known).mp conveyed
        obtain ⟨first, inner⟩ := List.forall_mem_cons.mp inner
        obtain ⟨neutral, relevant⟩ := carries.inner first
        obtain ⟨ended, matched⟩ := ih others inner ((neutral.lastStart_concat seen).trans remembers)
        rw [neutral.terminated, relevantFrames_pass neutral.passes, List.filter_cons]
        simp only [relevant, decide_eq_true_eq]
        split
        · exact ⟨ended, .cons ⟨remembers, carries⟩ matched⟩
        · exact ⟨ended, matched⟩
    · obtain ⟨neutral, irrelevant⟩ := neutral_of_unread decoder frame (unread_of_unknown known)
      rw [neutral.terminated, relevantFrames_pass neutral.passes, if_neg irrelevant]
      exact ih ((conveys_skip known).mp conveyed) inner ((neutral.lastStart_concat seen).trans remembers)

/-- The same from the start of the message on. -/
theorem Conveys.message (seen : List Frame)
    (conveyed : Conveys decoder frames (.messageStart start :: events ++ [.messageStop]))
    (inner : ∀ event ∈ events, event.Inner) :
    Terminated decoder frames ∧
      List.Forall₂ (Matched decoder start) (relevantFrames decoder seen frames) (events.filter (·.Relevant)) := by
  induction frames generalizing seen with
  | nil => cases conveyed
  | cons frame rest ih =>
    by_cases known : Known frame
    · obtain ⟨carries, others⟩ := (conveys_cons known).mp conveyed
      obtain ⟨passes, started, irrelevant⟩ := carries.messageStart
      have remembers : lastStart decoder (seen ++ [frame]) = start := by
        rw [lastStart_concat, started, Option.getD_some]
      obtain ⟨ended, matched⟩ := Conveys.inner others inner remembers
      rw [relevantFrames_pass passes, if_neg irrelevant]
      exact ⟨reaches_cons.mpr (.inr ⟨passes.2, ended⟩), matched⟩
    · obtain ⟨neutral, irrelevant⟩ := neutral_of_unread decoder frame (unread_of_unknown known)
      rw [neutral.terminated, relevantFrames_pass neutral.passes, if_neg irrelevant]
      exact ih _ ((conveys_skip known).mp conveyed)

theorem innerEvents_inner (msg : AnthropicResponse) (deltas : List (List ContentBlockDeltaEvent)) :
    ∀ event ∈ innerEvents msg deltas, event.Inner := by
  intro event member
  simp only [innerEvents, blockEvents, List.mem_append, List.mem_flatMap, List.mem_cons, List.mem_map,
    List.not_mem_nil, or_false] at member
  rcases member with ⟨block, -, (rfl | ⟨ev, -, rfl⟩) | rfl⟩ | rfl <;> trivial

theorem filter_blockEvents (deltas : List ContentBlockDeltaEvent) :
    (blockEvents deltas).filter (·.Relevant) = (deltas.filter (IsText ·)).map .contentBlockDelta := by
  have deltas : (deltas.map Event.contentBlockDelta).filter (·.Relevant) =
      (deltas.filter (IsText ·)).map .contentBlockDelta := List.filter_map
  rw [blockEvents, List.filter_append, List.filter_cons_of_neg (by decide), deltas,
    List.filter_cons_of_neg (by decide), List.filter_nil, List.append_nil]

/-- The relevant events of a message: the deltas of text, then its end. -/
theorem filter_innerEvents (msg : AnthropicResponse) (deltas : List (List ContentBlockDeltaEvent)) :
    (innerEvents msg deltas).filter (·.Relevant) =
      (deltas.flatten.filter (IsText ·)).map .contentBlockDelta ++
        [.messageDelta ⟨msg.stopReason, msg.usage.outputTokens⟩] := by
  rw [innerEvents, List.filter_append, List.filter_flatMap, List.filter_flatten, List.map_flatten, List.map_map]
  simp only [filter_blockEvents, List.flatMap_def]
  rfl

/-- The deltas of all blocks say the text of the text blocks. -/
theorem join_textDeltas {content : List AnthropicContent} {deltas : List (List ContentBlockDeltaEvent)}
    (split : List.Forall₂ Splits content deltas) :
    String.join (textDeltas deltas.flatten) = String.join (textParts content) := by
  induction split with
  | nil => rfl
  | @cons block first content others splits _ ih =>
    have both : textDeltas (first :: others).flatten = textDeltas first ++ textDeltas others.flatten := by
      rw [textDeltas, List.flatten_cons, List.filter_append, List.map_append, textDeltas, textDeltas]
    rw [both, String.join_append, ih]
    unfold Splits at splits
    split at splits
    · rename_i isText
      have parts : textParts (block :: content) = block.text :: textParts content := by
        rw [textParts, List.filter_cons_of_pos (by simpa using isText), List.map_cons, textParts]
      rw [parts, String.join_cons, splits]
    · rename_i other
      have parts : textParts (block :: content) = textParts content := by
        rw [textParts, List.filter_cons_of_neg (by simpa using other), textParts]
      have silent : textDeltas first = [] := by simpa [textDeltas, List.filter_eq_nil_iff] using splits
      rw [parts, silent, String.join_nil, String.empty_append]

/-- The chunk of an event under `start`. -/
def Event.Makes (start : MessageStartEvent) (chunk : ChatCompletionChunk) : Event → Prop
  | .contentBlockDelta ev => ∃ instant, chunk = textChunk start instant ev
  | .messageDelta ev => ∃ instant, chunk = finalChunk start instant ev
  | _ => False

theorem Matched.makes {frame : List Frame × Frame} {event : Event} {chunk : ChatCompletionChunk}
    (matched : Matched decoder start frame event) (relevant : event.Relevant)
    (translated : Translates decoder now frame chunk) : event.Makes start chunk := by
  obtain ⟨rfl, type, encoded⟩ := matched
  have deltaFinal : bytes "content_block_delta" ≠ bytes "message_delta" := by decide
  obtain ⟨left, ⟨named, ev, decoded, rfl⟩ | ⟨named, ev, decoded, rfl⟩⟩ := translated
  · cases event with
    | contentBlockDelta ev' =>
      obtain rfl : ev = ev' := Except.ok.inj (decoded.symm.trans encoded)
      exact ⟨_, rfl⟩
    | messageDelta ev' => exact absurd (named.symm.trans type) deltaFinal
    | _ => exact relevant.elim
  · cases event with
    | contentBlockDelta ev' => exact absurd (type.symm.trans named) deltaFinal
    | messageDelta ev' =>
      obtain rfl : ev = ev' := Except.ok.inj (decoded.symm.trans encoded)
      exact ⟨_, rfl⟩
    | _ => exact relevant.elim

/-- Chunks made of frames are made of the events of these frames. -/
theorem makes_of_matched {frames : List (List Frame × Frame)} {chunks : List ChatCompletionChunk}
    (matched : List.Forall₂ (Matched decoder start) frames events) (relevant : ∀ event ∈ events, event.Relevant)
    (translated : List.Forall₂ (Translates decoder now) frames chunks) :
    List.Forall₂ (fun event chunk => Event.Makes start chunk event) events chunks := by
  induction matched generalizing chunks with
  | nil =>
    cases translated
    exact .nil
  | cons first _ ih =>
    obtain ⟨isRelevant, others⟩ := List.forall_mem_cons.mp relevant
    cases translated with
    | cons translation rest => exact .cons (first.makes isRelevant translation) (ih others rest)

/-- A response with the given text. -/
def reply (start : MessageStartEvent) (final : MessageDeltaEvent) (created : Int) (text : String) :
    ChatCompletionResponse :=
  translateResponse ⟨start.id, [⟨"text", text⟩], start.model, final.stopReason,
    ⟨start.inputTokens, final.outputTokens⟩⟩ created

theorem join_textParts_single (text : String) : String.join (textParts [⟨"text", text⟩]) = text := by
  simp [textParts]

theorem reply_eq (msg : AnthropicResponse) (created : Int) :
    reply ⟨msg.id, msg.model, msg.usage.inputTokens⟩ ⟨msg.stopReason, msg.usage.outputTokens⟩ created
      (String.join (textParts msg.content)) = translateResponse msg created := by
  unfold reply translateResponse
  rw [join_textParts_single]

section Reply

variable {final : MessageDeltaEvent} {created : Int} {chunks : List ChatCompletionChunk} {text : String}

theorem agrees_final (instant : Int) : Agrees [finalChunk start instant final] (reply start final created "") where
  content := rfl
  finishReason := rfl
  usage := rfl
  id := List.forall_mem_singleton.mpr rfl
  model := List.forall_mem_singleton.mpr rfl

theorem agrees_text (instant : Int) (ev : ContentBlockDeltaEvent)
    (agrees : Agrees chunks (reply start final created text)) :
    Agrees (textChunk start instant ev :: chunks) (reply start final created (ev.text ++ text)) where
  content := by
    have rest := agrees.content
    simp only [reply, translateResponse, join_textParts_single, List.map_cons, List.map_nil, String.join_cons,
      String.join_nil, String.append_empty] at rest ⊢
    rw [List.flatMap_cons, String.join_append, rest]
    simp [textChunk]
  finishReason := agrees.finishReason
  usage := agrees.usage
  id := List.forall_mem_cons.mpr ⟨rfl, agrees.id⟩
  model := List.forall_mem_cons.mpr ⟨rfl, agrees.model⟩

/-- Chunks made of deltas of text and the end of a message. -/
theorem agrees_of_makes {texts : List ContentBlockDeltaEvent}
    (made : List.Forall₂ (fun event chunk => Event.Makes start chunk event)
      (texts.map .contentBlockDelta ++ [.messageDelta final]) chunks) :
    Agrees chunks (reply start final created (String.join (texts.map (·.text)))) := by
  induction texts generalizing chunks with
  | nil =>
    cases made with
    | cons last none =>
      cases none
      obtain ⟨instant, rfl⟩ := last
      exact agrees_final instant
  | cons ev texts ih =>
    cases made with
    | cons first rest =>
      obtain ⟨instant, rfl⟩ := first
      rw [List.map_cons, String.join_cons]
      exact agrees_text instant ev (ih rest)

end Reply

/-- A message that is delivered as a stream of events is emitted without an error,
and says what the whole message is translated to. -/
theorem streamed_message_agrees (decoder : EventDecoder) (now : Nat → Int) (scanErr : Option String)
    (lines : List (List UInt8)) (msg : AnthropicResponse) (created : Int)
    (delivered : Delivers decoder (typedFrames [] lines) msg) :
    ∃ chunks, streamLoop decoder now scanErr {} lines = chunks.map .chunk ∧
      Agrees chunks (translateResponse msg created) := by
  obtain ⟨deltas, split, conveyed⟩ := delivered
  obtain ⟨ended, matched⟩ := Conveys.message [] conveyed (innerEvents_inner msg deltas)
  have follows : Follows (Translates decoder now) (relevantFrames decoder [] (typedFrames [] lines))
      (Terminated decoder (typedFrames [] lines)) (streamLoop decoder now scanErr {} lines) :=
    streamLoop_follows {} rfl lines
  obtain ⟨chunks, translated, ⟨-, emitted⟩ | ⟨cut, -⟩⟩ := follows
  · have made := makes_of_matched matched (fun event member => by simpa using (List.mem_filter.mp member).2) translated
    rw [filter_innerEvents] at made
    rw [← reply_eq, ← join_textDeltas split]
    exact ⟨chunks, emitted, agrees_of_makes made⟩
  · exact absurd ended cut

/-- An event as the API writes it: its type, its data, an empty line. -/
def eventLines (frame : Frame) : List (List UInt8) := [eventField ++ frame.1, dataField ++ frame.2, []]

theorem typedFrames_event (eventType type : List UInt8) (rest : List (List UInt8)) :
    typedFrames eventType ((eventField ++ type) :: rest) = typedFrames type rest := by
  simp only [typedFrames, dropPrefix_eq_some.mpr rfl]

theorem typedFrames_data (eventType data : List UInt8) (rest : List (List UInt8)) :
    typedFrames eventType ((dataField ++ data) :: rest) = (eventType, data) :: typedFrames eventType rest := by
  have other : (dataField ++ data).dropPrefix? eventField = none := rfl
  simp only [typedFrames, other, dropPrefix_eq_some.mpr rfl]

theorem typedFrames_eventLines (eventType : List UInt8) (frames : List Frame) :
    typedFrames eventType (frames.flatMap eventLines) = frames := by
  induction frames generalizing eventType with
  | nil => rfl
  | cons frame frames ih =>
    rw [List.flatMap_cons, eventLines, List.cons_append, typedFrames_event, List.cons_append, typedFrames_data]
    exact congrArg _ (ih frame.1)

/-- The data of a message of one text and one tool call, as the API writes it. -/
def startText : List UInt8 :=
  bytes "\x7b\"message\":\x7b\"id\":\"msg_1\",\"model\":\"claude\",\"usage\":\x7b\"input_tokens\":7\x7d\x7d\x7d"

def firstText : List UInt8 :=
  bytes "\x7b\"delta\":\x7b\"type\":\"text_delta\",\"text\":\"Hel\"\x7d\x7d"

def secondText : List UInt8 :=
  bytes "\x7b\"delta\":\x7b\"type\":\"text_delta\",\"text\":\"lo\"\x7d\x7d"

def toolText : List UInt8 :=
  bytes "\x7b\"delta\":\x7b\"type\":\"input_json_delta\"\x7d\x7d"

def finalText : List UInt8 :=
  bytes "\x7b\"delta\":\x7b\"stop_reason\":\"end_turn\"\x7d,\"usage\":\x7b\"output_tokens\":5\x7d\x7d"

/-- `json.Unmarshal` at those texts. -/
def sampleDecoder : EventDecoder where
  messageStart data := if data = startText then .ok ⟨"msg_1", "claude", 7⟩ else .error "invalid character"
  contentBlockDelta data :=
    if data = firstText then .ok ⟨"text_delta", "Hel"⟩
    else if data = secondText then .ok ⟨"text_delta", "lo"⟩
    else if data = toolText then .ok ⟨"input_json_delta", ""⟩
    else .error "invalid character"
  messageDelta data := if data = finalText then .ok ⟨"end_turn", 5⟩ else .error "invalid character"

/-- A text block in two deltas, with a ping between them, and a block of another type. -/
theorem streamed_message_agrees_split :
    let frames : List Frame :=
      [(bytes "message_start", startText), (bytes "content_block_start", []),
        (bytes "content_block_delta", firstText), (bytes "ping", []), (bytes "content_block_delta", secondText),
        (bytes "content_block_stop", []), (bytes "content_block_start", []),
        (bytes "content_block_delta", toolText), (bytes "content_block_stop", []),
        (bytes "message_delta", finalText), (bytes "message_stop", [])]
    let msg : AnthropicResponse := ⟨"msg_1", [⟨"text", "Hello"⟩, ⟨"tool_use", ""⟩], "claude", "end_turn", ⟨7, 5⟩⟩
    ∃ chunks, streamLoop sampleDecoder (fun _ => 0) none {} (frames.flatMap eventLines) = chunks.map .chunk ∧
      Agrees chunks (translateResponse msg 0) := by
  intro frames msg
  refine streamed_message_agrees sampleDecoder _ _ _ msg 0 ⟨[[⟨"text_delta", "Hel"⟩, ⟨"text_delta", "lo"⟩],
    [⟨"input_json_delta", ""⟩]], ?_, ?_⟩
  · refine .cons ?_ (.cons ?_ .nil)
    · rfl
    · exact List.forall_mem_singleton.mpr (by decide)
  · have known : frames.filter (Known ·) = frames.eraseIdx 3 := by decide
    rw [typedFrames_eventLines, Conveys, known]
    exact .cons ⟨rfl, rfl⟩ <| .cons ⟨rfl, trivial⟩ <| .cons ⟨rfl, rfl⟩ <| .cons ⟨rfl, rfl⟩ <|
      .cons ⟨rfl, trivial⟩ <| .cons ⟨rfl, trivial⟩ <| .cons ⟨rfl, rfl⟩ <| .cons ⟨rfl, trivial⟩ <|
      .cons ⟨rfl, rfl⟩ <| .cons ⟨rfl, trivial⟩ .nil

end Anthropic

end LlmGateway
