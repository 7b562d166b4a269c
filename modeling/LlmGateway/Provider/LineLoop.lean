import LlmGateway.Provider.OpenAI
import LlmGateway.Provider.Google
import LlmGateway.Provider.Anthropic

namespace LlmGateway

/-- The stream goroutine of one of the adapters, with the decoders it uses. -/
inductive AdapterStream where
  | openAI (unmarshal : List UInt8 → Except String ChatCompletionChunk)
  | anthropic (decoder : Anthropic.EventDecoder)
  | google (unmarshal : List UInt8 → Except String Google.GeminiResponse) (streamID reqModel : String)

/-- What the body of the scan loop does with one line: go on to the next, send a
chunk first, send an error and return, or return. -/
inductive LineStep where
  | next (vars : Anthropic.StreamVars)
  | emit (chunk : ChatCompletionChunk) (vars : Anthropic.StreamVars)
  | fail (err : CallError)
  | stop

namespace AdapterStream

/-- The body of the scan loop. Only the adapter for Anthropic keeps variables
from one line to the next. -/
def onLine (now : Int) (vars : Anthropic.StreamVars) (line : List UInt8) : AdapterStream → LineStep
  | openAI unmarshal =>
    match line.dropPrefix? dataField with
    | none => .next vars
    | some data =>
      if data = OpenAI.done then .stop
      else
        match unmarshal data with
        | .error err => .fail (decoding "chunk" err)
        | .ok chunk => .emit chunk vars
  | anthropic decoder =>
    match line.dropPrefix? eventField with
    | some val => .next { vars with eventType := val }
    | none =>
      match line.dropPrefix? dataField with
      | none => .next vars
      | some data =>
        match Anthropic.onData decoder now vars data with
        | .fail err => .fail err
        | .stop => .stop
        | .next vars none => .next vars
        | .next vars (some chunk) => .emit chunk vars
  | google unmarshal streamID reqModel =>
    match line.dropPrefix? dataField with
    | none => .next vars
    | some data =>
      match unmarshal data with
      | .error err => .fail (decoding "chunk" err)
      | .ok resp => .emit (Google.translateChunk resp streamID reqModel now) vars

/-- The error sent after the loop when the scanner has no more lines. -/
def onEnd (scanErr : Option String) : AdapterStream → Option CallError
  | openAI _ => some (readingStream (scanErr.getD "unexpected EOF without [DONE]"))
  | anthropic _ => some (readingStream (scanErr.getD "unexpected EOF without message_stop"))
  | google .. => scanErr.map readingStream

/-- The events the goroutine sends for the lines, when nobody cancels it. `now k` is
the time when `k` lines are left. -/
def events (now : Nat → Int) (scanErr : Option String) (A : AdapterStream) :
    Anthropic.StreamVars → List (List UInt8) → List ChunkEvent
  | _, [] => (A.onEnd scanErr).toList.map .err
  | vars, line :: rest =>
    match A.onLine (now rest.length) vars line with
    | .next vars => events now scanErr A vars rest
    | .emit chunk vars => .chunk chunk :: events now scanErr A vars rest
    | .fail err => [.err err]
    | .stop => []

variable {now : Nat → Int} {scanErr : Option String}

theorem events_openAI (unmarshal : List UInt8 → Except String ChatCompletionChunk) (vars : Anthropic.StreamVars)
    (lines : List (List UInt8)) :
    (openAI unmarshal).events now scanErr vars lines = OpenAI.streamLoop unmarshal scanErr lines := by
  induction lines with
  | nil => cases scanErr <;> rfl
  | cons line rest ih =>
    simp only [events, onLine, OpenAI.streamLoop]
    cases line.dropPrefix? dataField with
    | none => exact ih
    | some data =>
      by_cases last : data = OpenAI.done
      · simp only [if_pos last]
      · simp only [if_neg last]
        cases unmarshal data with
        | error err => rfl
        | ok chunk => simp only [ih]

theorem events_google (unmarshal : List UInt8 → Except String Google.GeminiResponse) (streamID reqModel : String)
    (vars : Anthropic.StreamVars) (lines : List (List UInt8)) :
    (google unmarshal streamID reqModel).events now scanErr vars lines =
      Google.streamLoop unmarshal ⟨streamID, reqModel, now⟩ scanErr lines := by
  induction lines with
  | nil => cases scanErr <;> rfl
  | cons line rest ih =>
    simp only [events, onLine, Google.streamLoop]
    cases line.dropPrefix? dataField with
    | none => exact ih
    | some data =>
      cases decoded : unmarshal data with
      | error err => simp only [decoded]
      | ok resp => simp only [decoded, ih]

theorem events_anthropic (decoder : Anthropic.EventDecoder) (vars : Anthropic.StreamVars)
    (lines : List (List UInt8)) :
    (anthropic decoder).events now scanErr vars lines = Anthropic.streamLoop decoder now scanErr vars lines := by
  induction lines generalizing vars with
  | nil => cases scanErr <;> rfl
  | cons line rest ih =>
    simp only [events, onLine, Anthropic.streamLoop]
    cases line.dropPrefix? eventField with
    | some val => exact ih _
    | none =>
      cases line.dropPrefix? dataField with
      | none => exact ih vars
      | some data =>
        cases switched : Anthropic.onData decoder (now rest.length) vars data with
        | fail err => simp only [switched]
        | stop => simp only [switched]
        | next vars' chunk => cases chunk <;> simp only [switched, ih]

/-- `ChatCompletionStream` of the adapter on a response body that ends with `fault`. -/
def chatCompletionStream (A : AdapterStream) (now : Nat → Int) (body : List UInt8) (fault : Option String) :
    List ChunkEvent :=
  match A with
  | openAI unmarshal => OpenAI.chatCompletionStream unmarshal body fault
  | anthropic decoder => Anthropic.chatCompletionStream decoder now body fault
  | google unmarshal streamID reqModel =>
    Google.chatCompletionStream unmarshal ⟨streamID, reqModel, now⟩ body fault

/-- The loops of the three adapters are one loop with three bodies. -/
theorem chatCompletionStream_eq (A : AdapterStream) (now : Nat → Int) (body : List UInt8) (fault : Option String) :
    A.chatCompletionStream now body fault = A.events now (scanBody body fault).err {} (scanBody body fault).lines := by
  cases A with
  | openAI unmarshal => exact (events_openAI unmarshal _ _).symm
  | anthropic decoder => exact (events_anthropic decoder _ _).symm
  | google unmarshal streamID reqModel => exact (events_google unmarshal streamID reqModel _ _).symm

end AdapterStream

end LlmGateway
