import LlmGateway.Provider.Anthropic
import LlmGateway.Provider.Google
import LlmGateway.Provider.OpenAI

namespace LlmGateway

open Lines

/-- `encoding/json` on the data lines: the names of the members of a text that is
an object, and what a text is decoded to. A member that the type does not have is
ignored. -/
structure JSONText where
  members : List UInt8 → Option (List String)
  chunk : List UInt8 → Except String ChatCompletionChunk
  gemini : List UInt8 → Except String Google.GeminiResponse
  chunk_error : ∀ data, members data = some ["error"] → chunk data = .ok {}
  gemini_error : ∀ data, members data = some ["error"] → gemini data = .ok {}

/-- The text is an object with a member `error`. -/
def JSONText.ErrorMember (J : JSONText) (data : List UInt8) : Prop :=
  ∃ names, J.members data = some names ∧ "error" ∈ names

/-- An error frame comes before any `[DONE]`. -/
def OpenAI.HasErrorFrame (J : JSONText) (body : List UInt8) : Prop :=
  Reaches J.ErrorMember (· ≠ OpenAI.done) (dataFrames (allLines body))

def Google.HasErrorFrame (J : JSONText) (body : List UInt8) : Prop :=
  ∃ data ∈ dataFrames (allLines body), J.ErrorMember data

/-- An `event: error` has its data line before any `message_stop`. -/
def Anthropic.HasErrorFrame (body : List UInt8) : Prop :=
  Reaches (fun frame => frame.1 = bytes "error") (fun frame => ¬ IsStop frame) (typedFrames [] (allLines body))

/-- The consumer sees an error and the breaker of the provider a failure. -/
def Surfaced (events : List ChunkEvent) : Prop := Failed events ∧ ∃ err, streamHealth events = .failure err

theorem surfaced_iff {events : List ChunkEvent} : Surfaced events ↔ Failed events := by
  rw [Surfaced, streamHealth_failure_iff, and_self]

/-- An error frame surfaces iff the adapter does not reach the end of the stream
it takes for a normal one: none of them looks at the frame itself. -/
theorem error_frame_surfaced_iff (J : JSONText) (decoder : Anthropic.EventDecoder) (call : Google.StreamCall)
    (body : List UInt8) (fault : Option String) :
    ((OpenAI.HasErrorFrame J body → Surfaced (OpenAI.chatCompletionStream J.chunk body fault)) ↔
        (OpenAI.HasErrorFrame J body →
          ¬ Reaches (· = OpenAI.done) (fun data => (J.chunk data).isOk) (dataFrames (scanBody body fault).lines))) ∧
      ((Google.HasErrorFrame J body → Surfaced (Google.chatCompletionStream J.gemini call body fault)) ↔
        (Google.HasErrorFrame J body →
          (scanBody body fault).err.isSome ∨
            ∃ data ∈ dataFrames (scanBody body fault).lines, ¬ (J.gemini data).isOk)) ∧
      ((Anthropic.HasErrorFrame body →
          Surfaced (Anthropic.chatCompletionStream decoder call.now body fault)) ↔
        (Anthropic.HasErrorFrame body →
          ¬ Reaches Anthropic.IsStop decoder.Decodes (Anthropic.typedFrames [] (scanBody body fault).lines))) := by
  refine ⟨imp_congr_right fun _ => ?_, imp_congr_right fun _ => ?_, imp_congr_right fun _ => ?_⟩
  · exact surfaced_iff.trans (OpenAI.failed_streamLoop _)
  · exact surfaced_iff.trans (Google.failed_streamLoop _)
  · exact surfaced_iff.trans (Anthropic.failed_streamLoop _ _)

/-- The text `{"error":{}}`. -/
def errorText : List UInt8 := bytes "\x7b\"error\":\x7b\x7d\x7d"

/-- JSON as far as the error text goes. -/
def errorJSON : JSONText where
  members data := if data = errorText then some ["error"] else none
  chunk data := if data = errorText then .ok {} else .error "invalid character"
  gemini data := if data = errorText then .ok {} else .error "invalid character"
  chunk_error data member := by
    split at member
    · rename_i same
      exact if_pos same
    · cases member
  gemini_error data member := by
    split at member
    · rename_i same
      exact if_pos same
    · cases member

/-- The frame on its own for Google, before the terminator for the others. -/
def googleBody : List UInt8 := dataField ++ errorText ++ bytes "\n\n"

def openAIBody : List UInt8 := googleBody ++ dataField ++ OpenAI.done ++ bytes "\n\n"

def anthropicBody : List UInt8 :=
  bytes "event: error\n" ++ googleBody ++ bytes "event: message_stop\ndata: \x7b\x7d\n\n"

def noDecoder : Anthropic.EventDecoder :=
  ⟨fun _ => .error "invalid character", fun _ => .error "invalid character", fun _ => .error "invalid character"⟩

def anyCall : Google.StreamCall := ⟨"chatcmpl-0", "gemini-2.0-flash", fun _ => 0⟩

/-- The three bodies hold an error frame, and their streams end as if nothing had
gone wrong: OpenAI and Google hand out an empty chunk in its place. -/
theorem error_frame_swallowed :
    (OpenAI.HasErrorFrame errorJSON openAIBody ∧
        OpenAI.chatCompletionStream errorJSON.chunk openAIBody none = [.chunk {}] ∧
        ¬ Surfaced (OpenAI.chatCompletionStream errorJSON.chunk openAIBody none)) ∧
      (Google.HasErrorFrame errorJSON googleBody ∧
        Google.chatCompletionStream errorJSON.gemini anyCall googleBody none =
          [.chunk (Google.translateChunk {} "chatcmpl-0" "gemini-2.0-flash" 0)] ∧
        ¬ Surfaced (Google.chatCompletionStream errorJSON.gemini anyCall googleBody none)) ∧
      (Anthropic.HasErrorFrame anthropicBody ∧
        Anthropic.chatCompletionStream noDecoder anyCall.now anthropicBody none = [] ∧
        ¬ Surfaced (Anthropic.chatCompletionStream noDecoder anyCall.now anthropicBody none)) := by
  have member : errorJSON.ErrorMember errorText := ⟨["error"], by decide, by decide⟩
  have openAI : OpenAI.chatCompletionStream errorJSON.chunk openAIBody none = [.chunk {}] := by decide
  have google : Google.chatCompletionStream errorJSON.gemini anyCall googleBody none =
      [.chunk (Google.translateChunk {} "chatcmpl-0" "gemini-2.0-flash" 0)] := by decide
  have anthropic : Anthropic.chatCompletionStream noDecoder anyCall.now anthropicBody none = [] := by decide
  refine ⟨⟨?_, openAI, ?_⟩, ⟨?_, google, ?_⟩, ⟨?_, anthropic, ?_⟩⟩
  · exact ⟨[], errorText, [OpenAI.done], by decide, member, nofun⟩
  · rw [openAI, surfaced_iff, failed_chunk]
    exact failed_nil
  · exact ⟨errorText, by decide, member⟩
  · rw [google, surfaced_iff, failed_chunk]
    exact failed_nil
  · exact ⟨[], (bytes "error", errorText), [(bytes "message_stop", bytes "\x7b\x7d")], by decide, rfl, nofun⟩
  · rw [anthropic, surfaced_iff]
    exact failed_nil

end LlmGateway
