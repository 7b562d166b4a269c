import LlmGateway.Provider.Stream

namespace LlmGateway.Google

structure GeminiCandidate where
  parts : List String
  finishReason : String
deriving DecidableEq, Repr

structure GeminiUsageMetadata where
  promptTokenCount : Int
  candidatesTokenCount : Int
  totalTokenCount : Int
deriving DecidableEq, Repr

/-- `geminiResponse`. The content of a candidate is the texts of its parts; the
role is never read. -/
structure GeminiResponse where
  candidates : List GeminiCandidate := []
  usageMetadata : Option GeminiUsageMetadata := none
deriving DecidableEq, Repr

def mapFinishReason (reason : String) : String :=
  if reason = "STOP" then "stop"
  else if reason = "MAX_TOKENS" then "length"
  else if reason = "SAFETY" then "content_filter"
  else if reason = "RECITATION" then "content_filter"
  else "stop"

def translateChunk (resp : GeminiResponse) (streamID reqModel : String) (now : Int) : ChatCompletionChunk where
  id := streamID
  object := "chat.completion.chunk"
  created := now
  model := reqModel
  choices := resp.candidates.mapIdx fun i candidate =>
    { index := i
      delta := { content := String.join candidate.parts }
      finishReason := if candidate.finishReason ≠ "" then some (mapFinishReason candidate.finishReason) else none }
  usage := resp.usageMetadata.map fun u => ⟨u.promptTokenCount, u.candidatesTokenCount, u.totalTokenCount⟩

/-- The request a stream answers. `now k` is the time when `k` lines of the
response are left. -/
structure StreamCall where
  streamID : String
  reqModel : String
  now : Nat → Int

/-- The loop of the stream goroutine and what follows it: the end of the input is
the normal end of a stream. -/
def streamLoop (unmarshal : List UInt8 → Except String GeminiResponse) (call : StreamCall)
    (scanErr : Option String) : List (List UInt8) → List ChunkEvent
  | [] =>
    match scanErr with
    | some err => [.err (readingStream err)]
    | none => []
  | line :: rest =>
    match line.dropPrefix? dataField with
    | none => streamLoop unmarshal call scanErr rest
    | some data =>
      match unmarshal data with
      | .error err => [.err (decoding "chunk" err)]
      | .ok chunk =>
        .chunk (translateChunk chunk call.streamID call.reqModel (call.now rest.length)) ::
          streamLoop unmarshal call scanErr rest

def chatCompletionStream (unmarshal : List UInt8 → Except String GeminiResponse) (call : StreamCall)
    (body : List UInt8) (fault : Option String) : List ChunkEvent :=
  streamLoop unmarshal call (scanBody body fault).err (scanBody body fault).lines

variable {unmarshal : List UInt8 → Except String GeminiResponse} {call : StreamCall} {scanErr : Option String}

/-- The stream ends without an error iff all data lines are decoded and the
scanner found no error. -/
theorem failed_streamLoop (lines : List (List UInt8)) :
    Failed (streamLoop unmarshal call scanErr lines) ↔
      scanErr.isSome ∨ ∃ data ∈ dataFrames lines, ¬ (unmarshal data).isOk := by
  induction lines with
  | nil => cases scanErr <;> simp [streamLoop, dataFrames]
  | cons line rest ih =>
    cases field : line.dropPrefix? dataField with
    | none =>
      rw [dataFrames_skip field, ← ih]
      simp only [streamLoop, field]
    | some data =>
      rw [dataFrames_data field]
      simp only [streamLoop, field]
      cases decoded : unmarshal data with
      | error err => simp [decoded]
      | ok chunk => simp [ih, decoded]

end LlmGateway.Google
