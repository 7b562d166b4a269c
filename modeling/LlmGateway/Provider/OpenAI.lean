import LlmGateway.Provider.Stream

namespace LlmGateway.OpenAI

open Lines

def done : List UInt8 := bytes "[DONE]"

/-- The loop of the stream goroutine over the lines of the response, and what
follows it. `scanErr` is the error of the scanner. -/
def streamLoop (unmarshal : List UInt8 → Except String ChatCompletionChunk) (scanErr : Option String) :
    List (List UInt8) → List ChunkEvent
  | [] =>
    match scanErr with
    | some err => [.err (readingStream err)]
    | none => [.err (readingStream "unexpected EOF without [DONE]")]
  | line :: rest =>
    match line.dropPrefix? dataField with
    | none => streamLoop unmarshal scanErr rest
    | some data =>
      if data = done then []
      else
        match unmarshal data with
        | .error err => [.err (decoding "chunk" err)]
        | .ok chunk => .chunk chunk :: streamLoop unmarshal scanErr rest

/-- The events `ChatCompletionStream` sends for a response body that ends with
`fault`, if the context is never done. -/
def chatCompletionStream (unmarshal : List UInt8 → Except String ChatCompletionChunk) (body : List UInt8)
    (fault : Option String) : List ChunkEvent :=
  streamLoop unmarshal (scanBody body fault).err (scanBody body fault).lines

variable {unmarshal : List UInt8 → Except String ChatCompletionChunk} {scanErr : Option String}
  {rest : List (List UInt8)}

theorem streamLoop_skip {line : List UInt8} (other : line.dropPrefix? dataField = none) :
    streamLoop unmarshal scanErr (line :: rest) = streamLoop unmarshal scanErr rest := by
  simp only [streamLoop, other]

theorem streamLoop_done : streamLoop unmarshal scanErr ((dataField ++ done) :: rest) = [] := by
  simp only [streamLoop, dropPrefix_eq_some.mpr rfl, if_true]

theorem streamLoop_chunk {data : List UInt8} {chunk : ChatCompletionChunk} (running : data ≠ done)
    (decoded : unmarshal data = .ok chunk) :
    streamLoop unmarshal scanErr ((dataField ++ data) :: rest) =
      .chunk chunk :: streamLoop unmarshal scanErr rest := by
  simp only [streamLoop, dropPrefix_eq_some.mpr rfl, if_neg running, decoded]

/-- The stream ends without an error iff a `[DONE]` is reached through data lines
that are all decoded. -/
theorem failed_streamLoop (lines : List (List UInt8)) :
    Failed (streamLoop unmarshal scanErr lines) ↔
      ¬ Reaches (· = done) (fun data => (unmarshal data).isOk) (dataFrames lines) := by
  induction lines with
  | nil => cases scanErr <;> simp [streamLoop, dataFrames]
  | cons line rest ih =>
    cases field : line.dropPrefix? dataField with
    | none => rw [streamLoop_skip field, ih, dataFrames_skip field]
    | some data =>
      rw [dataFrames_data field, reaches_cons]
      simp only [streamLoop, field]
      split
      · simp [*]
      · cases unmarshal data with
        | error err => simp [*]
        | ok chunk => simp [*]

end LlmGateway.OpenAI
