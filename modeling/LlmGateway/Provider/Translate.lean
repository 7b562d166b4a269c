import LlmGateway.Provider.Upstream
import LlmGateway.Router.Strategy

namespace LlmGateway

/-- `model.Message` of a request. -/
structure RequestMessage where
  role : String
  content : String
  name : String := ""
deriving DecidableEq, Repr

/-- `model.ChatCompletionRequest` in full; the floats are rationals. -/
structure ChatRequest where
  model : String
  messages : List RequestMessage
  temperature : Option ℚ := none
  topP : Option ℚ := none
  n : Option Int := none
  stream : Bool := false
  stop : List String := []
  maxTokens : Option Int := none
  presencePenalty : Option ℚ := none
  frequencyPenalty : Option ℚ := none
  user : String := ""
deriving DecidableEq

/-- What routing reads of a request. -/
def ChatRequest.routed (req : ChatRequest) : ChatCompletionRequest :=
  ⟨req.model, req.messages.map (·.content), req.maxTokens⟩

/-- `openaiRequest`: the request of the client with a `stream` field around it. -/
structure OpenAIRequest where
  embedded : ChatRequest
  stream : Bool
deriving DecidableEq

/-- What the encoder writes: of two fields with one name it takes the outer one. -/
def OpenAIRequest.fields (body : OpenAIRequest) : ChatRequest := { body.embedded with stream := body.stream }

namespace Anthropic

structure AnthropicMessage where
  role : String
  content : String
deriving DecidableEq, Repr

structure AnthropicRequest where
  model : String
  messages : List AnthropicMessage
  system : String
  maxTokens : Int
  temperature : Option ℚ
  topP : Option ℚ
  stopSequences : List String
  stream : Bool
deriving DecidableEq

def defaultMaxTokens : Int := 4096

/-- The loop of `translateRequest` over the messages. -/
def sortMessages (messages : List RequestMessage) : List AnthropicMessage × List String :=
  messages.foldl (fun (kept, systemParts) msg =>
    if msg.role = "system" then (kept, systemParts ++ [msg.content])
    else (kept ++ [⟨msg.role, msg.content⟩], systemParts)) ([], [])

/-- `translateRequest`, with the `Stream` field that the two calls set. -/
def translateRequest (req : ChatRequest) (stream : Bool) : AnthropicRequest :=
  let (messages, systemParts) := sortMessages req.messages
  { model := req.model
    messages := messages
    system := if 0 < systemParts.length then "\n\n".intercalate systemParts else ""
    maxTokens := match req.maxTokens with
      | some n => n
      | none => defaultMaxTokens
    temperature := req.temperature
    topP := req.topP
    stopSequences := if 0 < req.stop.length then req.stop else []
    stream := stream }

end Anthropic

namespace Google

structure GeminiContent where
  role : String
  parts : List String
deriving DecidableEq, Repr

structure GeminiGenerationConfig where
  temperature : Option ℚ
  topP : Option ℚ
  maxOutputTokens : Option Int
  stopSequences : List String
  candidateCount : Option Int
deriving DecidableEq

/-- `geminiRequest`. A part is its text; the system instruction is its parts. -/
structure GeminiRequest where
  contents : List GeminiContent
  systemInstruction : Option (List String)
  generationConfig : Option GeminiGenerationConfig
deriving DecidableEq

def geminiRole (role : String) : String := if role = "assistant" then "model" else role

/-- The loop of `translateRequest` over the messages. -/
def sortMessages (messages : List RequestMessage) : List GeminiContent × List String :=
  messages.foldl (fun (contents, systemParts) msg =>
    if msg.role = "system" then (contents, systemParts ++ [msg.content])
    else (contents ++ [⟨geminiRole msg.role, [msg.content]⟩], systemParts)) ([], [])

def translateRequest (req : ChatRequest) : GeminiRequest :=
  let (contents, systemParts) := sortMessages req.messages
  { contents := contents
    systemInstruction := if 0 < systemParts.length then some systemParts else none
    generationConfig :=
      if req.temperature.isSome ∨ req.topP.isSome ∨ req.maxTokens.isSome ∨ 0 < req.stop.length ∨ req.n.isSome then
        some ⟨req.temperature, req.topP, req.maxTokens, req.stop, req.n⟩
      else none }

end Google

def RequestMessage.isSystem (msg : RequestMessage) : Bool := msg.role = "system"

/-- The texts of the system messages. -/
def ChatRequest.systemParts (req : ChatRequest) : List String := (req.messages.filter (·.isSystem)).map (·.content)

/-- The other messages. -/
def ChatRequest.spoken (req : ChatRequest) : List RequestMessage := req.messages.filter (!·.isSystem)

/-- A loop that sorts messages into two lists. -/
theorem foldl_sort {α : Type} (f : RequestMessage → α) (messages : List RequestMessage) (kept : List α)
    (parts : List String) :
    messages.foldl (fun (kept, parts) msg =>
      if msg.role = "system" then (kept, parts ++ [msg.content]) else (kept ++ [f msg], parts)) (kept, parts) =
    (kept ++ (messages.filter (!·.isSystem)).map f, parts ++ (messages.filter (·.isSystem)).map (·.content)) := by
  induction messages generalizing kept parts with
  | nil => simp
  | cons msg rest ih =>
    by_cases system : msg.role = "system"
    · simp [system, ih, RequestMessage.isSystem]
    · simp [system, ih, RequestMessage.isSystem]

theorem Anthropic.sortMessages_eq (req : ChatRequest) :
    sortMessages req.messages = (req.spoken.map fun msg => ⟨msg.role, msg.content⟩, req.systemParts) :=
  foldl_sort (fun msg => (⟨msg.role, msg.content⟩ : AnthropicMessage)) req.messages [] []

theorem Google.sortMessages_eq (req : ChatRequest) :
    sortMessages req.messages = (req.spoken.map fun msg => ⟨geminiRole msg.role, [msg.content]⟩, req.systemParts) :=
  foldl_sort (fun msg => (⟨geminiRole msg.role, [msg.content]⟩ : GeminiContent)) req.messages [] []

inductive Speaker where
  | user
  | assistant
  | other (role : String)
deriving DecidableEq, Repr

structure Turn where
  speaker : Speaker
  name : String
  text : String
deriving DecidableEq, Repr

/-- What a request asks for: instructions and the names they are given under, the turns
of the conversation, the parameters of the answer and the user behind it. -/
structure Prompt where
  model : String
  instructions : String
  instructors : List String
  turns : List Turn
  temperature : Option ℚ
  topP : Option ℚ
  stop : List String
  maxTokens : Option Int
  answers : Option Int
  presencePenalty : Option ℚ
  frequencyPenalty : Option ℚ
  user : String
  stream : Bool
deriving DecidableEq

/-- What every upstream can be told: no names, no penalties and no user. -/
def Prompt.common (prompt : Prompt) : Prompt :=
  { prompt with
    instructors := []
    turns := prompt.turns.map fun turn => { turn with name := "" }
    presencePenalty := none
    frequencyPenalty := none
    user := "" }

/-- Paragraphs of instructions. -/
def paragraphs (parts : List String) : String := "\n\n".intercalate parts

def Speaker.ofRole (assistantRole role : String) : Speaker :=
  if role = "user" then .user else if role = assistantRole then .assistant else .other role

/-- The request as its client means it. -/
def ChatRequest.prompt (req : ChatRequest) : Prompt where
  model := req.model
  instructions := paragraphs req.systemParts
  instructors := ((req.messages.filter (·.isSystem)).map (·.name)).filter (· ≠ "")
  turns := req.spoken.map fun msg => ⟨.ofRole "assistant" msg.role, msg.name, msg.content⟩
  temperature := req.temperature
  topP := req.topP
  stop := req.stop
  maxTokens := req.maxTokens
  answers := req.n
  presencePenalty := req.presencePenalty
  frequencyPenalty := req.frequencyPenalty
  user := req.user
  stream := req.stream

def Google.GeminiGenerationConfig.unset : GeminiGenerationConfig := ⟨none, none, none, [], none⟩

/-- A request as an adapter sends it. Gemini reads the model and the kind of answer
from the URL. -/
inductive UpstreamRequest where
  | openai (body : ChatRequest)
  | anthropic (body : Anthropic.AnthropicRequest)
  | google (model : String) (stream : Bool) (body : Google.GeminiRequest)
deriving DecidableEq

/-- `ChatCompletion` or `ChatCompletionStream` of the adapter up to the request it sends. -/
def Adapter.translate (adapter : Adapter) (stream : Bool) (req : ChatRequest) : UpstreamRequest :=
  match adapter with
  | .openai => .openai (OpenAIRequest.mk req stream).fields
  | .anthropic => .anthropic (Anthropic.translateRequest req stream)
  | .google => .google req.model stream (Google.translateRequest req)

/-- The request as its upstream reads it. -/
def UpstreamRequest.prompt : UpstreamRequest → Prompt
  | .openai body => body.prompt
  | .anthropic body =>
    { model := body.model
      instructions := body.system
      instructors := []
      turns := body.messages.map fun msg => ⟨.ofRole "assistant" msg.role, "", msg.content⟩
      temperature := body.temperature
      topP := body.topP
      stop := body.stopSequences
      maxTokens := some body.maxTokens
      answers := none
      presencePenalty := none
      frequencyPenalty := none
      user := ""
      stream := body.stream }
  | .google model stream body =>
    let config := body.generationConfig.getD .unset
    { model := model
      instructions := paragraphs (body.systemInstruction.getD [])
      instructors := []
      turns := body.contents.map fun content => ⟨.ofRole "model" content.role, "", String.join content.parts⟩
      temperature := config.temperature
      topP := config.topP
      stop := config.stopSequences
      maxTokens := config.maxOutputTokens
      answers := config.candidateCount
      presencePenalty := none
      frequencyPenalty := none
      user := ""
      stream := stream }

/-- The length of an answer is left to the upstream, but for one that wants to be told. -/
def Adapter.maxTokens (adapter : Adapter) (req : ChatRequest) : Option Int :=
  match adapter with
  | .anthropic => some (req.maxTokens.getD Anthropic.defaultMaxTokens)
  | _ => req.maxTokens

/-- Anthropic gives one answer. -/
def Adapter.answers (adapter : Adapter) (req : ChatRequest) : Option Int :=
  match adapter with
  | .anthropic => none
  | _ => req.n

/-- Only OpenAI is told the names, the penalties and the user. -/
def Adapter.tells (adapter : Adapter) (prompt : Prompt) : Prompt :=
  match adapter with
  | .openai => prompt
  | .anthropic | .google => prompt.common

theorem ofRole_geminiRole {role : String} (free : role ≠ "model") :
    Speaker.ofRole "model" (Google.geminiRole role) = Speaker.ofRole "assistant" role := by
  unfold Speaker.ofRole Google.geminiRole
  by_cases assistant : role = "assistant"
  · simp [assistant]
  · by_cases user : role = "user" <;> simp [assistant, user, free]

theorem Anthropic.translateRequest_eq (req : ChatRequest) (stream : Bool) :
    translateRequest req stream =
      { model := req.model
        messages := req.spoken.map fun msg => ⟨msg.role, msg.content⟩
        system := paragraphs req.systemParts
        maxTokens := req.maxTokens.getD defaultMaxTokens
        temperature := req.temperature
        topP := req.topP
        stopSequences := req.stop
        stream := stream } := by
  rw [translateRequest, sortMessages_eq]
  cases req.systemParts <;> cases req.stop <;> cases req.maxTokens <;> simp [paragraphs]

section Google

open Google

variable (req : ChatRequest)

/-- The configuration is left out iff it says nothing. -/
theorem Google.generationConfig_eq : (translateRequest req).generationConfig.getD .unset =
    ⟨req.temperature, req.topP, req.maxTokens, req.stop, req.n⟩ := by
  simp only [translateRequest]
  split
  · rfl
  · rename_i unset
    push Not at unset
    obtain ⟨temperature, topP, maxTokens, stop, n⟩ := unset
    simp_all [GeminiGenerationConfig.unset]

theorem Google.generationConfig_ne : (translateRequest req).generationConfig ≠ some .unset := by
  simp only [translateRequest]
  split
  · rename_i set
    intro unset
    obtain ⟨temperature, topP, maxTokens, stop, n⟩ := GeminiGenerationConfig.mk.inj (Option.some.inj unset)
    simp [temperature, topP, maxTokens, stop, n] at set
  · nofun

theorem Google.systemInstruction_eq : (translateRequest req).systemInstruction.getD [] = req.systemParts := by
  simp only [translateRequest, sortMessages_eq]
  cases req.systemParts <;> simp

theorem Google.systemInstruction_ne : (translateRequest req).systemInstruction ≠ some [] := by
  simp only [translateRequest, sortMessages_eq]
  cases req.systemParts <;> simp

theorem Google.contents_eq :
    (translateRequest req).contents = req.spoken.map fun msg => ⟨geminiRole msg.role, [msg.content]⟩ := by
  rw [translateRequest, sortMessages_eq]

end Google

/-- Whichever adapter a request is given to, its upstream is asked for what the
client asked for: the same instructions, the same turns, the same temperature and the
same stops, but for the length that Anthropic wants to be told and its one answer. The
names, the penalties and the user come to OpenAI alone. Gemini has its own name for the
assistant, which must not be the name of another speaker. -/
theorem Adapter.translate_prompt (adapter : Adapter) (stream : Bool) {req : ChatRequest}
    (free : adapter = .google → ∀ msg ∈ req.spoken, msg.role ≠ "model") :
    (adapter.translate stream req).prompt =
      adapter.tells
        { req.prompt with
          stream := stream
          maxTokens := adapter.maxTokens req
          answers := adapter.answers req } := by
  cases adapter with
  | openai => rfl
  | anthropic =>
    rw [translate, Anthropic.translateRequest_eq]
    simp [UpstreamRequest.prompt, ChatRequest.prompt, tells, Prompt.common, maxTokens, answers]
  | google =>
    have speakers : ∀ msg ∈ req.spoken,
        Speaker.ofRole "model" (Google.geminiRole msg.role) = Speaker.ofRole "assistant" msg.role :=
      fun msg member => ofRole_geminiRole (free rfl msg member)
    simpa [translate, UpstreamRequest.prompt, ChatRequest.prompt, tells, Prompt.common, maxTokens, answers,
      Google.generationConfig_eq, Google.systemInstruction_eq, Google.contents_eq] using speakers

def dialogue : ChatRequest where
  model := "gemini-1.5-pro"
  messages :=
    [⟨"system", "Be brief.", ""⟩, ⟨"user", "Hi", "guest"⟩, ⟨"assistant", "Hello", ""⟩, ⟨"user", "Bye", "guest"⟩]
  temperature := some (1 / 2)
  presencePenalty := some 1
  user := "u-1"

theorem Adapter.translate_prompt_dialogue :
    (∀ msg ∈ dialogue.spoken, msg.role ≠ "model") ∧
      (Adapter.google.translate true dialogue).prompt =
        ⟨"gemini-1.5-pro", "Be brief.", [], [⟨.user, "", "Hi"⟩, ⟨.assistant, "", "Hello"⟩, ⟨.user, "", "Bye"⟩],
          some (1 / 2), none, [], none, none, none, none, "", true⟩ := by
  have free : ∀ msg ∈ dialogue.spoken, msg.role ≠ "model" := by decide
  exact ⟨free, (Adapter.translate_prompt .google true fun _ => free).trans rfl⟩

/-- The requests differ in nothing that the adapter passes on. -/
def Adapter.Same (adapter : Adapter) (req req' : ChatRequest) : Prop :=
  match adapter with
  | .openai => { req with stream := false } = { req' with stream := false }
  | .anthropic =>
    req.model = req'.model ∧ paragraphs req.systemParts = paragraphs req'.systemParts ∧
      req.spoken.map (fun msg => (msg.role, msg.content)) = req'.spoken.map (fun msg => (msg.role, msg.content)) ∧
      req.maxTokens.getD 4096 = req'.maxTokens.getD 4096 ∧ req.temperature = req'.temperature ∧
      req.topP = req'.topP ∧ req.stop = req'.stop
  | .google =>
    req.model = req'.model ∧ req.systemParts = req'.systemParts ∧
      req.spoken.map (fun msg => (Google.geminiRole msg.role, msg.content)) =
        req'.spoken.map (fun msg => (Google.geminiRole msg.role, msg.content)) ∧
      req.maxTokens = req'.maxTokens ∧ req.temperature = req'.temperature ∧ req.topP = req'.topP ∧
      req.stop = req'.stop ∧ req.n = req'.n

/-- Two options that are never the default differ iff their values do. -/
theorem getD_eq_iff {α : Type} {a b : Option α} {d : α} (left : a ≠ some d) (right : b ≠ some d) :
    a = b ↔ a.getD d = b.getD d := by
  cases a <;> cases b <;> simp_all [eq_comm]

theorem Google.translateRequest_eq_iff (req req' : ChatRequest) : translateRequest req = translateRequest req' ↔
    req.systemParts = req'.systemParts ∧
      req.spoken.map (fun msg => (geminiRole msg.role, msg.content)) =
        req'.spoken.map (fun msg => (geminiRole msg.role, msg.content)) ∧
      req.maxTokens = req'.maxTokens ∧ req.temperature = req'.temperature ∧ req.topP = req'.topP ∧
      req.stop = req'.stop ∧ req.n = req'.n := by
  have parts : translateRequest req = translateRequest req' ↔
      (translateRequest req).contents = (translateRequest req').contents ∧
      (translateRequest req).systemInstruction = (translateRequest req').systemInstruction ∧
      (translateRequest req).generationConfig = (translateRequest req').generationConfig :=
    ⟨fun same => by rw [same]; exact ⟨rfl, rfl, rfl⟩, fun ⟨a, b, c⟩ => GeminiRequest.mk.injEq .. ▸ ⟨a, b, c⟩⟩
  have contents (req : ChatRequest) : (translateRequest req).contents =
      (req.spoken.map fun msg => (geminiRole msg.role, msg.content)).map fun turn => ⟨turn.1, [turn.2]⟩ := by
    rw [contents_eq, List.map_map]
    rfl
  have injective : Function.Injective fun turn : String × String => (⟨turn.1, [turn.2]⟩ : GeminiContent) := by
    rintro ⟨role, text⟩ ⟨role', text'⟩ same
    simpa using same
  rw [parts, getD_eq_iff (systemInstruction_ne req) (systemInstruction_ne req'), systemInstruction_eq,
    systemInstruction_eq, getD_eq_iff (generationConfig_ne req) (generationConfig_ne req'), generationConfig_eq,
    generationConfig_eq, GeminiGenerationConfig.mk.injEq, contents, contents,
    (List.map_injective_iff.mpr injective).eq_iff]
  tauto

theorem Anthropic.translateRequest_eq_iff (req req' : ChatRequest) (stream : Bool) :
    translateRequest req stream = translateRequest req' stream ↔
      req.model = req'.model ∧ paragraphs req.systemParts = paragraphs req'.systemParts ∧
        req.spoken.map (fun msg => (msg.role, msg.content)) = req'.spoken.map (fun msg => (msg.role, msg.content)) ∧
        req.maxTokens.getD 4096 = req'.maxTokens.getD 4096 ∧ req.temperature = req'.temperature ∧
        req.topP = req'.topP ∧ req.stop = req'.stop := by
  have messages (req : ChatRequest) : req.spoken.map (fun msg => (⟨msg.role, msg.content⟩ : AnthropicMessage)) =
      (req.spoken.map fun msg => (msg.role, msg.content)).map fun turn => ⟨turn.1, turn.2⟩ := by
    rw [List.map_map]
    rfl
  have injective : Function.Injective fun turn : String × String => (⟨turn.1, turn.2⟩ : AnthropicMessage) := by
    rintro ⟨role, text⟩ ⟨role', text'⟩ same
    simpa using same
  rw [translateRequest_eq, translateRequest_eq, AnthropicRequest.mk.injEq, messages, messages,
    (List.map_injective_iff.mpr injective).eq_iff, defaultMaxTokens]
  tauto

/-- What the adapters pass on, exactly: two requests reach the upstream as one and the
same iff they differ in nothing but what the adapter drops. -/
theorem Adapter.translate_eq_iff (adapter : Adapter) (stream : Bool) (req req' : ChatRequest) :
    adapter.translate stream req = adapter.translate stream req' ↔ adapter.Same req req' := by
  cases adapter with
  | openai => simp [translate, Same, OpenAIRequest.fields]
  | anthropic =>
    rw [translate, translate, UpstreamRequest.anthropic.injEq, Anthropic.translateRequest_eq_iff]
    rfl
  | google =>
    rw [translate, translate, UpstreamRequest.google.injEq, Google.translateRequest_eq_iff]
    simp [Same]

end LlmGateway
