import Mathlib.Data.List.Basic

namespace LlmGateway

structure Usage where
  promptTokens : Int
  completionTokens : Int
  totalTokens : Int
deriving DecidableEq, Repr

structure Message where
  role : String
  content : String
deriving DecidableEq, Repr

structure Choice where
  index : Nat
  message : Message
  finishReason : String
deriving DecidableEq, Repr

structure ChatCompletionResponse where
  id : String
  object : String
  created : Int
  model : String
  choices : List Choice
  usage : Usage
deriving DecidableEq, Repr

structure DeltaMessage where
  role : String := ""
  content : String := ""
deriving DecidableEq, Repr

structure ChunkChoice where
  index : Nat
  delta : DeltaMessage := {}
  finishReason : Option String := none
deriving DecidableEq, Repr

/-- `model.ChatCompletionChunk`. The defaults are Go's zero values. -/
structure ChatCompletionChunk where
  id : String := ""
  object : String := ""
  created : Int := 0
  model : String := ""
  choices : List ChunkChoice := []
  usage : Option Usage := none
deriving DecidableEq, Repr

end LlmGateway
