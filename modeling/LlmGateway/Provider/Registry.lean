import Mathlib.Data.List.Sort
import Mathlib.Data.String.Basic
import LlmGateway.Config.Config

namespace LlmGateway

structure RetryConfig where
  maxRetries : Int
  retryBackoff : Int
deriving DecidableEq, Repr

/-- What `HealthTrackingProvider` adds to a provider: the address of its
`ProviderHealth` and its retry settings. -/
structure HealthTracking where
  health : Nat
  retry : RetryConfig
deriving DecidableEq, Repr

/-- A registered provider. A bare one has no tracking. -/
structure Provider where
  name : String
  models : List String
  tracking : Option HealthTracking
deriving DecidableEq, Repr

def healthFor (p : Provider) : Option Nat := p.tracking.map HealthTracking.health

structure Registry where
  models : StringMap Provider
  aliases : StringMap String

namespace Registry

def empty : Registry := ⟨∅, ∅⟩

/-- A name that is already registered is overwritten. -/
def register (r : Registry) (p : Provider) (models : List String) : Registry :=
  { r with models := models.foldl (fun reg m => reg.insert m p) r.models }

def registerAlias (r : Registry) (aliasName target : String) : Except String Registry :=
  if aliasName ∈ r.models then .error ("alias " ++ aliasName.quote ++ " conflicts with already-registered model")
  else match r.models.lookup target with
    | none => .error ("alias " ++ aliasName.quote ++ " targets unregistered model " ++ target.quote)
    | some p => .ok { models := r.models.insert aliasName p, aliases := r.aliases.insert aliasName target }

def canonicalModel (r : Registry) (name : String) : String := (r.aliases.lookup name).getD name

def listModels (r : Registry) : List String := r.models.keys.insertionSort (· ≤ ·)

def resolve (r : Registry) (modelName : String) : Except String Provider :=
  match r.models.lookup modelName with
  | some p => .ok p
  | none => .error ("unknown model " ++ modelName.quote ++ ": available models: [" ++
      ", ".intercalate r.listModels ++ "]")

end Registry

end LlmGateway
