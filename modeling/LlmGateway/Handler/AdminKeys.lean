import LlmGateway.Auth.Cached
import LlmGateway.Handler.Errors

namespace LlmGateway

/-- `CreateKeyRequest`. A limit that is not there was omitted by the caller. -/
structure CreateKeyRequest where
  orgID : String
  name : String
  rateLimitRPM : Option Int := none
  rateLimitTPM : Option Int := none
  expiresAt : Option Int := none
deriving DecidableEq, Repr

/-- `store.NewKey`. -/
structure NewKey where
  orgID : String
  name : String
  rateLimitRPM : Int
  rateLimitTPM : Int
  expiresAt : Option Int
deriving DecidableEq, Repr

/-- `CreateKeyResponse` without the creation time. -/
structure CreateKeyResponse where
  id : String
  key : String
  keyPrefix : String
  name : String
  rateLimitRPM : Int
  rateLimitTPM : Int
  expiresAt : Option Int
deriving DecidableEq, Repr

def defaultRateLimitRPM : Int := 60

def defaultRateLimitTPM : Int := 100000

def CreateKeyRequest.newKey (req : CreateKeyRequest) : NewKey where
  orgID := req.orgID
  name := req.name
  rateLimitRPM := req.rateLimitRPM.getD defaultRateLimitRPM
  rateLimitTPM := req.rateLimitTPM.getD defaultRateLimitTPM
  expiresAt := req.expiresAt

def keyAlphabet : List Char := "abcdefghijklmnopqrstuvwxyzABCDEFGHIJKLMNOPQRSTUVWXYZ0123456789".toList

def keyBodyLen : Nat := 32

def keyPrefixLen : Nat := 14

def keyAcceptCeiling : Nat := 256 / keyAlphabet.length * keyAlphabet.length

/-- The loop of `generatePlaintextKey` over the bytes that `rand.Read` delivers,
until as many as the first argument says have been accepted. -/
def keyBody : Nat → List (Fin 256) → Option (List Char)
  | 0, _ => some []
  | _ + 1, [] => none
  | n + 1, b :: random =>
    if b.val < keyAcceptCeiling then
      (keyBody n random).map (keyAlphabet.getD (b.val % keyAlphabet.length) 'a' :: ·)
    else keyBody (n + 1) random

/-- `generatePlaintextKey`. It fails when there is no more randomness. -/
def generatePlaintextKey (random : List (Fin 256)) : Option String :=
  (keyBody keyBodyLen random).map fun body => "sk-gw-" ++ String.ofList body

/-- The row that `INSERT INTO api_keys` adds. The columns it does not name take
their defaults: no scopes, active. -/
def NewKey.row (k : NewKey) (id hashHex : String) : APIKey where
  id := id
  keyHash := hashHex
  orgID := k.orgID
  name := k.name
  scopes := []
  rateLimitRPM := k.rateLimitRPM
  rateLimitTPM := k.rateLimitTPM
  isActive := true
  expiresAt := k.expiresAt

/-- `store.Create` under the id that Postgres draws: the insert fails when the
id or the hash is taken. -/
def APIKeyStore.create (s : APIKeyStore) (k : NewKey) (id hashHex : String) : Option (APIKey × APIKeyStore) :=
  if fresh : id ∉ s.rows.map APIKey.id ∧ hashHex ∉ s.rows.map APIKey.keyHash then
    some (k.row id hashHex,
      { rows := k.row id hashHex :: s.rows
        ids := List.nodup_cons.mpr ⟨fresh.1, s.ids⟩
        hashes := List.nodup_cons.mpr ⟨fresh.2, s.hashes⟩ })
  else none

theorem APIKeyStore.create_eq_some {s t : APIKeyStore} {k : NewKey} {id hashHex : String} {row : APIKey}
    (created : s.create k id hashHex = some (row, t)) :
    row = k.row id hashHex ∧ t.rows = row :: s.rows ∧ ∀ old ∈ s.rows, old.id ≠ id ∧ old.keyHash ≠ hashHex := by
  unfold create at created
  split at created
  · rename_i fresh
    cases created
    refine ⟨rfl, rfl, fun old member => ⟨?_, ?_⟩⟩
    · rintro rfl
      exact fresh.1 (List.mem_map_of_mem member)
    · rintro rfl
      exact fresh.2 (List.mem_map_of_mem member)
  · cases created

/-- What a call of `Create` depends on: the decoded body, if there is one, the
random bytes, the id Postgres draws, and whether the insert fails for a reason
outside the table. -/
structure CreateCall where
  body : Option CreateKeyRequest
  random : List (Fin 256)
  id : String
  fault : Bool

/-- `AdminKeysHandler.Create`. -/
def CreateCall.run (call : CreateCall) (sha256 : String → Vector (Fin 256) 32) (s : APIKeyStore) :
    Except APIErr CreateKeyResponse × APIKeyStore :=
  match call.body with
  | none => (.error ⟨400, "invalid_request_error", "invalid_request", "invalid request body"⟩, s)
  | some req =>
    if req.orgID = "" ∨ req.name = "" then
      (.error ⟨400, "invalid_request_error", "invalid_request", "org_id and name are required"⟩, s)
    else match generatePlaintextKey call.random with
      | none => (.error ⟨500, "internal_error", "internal_error", "failed to generate key"⟩, s)
      | some plaintext =>
        match if call.fault then none else s.create req.newKey call.id (hashKey sha256 plaintext) with
        | none => (.error ⟨500, "internal_error", "internal_error", "failed to create key"⟩, s)
        | some (row, s) =>
          (.ok ⟨row.id, plaintext, String.ofList (plaintext.toList.take keyPrefixLen), row.name, row.rateLimitRPM,
            row.rateLimitTPM, row.expiresAt⟩, s)

/-- `Create` either changes nothing and reports an error, or adds the row of
the request and returns its values. -/
theorem CreateCall.run_cases (call : CreateCall) (sha256 : String → Vector (Fin 256) 32) (s : APIKeyStore) :
    ((call.run sha256 s).2 = s ∧ ∃ e, (call.run sha256 s).1 = .error e) ∨
    (∃ req plaintext row t, call.body = some req ∧
      s.create req.newKey call.id (hashKey sha256 plaintext) = some (row, t) ∧
      (call.run sha256 s).2 = t ∧ ∃ response, (call.run sha256 s).1 = .ok response ∧ response.key = plaintext ∧
        response.id = row.id) := by
  unfold CreateCall.run
  split
  · exact Or.inl ⟨rfl, _, rfl⟩
  · rename_i req decoded
    split
    · exact Or.inl ⟨rfl, _, rfl⟩
    · split
      · exact Or.inl ⟨rfl, _, rfl⟩
      · rename_i plaintext _
        split
        · exact Or.inl ⟨rfl, _, rfl⟩
        · rename_i row t inserted
          cases faulty : call.fault with
          | true =>
            rw [faulty] at inserted
            cases inserted
          | false =>
            rw [faulty] at inserted
            exact Or.inr ⟨req, plaintext, row, t, decoded, inserted, rfl, _, rfl, rfl, rfl⟩

end LlmGateway
