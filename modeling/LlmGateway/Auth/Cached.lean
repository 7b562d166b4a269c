import LlmGateway.Auth.KeyInfo
import LlmGateway.Store.APIKeys

namespace LlmGateway

/-- `HashKey`, over the SHA-256 digest. -/
def hashKey (sha256 : String → Vector (Fin 256) 32) (plaintext : String) : String :=
  hexEncode (sha256 plaintext).toList

theorem hashKey_ne_empty (sha256 : String → Vector (Fin 256) 32) (plaintext : String) :
    hashKey sha256 plaintext ≠ "" := by
  intro empty
  have length := congrArg (fun text => text.toList.length) empty
  simp [hashKey, hexEncode, List.length_flatMap] at length

/-- What the gateway takes from the expiring LRU: whether an entry of some age
is still returned, and that none is once it is as old as its time to live. A
time to live that is not positive means that entries do not expire. -/
structure ExpiringLRU where
  returns : Int → Int → Bool
  expires : ∀ ttl age, 0 < ttl → ttl ≤ age → returns ttl age = false

/-- An entry is returned until it is as old as its time to live. -/
def ExpiringLRU.punctual : ExpiringLRU where
  returns ttl age := ttl ≤ 0 ∨ age < ttl
  expires ttl age live old := decide_eq_false (by omega)

/-- The two LRU caches of `auth.Cached`. What is evicted or timed out is no
longer in the map. -/
structure Cached where
  pos : String → Option KeyInfo
  neg : String → Bool

namespace Cached

def empty : Cached := ⟨fun _ => none, fun _ => false⟩

def addPos (c : Cached) (hash : String) (info : KeyInfo) : Cached :=
  { c with pos := Function.update c.pos hash (some info) }

def removePos (c : Cached) (hash : String) : Cached := { c with pos := Function.update c.pos hash none }

def addNeg (c : Cached) (hash : String) : Cached := { c with neg := Function.update c.neg hash true }

def removeNeg (c : Cached) (hash : String) : Cached := { c with neg := Function.update c.neg hash false }

theorem pos_of_removePos {c : Cached} {hash other : String} {info : KeyInfo}
    (found : (c.removePos hash).pos other = some info) : other ≠ hash ∧ c.pos other = some info := by
  by_cases same : other = hash
  · subst other
    simp [removePos] at found
  · exact ⟨same, (Function.update_of_ne same _ _).symm.trans found⟩

theorem pos_of_addPos {c : Cached} {hash other : String} {info new : KeyInfo}
    (found : (c.addPos hash new).pos other = some info) : other = hash ∧ info = new ∨ c.pos other = some info := by
  by_cases same : other = hash
  · subst other
    simp only [addPos, Function.update_self, Option.some.injEq] at found
    exact Or.inl ⟨rfl, found.symm⟩
  · exact Or.inr ((Function.update_of_ne same _ _).symm.trans found)

theorem neg_of_removeNeg {c : Cached} {hash other : String} (hit : (c.removeNeg hash).neg other = true) :
    c.neg other = true := by
  by_cases same : other = hash
  · subst other
    simp [removeNeg] at hit
  · exact (Function.update_of_ne same _ _).symm.trans hit

end Cached

def APIKey.info (row : APIKey) : KeyInfo :=
  ⟨row.id, row.orgID, row.name, row.rateLimitRPM, row.rateLimitTPM, row.scopes, row.expiresAt⟩

/-- `info.ExpiresAt != nil && !time.Now().Before(*info.ExpiresAt)`. -/
def KeyInfo.expired (info : KeyInfo) (now : Int) : Bool := info.expiresAt.any fun t => t ≤ now

inductive AuthError where
  | invalidKey
  | store (err : String)
deriving DecidableEq, Repr

/-- Where a call of `Authenticate` stands: the shared operation it makes next,
or what it has returned. -/
inductive AuthPC where
  | getPos
  | removePos
  | addNeg
  | getNeg
  | getByHash
  | addPos (info : KeyInfo)
  | returned (result : Except AuthError KeyInfo)

/-- One atomic step of `Authenticate` on the hash. `row` is what the store
answers if it is asked; an error is a failed query. -/
def AuthPC.next (hash : String) (now : Int) (row : Except String (Option APIKey)) (c : Cached) :
    AuthPC → Option (AuthPC × Cached)
  | .getPos =>
    match c.pos hash with
    | some info => some (if info.expired now then .removePos else .returned (.ok info), c)
    | none => some (.getNeg, c)
  | .removePos => some (.addNeg, c.removePos hash)
  | .addNeg => some (.returned (.error .invalidKey), c.addNeg hash)
  | .getNeg => some (if c.neg hash then .returned (.error .invalidKey) else .getByHash, c)
  | .getByHash =>
    match row with
    | .error err => some (.returned (.error (.store err)), c)
    | .ok none => some (.addNeg, c)
    | .ok (some row) => some (.addPos row.info, c)
  | .addPos info => some (.returned (.ok info), c.addPos hash info)
  | .returned _ => none

namespace AuthPC

variable {hash : String} {now : Int} {row : Except String (Option APIKey)} {c c' : Cached} {pc pc' : AuthPC}

/-- An entry of the positive cache was there, or the call has published it under
its own hash. -/
theorem next_pos_some (taken : pc.next hash now row c = some (pc', c')) {other : String} {info : KeyInfo}
    (found : c'.pos other = some info) : c.pos other = some info ∨ other = hash ∧ pc = .addPos info := by
  cases pc with
  | getPos =>
    simp only [next] at taken
    split at taken <;> cases taken <;> exact Or.inl found
  | removePos =>
    cases taken
    exact Or.inl (Cached.pos_of_removePos found).2
  | addNeg => cases taken; exact Or.inl found
  | getNeg => cases taken; exact Or.inl found
  | getByHash =>
    simp only [next] at taken
    split at taken <;> cases taken <;> exact Or.inl found
  | addPos new =>
    cases taken
    rcases Cached.pos_of_addPos found with ⟨same, rfl⟩ | old
    · exact Or.inr ⟨same, rfl⟩
    · exact Or.inl old
  | returned => cases taken

/-- The positive cache gains an entry only when a call publishes the row it has
read, under its own hash. -/
theorem next_pos (taken : pc.next hash now row c = some (pc', c')) {other : String}
    (missing : c.pos other = none) : c'.pos other = none ∨ other = hash ∧ ∃ info, pc = .addPos info := by
  cases found : c'.pos other with
  | none => exact Or.inl rfl
  | some info =>
    rcases next_pos_some taken found with old | ⟨same, publishing⟩
    · cases missing.symm.trans old
    · exact Or.inr ⟨same, info, publishing⟩

/-- A call returns a key only from the positive cache or from the row it has read. -/
theorem next_returned {info : KeyInfo} (taken : pc.next hash now row c = some (.returned (.ok info), c')) :
    c.pos hash = some info ∨ pc = .addPos info := by
  cases pc with
  | getPos =>
    simp only [next] at taken
    split at taken
    · rename_i found held
      by_cases late : found.expired now
      · simp [late] at taken
      · simp only [late, Bool.false_eq_true, if_false, Option.some.injEq, Prod.mk.injEq, AuthPC.returned.injEq,
          Except.ok.injEq] at taken
        exact Or.inl (taken.1 ▸ held)
    · cases taken
  | getNeg =>
    simp only [next, Option.some.injEq, Prod.mk.injEq] at taken
    split at taken <;> cases taken.1
  | getByHash =>
    simp only [next] at taken
    split at taken <;> cases taken
  | addPos => cases taken; exact Or.inr rfl
  | removePos | addNeg | returned => cases taken

/-- A call is about to publish only the fields of a row the store has answered with. -/
theorem next_addPos {info : KeyInfo} (taken : pc.next hash now row c = some (.addPos info, c')) :
    ∃ found, row = .ok (some found) ∧ found.info = info := by
  cases pc with
  | getPos =>
    simp only [next] at taken
    split at taken
    · simp only [Option.some.injEq, Prod.mk.injEq] at taken
      split at taken <;> cases taken.1
    · cases taken
  | getNeg =>
    simp only [next, Option.some.injEq, Prod.mk.injEq] at taken
    split at taken <;> cases taken.1
  | getByHash =>
    simp only [next] at taken
    split at taken
    · cases taken
    · cases taken
    · cases taken
      exact ⟨_, rfl, rfl⟩
  | removePos | addNeg | addPos | returned => cases taken

end AuthPC

end LlmGateway
