import LlmGateway.Auth.Revocation
import LlmGateway.Handler.AdminKeys

namespace LlmGateway

/-- `negativeCacheTTL`, in nanoseconds. -/
def negativeCacheTTL : Int := 30 * 1000000000

/-- What happened to a key: the store was asked for the hash and had no usable
row, or `Create` added the row of the id. -/
inductive KeyEvent where
  | absent (hash : String) (time : Int)
  | created (id : String)

/-- A call of `Authenticate`. The last two fields are no part of the program:
the error of its query, and the caches as it found them, less what has gone
from them since. -/
structure SoleAuth where
  plaintext : String
  pc : AuthPC
  failure : Option String
  kept : Cached

/-- The error of the query, once it has been made. -/
def SoleAuth.queryError (call : SoleAuth) (row : Except String (Option APIKey)) : Option String :=
  match call.pc, row with
  | .getByHash, .error err => some err
  | _, _ => call.failure

/-- A query that finds nothing is an event. -/
def SoleAuth.events (call : SoleAuth) (hash : String) (now : Int) (row : Except String (Option APIKey)) :
    List KeyEvent :=
  match call.pc, row with
  | .getByHash, .ok none => [.absent hash now]
  | _, _ => []

/-- Adding to the negative cache stamps the entry. -/
def SoleAuth.addedAt (call : SoleAuth) (hash : String) (now : Int) (since : String → Int) : String → Int :=
  match call.pc with
  | .addNeg => Function.update since hash now
  | _ => since

inductive SoleCall where
  | auth (call : SoleAuth)
  | revoke (call : RevokeCall)

/-- An instance that handles one call at a time: time passes between calls, and cache
entries may go at any moment. `since` says when an entry of the negative cache was
added. The history is no part of the program; its latest event comes first. -/
structure SoleState where
  store : APIKeyStore
  cache : Cached
  since : String → Int
  now : Int
  current : Option SoleCall
  history : List KeyEvent

inductive SoleAction where
  | authenticate (plaintext : String)
  | revoke (id : String)
  | create (call : CreateCall)
  | step (fault : Option String)
  | finish
  | evictPos (hash : String)
  | evictNeg (hash : String)
  | clock (now : Int)

namespace SoleState

/-- The instance as a revocation sees it. -/
def admin (s : SoleState) : AdminState := ⟨s.store, s.cache, s.now, [], [], []⟩

def start (store : APIKeyStore) (now : Int) : SoleState := ⟨store, .empty, fun _ => 0, now, none, []⟩

/-- What the store answers to `GetByHash`. -/
def lookup (s : SoleState) (hash : String) (fault : Option String) : Except String (Option APIKey) :=
  match fault with
  | some err => .error ("scanning api_key: " ++ err)
  | none => .ok (s.store.getByHash hash s.now)

/-- One atomic step of `Authenticate`. -/
def authStep (K : KeyService) (s : SoleState) (call : SoleAuth) (fault : Option String) : Option SoleState :=
  let hash := K.hash call.plaintext
  let row := s.lookup hash fault
  (call.pc.next hash s.now row s.cache).map fun (pc, cache) =>
    { s with
      cache := cache
      since := call.addedAt hash s.now s.since
      current := some (.auth { call with pc := pc, failure := call.queryError row })
      history := call.events hash s.now row ++ s.history }

/-- One atomic step of `Revoke`. -/
def revokeStep (K : KeyService) (s : SoleState) (call : RevokeCall) (fault : Option String) : Option SoleState :=
  (K.revokeNext s.admin call fault.isSome).map fun (pc, t) =>
    { s with store := t.store, cache := t.cache, current := some (.revoke { call with pc := pc }) }

/-- What has left a cache has also left what a call in progress found there. -/
def evict (s : SoleState) (drop : Cached → Cached) : SoleState :=
  { s with
    cache := drop s.cache
    current := s.current.map fun
      | .auth call => .auth { call with kept := drop call.kept }
      | .revoke call => .revoke call }

/-- The clock shows another time, and the negative entries that are too old for
it are gone. -/
def advance (L : ExpiringLRU) (s : SoleState) (now : Int) : SoleState :=
  { s with
    now := now
    cache := { s.cache with neg := fun hash => s.cache.neg hash && L.returns negativeCacheTTL (now - s.since hash) } }

def finished : SoleCall → Bool
  | .auth ⟨_, .returned _, _, _⟩ => true
  | .revoke ⟨_, .replied _⟩ => true
  | _ => false

def step (K : KeyService) (L : ExpiringLRU) (s : SoleState) : SoleAction → Option SoleState
  | .authenticate plaintext =>
    if s.current.isSome then none
    else some { s with current := some (.auth ⟨plaintext, .getPos, none, s.cache⟩) }
  | .revoke id =>
    if s.current.isSome then none
    else some { s with current := some (.revoke ⟨id, if id = "" then .replied 400 else .getByID⟩) }
  | .create call =>
    if s.current.isSome then none
    else match call.run K.sha256 s.store with
      | (.ok response, store) => some { s with store := store, history := .created response.id :: s.history }
      | (.error _, store) => some { s with store := store }
  | .step fault =>
    match s.current with
    | some (.auth call) => s.authStep K call fault
    | some (.revoke call) => s.revokeStep K call fault
    | none => none
  | .finish => if s.current.any finished then some { s with current := none } else none
  | .evictPos hash => some (s.evict (·.removePos hash))
  | .evictNeg hash => some (s.evict (·.removeNeg hash))
  | .clock now => if s.current.isSome ∨ now < s.now then none else some (s.advance L now)

end SoleState

/-- The store was found to have no usable row of the hash at time `t`, before
the row of the id was created. -/
def AbsentBefore (history : List KeyEvent) (hash : String) (t : Int) (id : String) : Prop :=
  ∃ newer older, history = newer ++ .absent hash t :: older ∧ .created id ∈ newer

theorem AbsentBefore.append {history : List KeyEvent} {hash id : String} {t : Int}
    (absent : AbsentBefore history hash t id) (events : List KeyEvent) :
    AbsentBefore (events ++ history) hash t id := by
  obtain ⟨newer, older, rfl, created⟩ := absent
  exact ⟨events ++ newer, older, by rw [List.append_assoc], List.mem_append_right _ created⟩

/-- Why a hash may be in the negative cache since time `t`: its row was of no
use then, or there was no row, and one that has been added came later. -/
inductive Explained (store : APIKeyStore) (history : List KeyEvent) (hash : String) (t : Int) : Prop where
  | dead (row : APIKey) (member : row ∈ store.rows) (same : row.keyHash = hash)
    (useless : APIKeyStore.usable row hash t = false)
  | none (missing : ∀ row ∈ store.rows, row.keyHash ≠ hash) (asked : .absent hash t ∈ history)
  | later (row : APIKey) (member : row ∈ store.rows) (same : row.keyHash = hash)
    (before : AbsentBefore history hash t row.id)

namespace Explained

variable {store : APIKeyStore} {history : List KeyEvent} {hash : String} {t : Int}

theorem of_getByHash (missing : store.getByHash hash t = Option.none) :
    Explained store (.absent hash t :: history) hash t := by
  by_cases known : ∃ row ∈ store.rows, row.keyHash = hash
  · obtain ⟨row, member, same⟩ := known
    exact .dead row member same (by simpa using List.find?_eq_none.mp missing row member)
  · exact .none (fun row member same => known ⟨row, member, same⟩) List.mem_cons_self

theorem append (why : Explained store history hash t) (events : List KeyEvent) :
    Explained store (events ++ history) hash t := by
  cases why with
  | dead row member same useless => exact .dead row member same useless
  | none missing asked => exact .none missing (List.mem_append_right _ asked)
  | later row member same before => exact .later row member same (before.append events)

theorem usable_deactivate {row : APIKey} {id : String} (useless : APIKeyStore.usable row hash t = false) :
    APIKeyStore.usable (APIKeyStore.deactivate id row) hash t = false := by
  unfold APIKeyStore.deactivate
  split
  · simp [APIKeyStore.usable]
  · exact useless

theorem revoke (why : Explained store history hash t) (id : String) :
    Explained (store.revoke id) history hash t := by
  cases why with
  | dead row member same useless =>
    exact .dead _ (List.mem_map_of_mem member) ((APIKeyStore.keyHash_deactivate id row).trans same)
      (usable_deactivate useless)
  | none missing asked =>
    refine .none (fun row member => ?_) asked
    obtain ⟨old, oldMember, rfl⟩ := List.mem_map.mp member
    rw [APIKeyStore.keyHash_deactivate]
    exact missing old oldMember
  | later row member same before =>
    refine .later _ (List.mem_map_of_mem member) ((APIKeyStore.keyHash_deactivate id row).trans same) ?_
    rw [APIKeyStore.id_deactivate]
    exact before

theorem create {store' : APIKeyStore} {k : NewKey} {id hashHex : String} {new : APIKey}
    (why : Explained store history hash t) (created : store.create k id hashHex = some (new, store')) :
    Explained store' (.created new.id :: history) hash t := by
  obtain ⟨rfl, rows, _⟩ := APIKeyStore.create_eq_some created
  have old {row : APIKey} (member : row ∈ store.rows) : row ∈ store'.rows := rows ▸ List.mem_cons_of_mem _ member
  cases why with
  | dead row member same useless => exact .dead row (old member) same useless
  | none missing asked =>
    by_cases mine : hashHex = hash
    · obtain ⟨newer, older, split⟩ := List.append_of_mem asked
      refine .later (k.row id hashHex) (rows ▸ List.mem_cons_self) mine ⟨_ :: newer, older, ?_, List.mem_cons_self⟩
      rw [split, List.cons_append]
    · refine .none (fun row member => ?_) (List.mem_cons_of_mem _ asked)
      rw [rows] at member
      rcases List.mem_cons.mp member with rfl | member
      · exact mine
      · exact missing row member
  | later row member same before => exact .later row (old member) same (before.append [_])

/-- A usable row that the negative cache hides was created after the store had
been asked for it. -/
theorem absentBefore {now : Int} (why : Explained store history hash t) (past : t ≤ now) {row : APIKey}
    (member : row ∈ store.rows) (usable : APIKeyStore.usable row hash now = true) :
    AbsentBefore history hash t row.id := by
  have mine : row.keyHash = hash := (APIKeyStore.active_of_usable usable).1
  have sole {other : APIKey} (otherMember : other ∈ store.rows) (same : other.keyHash = hash) : other = row :=
    APIKeyStore.eq_of_keyHash otherMember member (same.trans mine.symm)
  cases why with
  | dead other otherMember same useless =>
    rw [sole otherMember same, APIKeyStore.usable_of_le usable past] at useless
    cases useless
  | none missing _ => exact absurd mine (missing row member)
  | later other otherMember same before => exact sole otherMember same ▸ before

end Explained

end LlmGateway
