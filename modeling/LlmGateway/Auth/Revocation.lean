import LlmGateway.Auth.Cached
import LlmGateway.Lib.Transition

namespace LlmGateway

/-- A call of `Authenticate`. `revoked` is no part of the program: the ids whose
revocation had been answered with 204 when the call started. -/
structure AuthCall where
  plaintext : String
  pc : AuthPC
  revoked : List String

/-- Where a call of `AdminKeysHandler.Revoke` stands. -/
inductive RevokePC where
  | getByID
  | revoke (hashHex : String)
  | removePos (hashHex : String)
  | removeNeg (hashHex : String)
  | reply
  | replied (status : Nat)

structure RevokeCall where
  id : String
  pc : RevokePC

structure AdminState where
  store : APIKeyStore
  cache : Cached
  now : Int
  auths : List AuthCall
  revokes : List RevokeCall
  acknowledged : List String

/-- A step of a call, the start of a call, or something that happens around
them: an entry leaves a cache, the clock shows another time. The flag makes the
store fail. -/
inductive AdminAction where
  | authenticate (plaintext : String)
  | authStep (k : Nat) (fault : Bool)
  | revoke (id : String)
  | revokeStep (k : Nat) (fault : Bool)
  | evictPos (hash : String)
  | evictNeg (hash : String)
  | clock (now : Int)

/-- What the processes run on: SHA-256, and the id that Postgres reads from the
text of a path parameter. -/
structure KeyService where
  sha256 : String → Vector (Fin 256) 32
  uuid : String → Option String

namespace KeyService

variable (K : KeyService)

def hash (plaintext : String) : String := hashKey K.sha256 plaintext

/-- What the store answers to `GetByHash`. -/
def lookup (s : AdminState) (plaintext : String) (fault : Bool) : Except String (Option APIKey) :=
  if fault then .error "scanning api_key" else .ok (s.store.getByHash (K.hash plaintext) s.now)

def start (store : APIKeyStore) (now : Int) : AdminState := ⟨store, .empty, now, [], [], []⟩

/-- One atomic step of `Revoke`. -/
def revokeNext (s : AdminState) (call : RevokeCall) (fault : Bool) : Option (RevokePC × AdminState) :=
  match call.pc with
  | .getByID =>
    if fault then some (.replied 500, s)
    else match (K.uuid call.id).bind s.store.getByID with
      | some row => some (.revoke row.keyHash, s)
      | none => some (.revoke "", s)
  | .revoke hashHex =>
    if fault then some (.replied 500, s)
    else
      let store := ((K.uuid call.id).map s.store.revoke).getD s.store
      some (if hashHex = "" then .reply else .removePos hashHex, { s with store := store })
  | .removePos hashHex => some (.removeNeg hashHex, { s with cache := s.cache.removePos hashHex })
  | .removeNeg hashHex => some (.reply, { s with cache := s.cache.removeNeg hashHex })
  | .reply => some (.replied 204, { s with acknowledged := (K.uuid call.id).toList ++ s.acknowledged })
  | .replied _ => none

def step (s : AdminState) : AdminAction → Option AdminState
  | .authenticate plaintext => some { s with auths := s.auths ++ [⟨plaintext, .getPos, s.acknowledged⟩] }
  | .authStep k fault =>
    s.auths[k]?.bind fun call =>
      (call.pc.next (K.hash call.plaintext) s.now (K.lookup s call.plaintext fault) s.cache).map
        fun (pc, cache) => { s with auths := s.auths.set k { call with pc := pc }, cache := cache }
  | .revoke id =>
    some { s with revokes := s.revokes ++ [⟨id, if id = "" then .replied 400 else .getByID⟩] }
  | .revokeStep k fault =>
    s.revokes[k]?.bind fun call =>
      (K.revokeNext s call fault).map fun (pc, t) => { t with revokes := t.revokes.set k { call with pc := pc } }
  | .evictPos hash => some { s with cache := s.cache.removePos hash }
  | .evictNeg hash => some { s with cache := s.cache.removeNeg hash }
  | .clock now => some { s with now := now }

/-- No call that started after the 204 for a key has returned that key. -/
def RevocationEffective (s : AdminState) : Prop :=
  ∀ call ∈ s.auths, ∀ info, call.pc = .returned (.ok info) →
    ∀ row ∈ s.store.rows, row.keyHash = K.hash call.plaintext → row.id ∉ call.revoked

/-- When `Invalidate` drops a hash from the positive cache, no call that has
read the row of that hash has still to publish it. -/
def NoneInFlight (s : AdminState) (a : AdminAction) : Prop :=
  ∀ k fault call hashHex, a = .revokeStep k fault → s.revokes[k]? = some call → call.pc = .removePos hashHex →
    ∀ auth ∈ s.auths, K.hash auth.plaintext = hashHex → ∀ info, auth.pc ≠ .addPos info

variable {K} {s t : AdminState} {hash : String}

/-- The key of the hash is off, and nothing can bring it back into the cache. -/
structure Quiet (K : KeyService) (s : AdminState) (hash : String) : Prop where
  off : s.store.Inactive hash
  missing : s.cache.pos hash = none
  drained : ∀ auth ∈ s.auths, K.hash auth.plaintext = hash → ∀ info, auth.pc ≠ .addPos info

/-- What a revocation of the key has reached at each of its steps. -/
def Phase (K : KeyService) (s : AdminState) (hash : String) : RevokePC → Prop
  | .getByID => True
  | .revoke hashHex => hashHex = hash
  | .removePos hashHex => hashHex = hash ∧ s.store.Inactive hash
  | .removeNeg _ => Quiet K s hash
  | .reply => Quiet K s hash
  | .replied _ => True

/-- The step keeps the keys of the table, what is off and what is quiet. -/
structure Keeps (K : KeyService) (s t : AdminState) : Prop where
  keys : t.store.keys = s.store.keys
  off : ∀ hash, s.store.Inactive hash → t.store.Inactive hash
  quiet : ∀ hash, Quiet K s hash → Quiet K t hash

theorem Keeps.of_same (store : t.store = s.store) (pos : t.cache.pos = s.cache.pos) (auths : t.auths = s.auths) :
    Keeps K s t where
  keys := by rw [store]
  off := fun _ off => store ▸ off
  quiet := fun _ quiet => ⟨store ▸ quiet.off, pos ▸ quiet.missing, auths ▸ quiet.drained⟩

theorem Phase.keep (keeps : Keeps K s t) {pc : RevokePC} (phase : Phase K s hash pc) : Phase K t hash pc := by
  cases pc with
  | getByID | replied => trivial
  | revoke => exact phase
  | removePos => exact ⟨phase.1, keeps.off _ phase.2⟩
  | removeNeg | reply => exact keeps.quiet _ phase

structure RevocationInv (K : KeyService) (s : AdminState) : Prop where
  acked : ∀ id ∈ s.acknowledged, ∀ hash, (id, hash) ∈ s.store.keys → hash ≠ "" → Quiet K s hash
  phases : ∀ call ∈ s.revokes, ∀ id hash, K.uuid call.id = some id → (id, hash) ∈ s.store.keys → hash ≠ "" →
    Phase K s hash call.pc
  calls : ∀ auth ∈ s.auths, ∀ id ∈ auth.revoked, id ∈ s.acknowledged
  effective : ∀ auth ∈ s.auths, ∀ info, auth.pc = .returned (.ok info) →
    ∀ id, (id, K.hash auth.plaintext) ∈ s.store.keys → id ∉ auth.revoked

theorem RevocationInv.start (store : APIKeyStore) (now : Int) : RevocationInv K (start store now) := by
  refine ⟨?_, ?_, ?_, ?_⟩ <;> intro _ member <;> cases member

/-- A step that starts or moves no call of `Authenticate` or `Revoke`. -/
theorem RevocationInv.keep (inv : RevocationInv K s) (keeps : Keeps K s t) (auths : t.auths = s.auths)
    (revokes : t.revokes = s.revokes) (acked : t.acknowledged = s.acknowledged) : RevocationInv K t where
  acked := by
    rw [acked, keeps.keys]
    exact fun id member hash key filled => keeps.quiet hash (inv.acked id member hash key filled)
  phases := by
    rw [revokes, keeps.keys]
    exact fun call member id hash named key filled => (inv.phases call member id hash named key filled).keep keeps
  calls := by
    rw [auths, acked]
    exact inv.calls
  effective := by
    rw [auths, keeps.keys]
    exact inv.effective

theorem Quiet.removePos (quiet : Quiet K s hash) (other : String) :
    Quiet K { s with cache := s.cache.removePos other } hash where
  off := quiet.off
  missing := by
    by_cases same : hash = other
    · rw [same]
      exact Function.update_self _ _ _
    · exact (Function.update_of_ne same _ _).trans quiet.missing
  drained := quiet.drained

/-- What one step of `Revoke` does to the instance. -/
theorem revokeNext_cases {call : RevokeCall} {fault : Bool} {pc : RevokePC}
    (taken : K.revokeNext s call fault = some (pc, t)) :
    t = s ∨ (∃ id, t = { s with store := s.store.revoke id }) ∨
      (∃ hash, t = { s with cache := s.cache.removePos hash }) ∨
      (∃ hash, t = { s with cache := s.cache.removeNeg hash }) ∨
      call.pc = .reply ∧ t = { s with acknowledged := (K.uuid call.id).toList ++ s.acknowledged } := by
  unfold revokeNext at taken
  split at taken
  · split at taken
    · cases taken
      exact Or.inl rfl
    · split at taken <;> cases taken <;> exact Or.inl rfl
  · split at taken
    · cases taken
      exact Or.inl rfl
    · cases taken
      cases K.uuid call.id with
      | none => exact Or.inl rfl
      | some id => exact Or.inr (Or.inl ⟨id, rfl⟩)
  · rename_i hashHex _
    cases taken
    exact Or.inr (Or.inr (Or.inl ⟨hashHex, rfl⟩))
  · rename_i hashHex _
    cases taken
    exact Or.inr (Or.inr (Or.inr (Or.inl ⟨hashHex, rfl⟩)))
  · rename_i replying
    cases taken
    exact Or.inr (Or.inr (Or.inr (Or.inr ⟨replying, rfl⟩)))
  · cases taken

/-- A revocation never unsettles a quiet key. -/
theorem keeps_revokeNext {call : RevokeCall} {fault : Bool} {pc : RevokePC}
    (taken : K.revokeNext s call fault = some (pc, t)) :
    Keeps K s t ∧ t.auths = s.auths ∧ t.revokes = s.revokes := by
  rcases revokeNext_cases taken with rfl | ⟨id, rfl⟩ | ⟨hash, rfl⟩ | ⟨hash, rfl⟩ | ⟨_, rfl⟩
  · exact ⟨Keeps.of_same rfl rfl rfl, rfl, rfl⟩
  · refine ⟨⟨APIKeyStore.keys_revoke _ _, fun _ off => off.revoke id, fun _ quiet => ?_⟩, rfl, rfl⟩
    exact ⟨quiet.off.revoke id, quiet.missing, quiet.drained⟩
  · exact ⟨⟨rfl, fun _ off => off, fun _ quiet => quiet.removePos hash⟩, rfl, rfl⟩
  · exact ⟨Keeps.of_same rfl rfl rfl, rfl, rfl⟩
  · exact ⟨Keeps.of_same rfl rfl rfl, rfl, rfl⟩

theorem phase_revokeNext {call : RevokeCall} {fault : Bool} {pc : RevokePC} {id : String}
    (taken : K.revokeNext s call fault = some (pc, t)) (phase : Phase K s hash call.pc)
    (named : K.uuid call.id = some id) (key : (id, hash) ∈ s.store.keys) (filled : hash ≠ "")
    (none : ∀ hashHex, call.pc = .removePos hashHex → ∀ auth ∈ s.auths, K.hash auth.plaintext = hashHex →
      ∀ info, auth.pc ≠ .addPos info) : Phase K t hash pc := by
  have keeps := (keeps_revokeNext taken).1
  unfold revokeNext at taken
  cases at_ : call.pc with
  | getByID =>
    rw [at_] at taken
    obtain ⟨row, found, same⟩ := APIKeyStore.getByID_of_key key
    simp only [named, Option.bind_some, found] at taken
    split at taken
    · cases taken
      trivial
    · cases taken
      exact same
  | revoke hashHex =>
    rw [at_] at taken phase
    obtain rfl : hashHex = hash := phase
    simp only [if_neg filled, named, Option.map_some, Option.getD_some] at taken
    split at taken
    · cases taken
      trivial
    · cases taken
      exact ⟨rfl, APIKeyStore.inactive_revoke key⟩
  | removePos hashHex =>
    rw [at_] at taken phase
    obtain ⟨rfl, off⟩ := phase
    cases taken
    exact ⟨off, Function.update_self _ _ _, none hashHex at_⟩
  | removeNeg hashHex =>
    rw [at_] at taken phase
    cases taken
    exact keeps.quiet _ phase
  | reply =>
    rw [at_] at taken
    cases taken
    trivial
  | replied =>
    rw [at_] at taken
    cases taken

theorem acknowledged_revokeNext {call : RevokeCall} {fault : Bool} {pc : RevokePC}
    (taken : K.revokeNext s call fault = some (pc, t)) :
    t.acknowledged = s.acknowledged ∨
      call.pc = .reply ∧ t.acknowledged = (K.uuid call.id).toList ++ s.acknowledged := by
  rcases revokeNext_cases taken with rfl | ⟨_, rfl⟩ | ⟨_, rfl⟩ | ⟨_, rfl⟩ | ⟨replying, rfl⟩
  · exact Or.inl rfl
  · exact Or.inl rfl
  · exact Or.inl rfl
  · exact Or.inl rfl
  · exact Or.inr ⟨replying, rfl⟩

theorem RevocationInv.revokeStep (inv : RevocationInv K s) {k : Nat} {fault : Bool} {call : RevokeCall}
    {pc : RevokePC} (found : s.revokes[k]? = some call) (taken : K.revokeNext s call fault = some (pc, t))
    (none : K.NoneInFlight s (.revokeStep k fault)) :
    RevocationInv K { t with revokes := t.revokes.set k { call with pc := pc } } := by
  obtain ⟨keeps, auths, revokes⟩ := keeps_revokeNext taken
  have member : call ∈ s.revokes := List.mem_of_getElem? found
  have calm : Keeps K t { t with revokes := t.revokes.set k { call with pc := pc } } :=
    Keeps.of_same rfl rfl rfl
  have acked := acknowledged_revokeNext taken
  refine ⟨?_, ?_, ?_, ?_⟩
  · intro id member' hash key filled
    rw [calm.keys, keeps.keys] at key
    refine calm.quiet hash (keeps.quiet hash ?_)
    rcases acked with same | ⟨replying, more⟩
    · exact inv.acked id (same ▸ member') hash key filled
    · rw [show t.acknowledged = _ from more] at member'
      rcases List.mem_append.mp member' with new | old
      · have phase := inv.phases call member id hash (Option.mem_toList.mp new) key filled
        rw [replying] at phase
        exact phase
      · exact inv.acked id old hash key filled
  · intro other member' id hash named key filled
    rw [calm.keys, keeps.keys] at key
    rcases List.mem_or_eq_of_mem_set member' with old | rfl
    · rw [revokes] at old
      exact ((inv.phases other old id hash named key filled).keep keeps).keep calm
    · have phase := inv.phases call member id hash named key filled
      have drained := fun hashHex at_ => none k fault call hashHex rfl found at_
      exact (phase_revokeNext taken phase named key filled drained).keep
        calm
  · intro auth member' id revoked
    have old := inv.calls auth (auths ▸ member') id revoked
    rcases acked with same | ⟨_, more⟩
    · exact same ▸ old
    · exact more ▸ List.mem_append_right _ old
  · intro auth member' info done id key
    rw [calm.keys, keeps.keys] at key
    exact inv.effective auth (auths ▸ member') info done id key

/-- A step of `Authenticate` never unsettles a quiet key: the row is off, so the
store does not find it again. -/
theorem keeps_authStep {k : Nat} {fault : Bool} {call : AuthCall} {pc : AuthPC} {cache : Cached}
    (found : s.auths[k]? = some call)
    (taken : call.pc.next (K.hash call.plaintext) s.now (K.lookup s call.plaintext fault) s.cache =
      some (pc, cache)) :
    Keeps K s { s with auths := s.auths.set k { call with pc := pc }, cache := cache } := by
  have member : call ∈ s.auths := List.mem_of_getElem? found
  refine ⟨rfl, fun _ => id, fun hash quiet => ⟨quiet.off, ?_, ?_⟩⟩
  · rcases AuthPC.next_pos taken quiet.missing with missing | ⟨same, info, publishing⟩
    · exact missing
    · exact absurd publishing (quiet.drained call member same.symm info)
  · intro auth member' same info publishing
    rcases List.mem_or_eq_of_mem_set member' with old | rfl
    · exact quiet.drained auth old same info publishing
    · obtain rfl : pc = .addPos info := publishing
      obtain ⟨row, read, -⟩ := AuthPC.next_addPos taken
      rw [lookup, show K.hash call.plaintext = hash from same, APIKeyStore.getByHash_of_inactive quiet.off] at read
      split at read <;> cases read

theorem RevocationInv.authStep (inv : RevocationInv K s) {k : Nat} {fault : Bool} {call : AuthCall} {pc : AuthPC}
    {cache : Cached} (found : s.auths[k]? = some call)
    (taken : call.pc.next (K.hash call.plaintext) s.now (K.lookup s call.plaintext fault) s.cache =
      some (pc, cache)) :
    RevocationInv K { s with auths := s.auths.set k { call with pc := pc }, cache := cache } := by
  have member : call ∈ s.auths := List.mem_of_getElem? found
  have keeps := keeps_authStep found taken
  refine ⟨?_, ?_, ?_, ?_⟩
  · exact fun id acked hash key filled => keeps.quiet hash (inv.acked id acked hash key filled)
  · exact fun other old id hash named key filled => (inv.phases other old id hash named key filled).keep keeps
  · intro auth member'
    rcases List.mem_or_eq_of_mem_set member' with old | rfl
    · exact inv.calls auth old
    · exact inv.calls call member
  · intro auth member' info done id key revoked
    rcases List.mem_or_eq_of_mem_set member' with old | rfl
    · exact inv.effective auth old info done id key revoked
    · obtain rfl : pc = .returned (.ok info) := done
      have quiet := inv.acked id (inv.calls call member id revoked) _ key (hashKey_ne_empty _ _)
      rcases AuthPC.next_returned taken with hit | publishing
      · rw [quiet.missing] at hit
        cases hit
      · exact quiet.drained call member rfl info publishing

theorem RevocationInv.step (inv : RevocationInv K s) {a : AdminAction} (none : K.NoneInFlight s a)
    (taken : K.step s a = some t) : RevocationInv K t := by
  cases a with
  | authenticate plaintext =>
    cases taken
    have keeps : Keeps K s { s with auths := s.auths ++ [⟨plaintext, .getPos, s.acknowledged⟩] } := by
      refine ⟨rfl, fun _ => id, fun hash quiet => ⟨quiet.off, quiet.missing, ?_⟩⟩
      intro auth member same info publishing
      rcases List.mem_append.mp member with old | new
      · exact quiet.drained auth old same info publishing
      · rw [List.mem_singleton.mp new] at publishing
        cases publishing
    refine ⟨?_, ?_, ?_, ?_⟩
    · exact fun id acked hash key filled => keeps.quiet hash (inv.acked id acked hash key filled)
    · exact fun other old id hash named key filled => (inv.phases other old id hash named key filled).keep keeps
    · intro auth member
      rcases List.mem_append.mp member with old | new
      · exact inv.calls auth old
      · rw [List.mem_singleton.mp new]
        exact fun _ => id
    · intro auth member info done
      rcases List.mem_append.mp member with old | new
      · exact inv.effective auth old info done
      · rw [List.mem_singleton.mp new] at done
        cases done
  | authStep k fault =>
    obtain ⟨call, found, rest⟩ := Option.bind_eq_some_iff.mp taken
    obtain ⟨⟨pc, cache⟩, moved, rfl⟩ := Option.map_eq_some_iff.mp rest
    exact inv.authStep found moved
  | revoke id =>
    cases taken
    have keeps : Keeps K s { s with revokes := s.revokes ++ [⟨id, if id = "" then .replied 400 else .getByID⟩] } :=
      Keeps.of_same rfl rfl rfl
    refine ⟨?_, ?_, inv.calls, inv.effective⟩
    · exact fun id acked hash key filled => keeps.quiet hash (inv.acked id acked hash key filled)
    · intro call member id hash named key filled
      rcases List.mem_append.mp member with old | new
      · exact (inv.phases call old id hash named key filled).keep keeps
      · rw [List.mem_singleton.mp new]
        split <;> trivial
  | revokeStep k fault =>
    obtain ⟨call, found, rest⟩ := Option.bind_eq_some_iff.mp taken
    obtain ⟨⟨pc, u⟩, moved, rfl⟩ := Option.map_eq_some_iff.mp rest
    exact inv.revokeStep found moved none
  | evictPos hash =>
    cases taken
    exact inv.keep ⟨rfl, fun _ => id, fun _ quiet => quiet.removePos hash⟩ rfl rfl rfl
  | evictNeg hash =>
    cases taken
    exact inv.keep (Keeps.of_same rfl rfl rfl) rfl rfl rfl
  | clock now =>
    cases taken
    exact inv.keep (Keeps.of_same rfl rfl rfl) rfl rfl rfl

/-- If every `Invalidate` runs while no call has still to publish a row it has
read, a revocation that was answered with 204 is never undone. -/
theorem revocation_effective_of_none_in_flight (K : KeyService) (store : APIKeyStore) (now : Int)
    {actions : List AdminAction} {s : AdminState}
    (guarded : Transition.Guarded K.step K.NoneInFlight (start store now) actions)
    (taken : Transition.run K.step (start store now) actions = some s) : K.RevocationEffective s := by
  have inv : RevocationInv K s := Transition.guarded_invariant
    (fun _ _ _ none inv next => inv.step none next) (RevocationInv.start store now) guarded taken
  intro call member info done row rowMember same revoked
  exact inv.effective call member info done row.id
    (List.mem_map.mpr ⟨row, rowMember, by rw [same]⟩) revoked

/-- Random bytes that are all 1. -/
def sampleBytes : List (Fin 256) := List.replicate 32 ⟨1, by decide⟩

/-- SHA-256 at two plaintexts, `sk-gw-8Jf2kQz0` and the key that is minted from
the sample of random bytes. -/
def sampleDigest (plaintext : String) : List Nat :=
  if plaintext = "sk-gw-8Jf2kQz0" then
    [215, 69, 166, 132, 250, 96, 60, 216, 34, 21, 199, 179, 251, 81, 240, 110, 20, 141, 176, 176, 185, 49, 179, 201,
      243, 166, 71, 111, 216, 252, 173, 229]
  else if plaintext = "sk-gw-bbbbbbbbbbbbbbbbbbbbbbbbbbbbbbbb" then
    [79, 212, 236, 56, 17, 85, 136, 176, 203, 60, 78, 7, 86, 49, 38, 3, 0, 38, 111, 98, 69, 88, 140, 115, 141, 46, 88,
      234, 116, 214, 141, 6]
  else []

def sample : KeyService where
  sha256 plaintext :=
    ⟨⟨(List.range 32).map fun i => ⟨(sampleDigest plaintext).getD i 0 % 256, Nat.mod_lt _ (by decide)⟩⟩, rfl⟩
  uuid := fun id => if id = "5f0c2d4e-0000-4000-8000-000000000001" then some id else none

def sampleStore : APIKeyStore where
  rows := [⟨"5f0c2d4e-0000-4000-8000-000000000001", sample.hash "sk-gw-8Jf2kQz0", "org", "ci", [], 60, 100000, true,
    none⟩]
  ids := List.nodup_singleton _
  hashes := List.nodup_singleton _

/-- A call is about to ask the store, and another one has published the row. The
key is revoked, the first call ends, and a third one is made. -/
def revokedInBetween : List AdminAction :=
  [.authenticate "sk-gw-8Jf2kQz0", .authStep 0 false, .authStep 0 false, .authenticate "sk-gw-8Jf2kQz0",
    .authStep 1 false, .authStep 1 false, .authStep 1 false, .authStep 1 false,
    .revoke "5f0c2d4e-0000-4000-8000-000000000001", .revokeStep 0 false, .revokeStep 0 false, .revokeStep 0 false,
    .revokeStep 0 false, .revokeStep 0 false, .authStep 0 false, .authStep 0 false, .authenticate "sk-gw-8Jf2kQz0",
    .authStep 2 false, .authStep 2 false]

/-- The call of before the revocation has the key, the two others are refused. -/
theorem revocation_effective_sample :
    ∃ s info, Transition.run sample.step (start sampleStore 0) revokedInBetween = some s ∧
      s.auths.map AuthCall.pc =
        [.returned (.error .invalidKey), .returned (.ok info), .returned (.error .invalidKey)] ∧
      sample.RevocationEffective s := by
  have other {s : AdminState} {a : AdminAction} (moves : ∀ k fault, a ≠ .revokeStep k fault) :
      sample.NoneInFlight s a := fun k fault _ _ same => absurd same (moves k fault)
  have idle {s : AdminState} {a : AdminAction} {result : Except AuthError KeyInfo}
      (reached : s.auths.map AuthCall.pc = [.getByHash, .returned result]) : sample.NoneInFlight s a := by
    intro _ _ _ _ _ _ _ auth member _ info publishing
    have listed : auth.pc ∈ s.auths.map AuthCall.pc := List.mem_map_of_mem member
    simp [reached, publishing] at listed
  have taken : Transition.run sample.step (start sampleStore 0) revokedInBetween = some _ := rfl
  refine ⟨_, _, taken, rfl, revocation_effective_of_none_in_flight sample sampleStore 0 ?_ taken⟩
  refine .cons (other (by simp)) rfl <| .cons (other (by simp)) rfl <| .cons (other (by simp)) rfl <|
    .cons (other (by simp)) rfl <| .cons (other (by simp)) rfl <| .cons (other (by simp)) rfl <|
    .cons (other (by simp)) rfl <| .cons (other (by simp)) rfl <| .cons (other (by simp)) rfl <|
    .cons (idle rfl) rfl <| .cons (idle rfl) rfl <| .cons (idle rfl) rfl <| .cons (idle rfl) rfl <|
    .cons (idle rfl) rfl <| .cons (other (by simp)) rfl <| .cons (other (by simp)) rfl <|
    .cons (other (by simp)) rfl <| .cons (other (by simp)) rfl <| .cons (other (by simp)) rfl trivial

/-- A lookup reads the row, the key is revoked and the 204 sent, the lookup then
publishes what it read, and a new call finds it in the cache. -/
theorem revocation_undone_by_late_publish :
    ∃ s, Transition.run sample.step (start sampleStore 0) [.authenticate "sk-gw-8Jf2kQz0", .authStep 0 false,
        .authStep 0 false, .authStep 0 false, .revoke "5f0c2d4e-0000-4000-8000-000000000001", .revokeStep 0 false,
        .revokeStep 0 false, .revokeStep 0 false, .revokeStep 0 false, .revokeStep 0 false, .authStep 0 false,
        .authenticate "sk-gw-8Jf2kQz0", .authStep 1 false] = some s ∧ ¬sample.RevocationEffective s := by
  refine ⟨_, rfl, fun effective => ?_⟩
  exact effective _ (List.mem_cons_of_mem _ (List.mem_singleton_self _)) _ rfl _ (List.mem_singleton_self _) rfl
    (List.mem_singleton_self _)

end KeyService

end LlmGateway
