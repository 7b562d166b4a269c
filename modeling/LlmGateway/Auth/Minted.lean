import LlmGateway.Auth.Revocation
import LlmGateway.Handler.AdminKeys

namespace LlmGateway

/-- The table holds the key with these fields, usable or not. -/
def APIKeyStore.Carries (store : APIKeyStore) (hash : String) (info : KeyInfo) : Prop :=
  ∃ row ∈ store.rows, row.keyHash = hash ∧ row.info = info

namespace APIKeyStore

variable {store : APIKeyStore} {hash : String} {info : KeyInfo}

theorem Carries.revoke (carries : store.Carries hash info) (id : String) : (store.revoke id).Carries hash info := by
  obtain ⟨row, member, same, fields⟩ := carries
  refine ⟨deactivate id row, List.mem_map_of_mem member, (keyHash_deactivate id row).trans same, ?_⟩
  rw [← fields]
  unfold deactivate
  split <;> rfl

theorem Carries.create {store' : APIKeyStore} {k : NewKey} {id hashHex : String} {row : APIKey}
    (carries : store.Carries hash info) (created : store.create k id hashHex = some (row, store')) :
    store'.Carries hash info := by
  obtain ⟨old, member, rest⟩ := carries
  obtain ⟨_, rows, _⟩ := create_eq_some created
  exact ⟨old, rows ▸ List.mem_cons_of_mem _ member, rest⟩

/-- The hash is unique, and with it the fields of the key. -/
theorem Carries.unique {other : KeyInfo} (carries : store.Carries hash info) (carries' : store.Carries hash other) :
    info = other := by
  obtain ⟨row, member, same, rfl⟩ := carries
  obtain ⟨row', member', same', rfl⟩ := carries'
  rw [eq_of_keyHash member member' (same.trans same'.symm)]

end APIKeyStore

theorem APIKeyStore.Carries.run {s : APIKeyStore} {hash : String} {info : KeyInfo} (carries : s.Carries hash info)
    (call : CreateCall) (sha256 : String → Vector (Fin 256) 32) : (call.run sha256 s).2.Carries hash info := by
  rcases call.run_cases sha256 s with ⟨same, _⟩ | ⟨_, _, _, _, _, created, same, _⟩
  · rw [same]
    exact carries
  · rw [same]
    exact carries.create created

/-- What happens to the keys of an instance: calls of `Authenticate` and `Revoke`
in any interleaving, and calls of `Create`. -/
inductive KeyAction where
  | admin (a : AdminAction)
  | create (call : CreateCall)

namespace KeyService

variable {K : KeyService} {s t : AdminState} {hash : String} {info : KeyInfo}

/-- `Create` touches the table with one statement and no cache, so it is one step. -/
def keyStep (K : KeyService) (s : AdminState) : KeyAction → Option AdminState
  | .admin a => K.step s a
  | .create call => some { s with store := (call.run K.sha256 s.store).2 }

/-- The step keeps the fields of every key, adds nothing to the positive cache and
moves no call of `Authenticate`. -/
structure Grows (s t : AdminState) : Prop where
  store : ∀ hash info, s.store.Carries hash info → t.store.Carries hash info
  pos : ∀ hash info, t.cache.pos hash = some info → s.cache.pos hash = some info
  auths : t.auths = s.auths

theorem Grows.of_same (store : t.store = s.store) (pos : t.cache.pos = s.cache.pos) (auths : t.auths = s.auths) :
    Grows s t where
  store := fun _ _ carries => store ▸ carries
  pos := fun _ _ found => pos ▸ found
  auths := auths

theorem grows_removePos (s : AdminState) (hash : String) : Grows s { s with cache := s.cache.removePos hash } where
  store := fun _ _ carries => carries
  pos := fun _ _ found => (Cached.pos_of_removePos found).2
  auths := rfl

theorem grows_create (s : AdminState) (call : CreateCall) :
    Grows s { s with store := (call.run K.sha256 s.store).2 } where
  store := fun _ _ carries => carries.run call K.sha256
  pos := fun _ _ found => found
  auths := rfl

theorem grows_revokeNext {call : RevokeCall} {fault : Bool} {pc : RevokePC}
    (taken : K.revokeNext s call fault = some (pc, t)) : Grows s t := by
  rcases revokeNext_cases taken with rfl | ⟨id, rfl⟩ | ⟨hash, rfl⟩ | ⟨_, rfl⟩ | ⟨_, rfl⟩
  · exact Grows.of_same rfl rfl rfl
  · exact ⟨fun _ _ carries => carries.revoke id, fun _ _ found => found, rfl⟩
  · exact grows_removePos s hash
  · exact Grows.of_same rfl rfl rfl
  · exact Grows.of_same rfl rfl rfl

/-- No step changes the fields of a key. -/
theorem carries_keyStep {a : KeyAction} (taken : K.keyStep s a = some t) (carries : s.store.Carries hash info) :
    t.store.Carries hash info := by
  cases a with
  | create call =>
    cases taken
    exact (grows_create s call).store hash info carries
  | admin a =>
    cases a with
    | authStep k fault =>
      obtain ⟨call, _, moved⟩ := Option.bind_eq_some_iff.mp taken
      obtain ⟨_, _, rfl⟩ := Option.map_eq_some_iff.mp moved
      exact carries
    | revokeStep k fault =>
      obtain ⟨call, _, moved⟩ := Option.bind_eq_some_iff.mp taken
      obtain ⟨_, next, rfl⟩ := Option.map_eq_some_iff.mp moved
      exact (grows_revokeNext next).store hash info carries
    | authenticate | revoke | evictPos | evictNeg | clock =>
      cases taken
      exact carries

/-- What the positive cache holds and what a call has read or returned are fields
of rows of the table. -/
structure Sourced (K : KeyService) (s : AdminState) : Prop where
  pos : ∀ hash info, s.cache.pos hash = some info → s.store.Carries hash info
  read : ∀ auth ∈ s.auths, ∀ info, auth.pc = .addPos info → s.store.Carries (K.hash auth.plaintext) info
  returned : ∀ auth ∈ s.auths, ∀ info, auth.pc = .returned (.ok info) →
    s.store.Carries (K.hash auth.plaintext) info

theorem Sourced.start (store : APIKeyStore) (now : Int) : Sourced K (start store now) := by
  refine ⟨fun _ _ found => ?_, List.forall_mem_nil _, List.forall_mem_nil _⟩
  cases found

theorem Sourced.grow (sourced : Sourced K s) (grows : Grows s t) : Sourced K t where
  pos := fun hash info found => grows.store hash info (sourced.pos hash info (grows.pos hash info found))
  read := by
    rw [grows.auths]
    exact fun auth member info publishing => grows.store _ _ (sourced.read auth member info publishing)
  returned := by
    rw [grows.auths]
    exact fun auth member info ended => grows.store _ _ (sourced.returned auth member info ended)

theorem carries_of_lookup {plaintext : String} {fault : Bool} {row : APIKey}
    (answer : K.lookup s plaintext fault = .ok (some row)) : s.store.Carries (K.hash plaintext) row.info := by
  unfold lookup at answer
  split at answer
  · cases answer
  · obtain ⟨member, usable⟩ := APIKeyStore.of_getByHash (Except.ok.inj answer)
    exact ⟨row, member, (APIKeyStore.active_of_usable usable).1, rfl⟩

theorem Sourced.authenticate (sourced : Sourced K s) (plaintext : String) (revoked : List String) :
    Sourced K { s with auths := s.auths ++ [⟨plaintext, .getPos, revoked⟩] } := by
  refine ⟨sourced.pos, fun auth member info publishing => ?_, fun auth member info ended => ?_⟩
  · rcases List.mem_append.mp member with old | new
    · exact sourced.read auth old info publishing
    · rw [List.mem_singleton.mp new] at publishing
      cases publishing
  · rcases List.mem_append.mp member with old | new
    · exact sourced.returned auth old info ended
    · rw [List.mem_singleton.mp new] at ended
      cases ended

theorem Sourced.authStep (sourced : Sourced K s) {k : Nat} {fault : Bool} {call : AuthCall} {pc : AuthPC}
    {cache : Cached} (found : s.auths[k]? = some call)
    (taken : call.pc.next (K.hash call.plaintext) s.now (K.lookup s call.plaintext fault) s.cache =
      some (pc, cache)) :
    Sourced K { s with auths := s.auths.set k { call with pc := pc }, cache := cache } := by
  have member : call ∈ s.auths := List.mem_of_getElem? found
  refine ⟨fun hash info hit => ?_, fun auth member' info publishing => ?_, fun auth member' info ended => ?_⟩
  · rcases AuthPC.next_pos_some taken hit with old | ⟨rfl, publishing⟩
    · exact sourced.pos hash info old
    · exact sourced.read call member info publishing
  · rcases List.mem_or_eq_of_mem_set member' with old | rfl
    · exact sourced.read auth old info publishing
    · obtain rfl : pc = .addPos info := publishing
      obtain ⟨row, answer, rfl⟩ := AuthPC.next_addPos taken
      exact carries_of_lookup answer
  · rcases List.mem_or_eq_of_mem_set member' with old | rfl
    · exact sourced.returned auth old info ended
    · obtain rfl : pc = .returned (.ok info) := ended
      rcases AuthPC.next_returned taken with hit | publishing
      · exact sourced.pos _ info hit
      · exact sourced.read call member info publishing

theorem Sourced.keyStep {a : KeyAction} (sourced : Sourced K s) (taken : K.keyStep s a = some t) : Sourced K t := by
  cases a with
  | create call =>
    cases taken
    exact sourced.grow (grows_create s call)
  | admin a =>
    cases a with
    | authenticate plaintext =>
      cases taken
      exact sourced.authenticate plaintext _
    | authStep k fault =>
      obtain ⟨call, found, moved⟩ := Option.bind_eq_some_iff.mp taken
      obtain ⟨⟨pc, cache⟩, next, rfl⟩ := Option.map_eq_some_iff.mp moved
      exact sourced.authStep found next
    | revokeStep k fault =>
      obtain ⟨call, _, moved⟩ := Option.bind_eq_some_iff.mp taken
      obtain ⟨⟨pc, admin⟩, next, rfl⟩ := Option.map_eq_some_iff.mp moved
      exact (sourced.grow (grows_revokeNext next)).grow (Grows.of_same rfl rfl rfl)
    | evictPos hash =>
      cases taken
      exact sourced.grow (grows_removePos s hash)
    | revoke | evictNeg | clock =>
      cases taken
      exact sourced.grow (Grows.of_same rfl rfl rfl)

end KeyService

/-- A key that `Create` has minted in the course of a run. -/
structure MintedKey (K : KeyService) where
  store : APIKeyStore
  now : Int
  before : List KeyAction
  found : AdminState
  reached : Transition.run K.keyStep (KeyService.start store now) before = some found
  call : CreateCall
  req : CreateKeyRequest
  body : call.body = some req
  response : CreateKeyResponse
  minted : (call.run K.sha256 found.store).1 = .ok response

namespace MintedKey

variable {K : KeyService} (m : MintedKey K) {info : KeyInfo}

/-- The state `Create` leaves. -/
def left : AdminState := { m.found with store := (m.call.run K.sha256 m.found.store).2 }

/-- Some call of `Authenticate` with the key returns these fields, whatever has
happened since the key was minted. -/
def Authenticates (info : KeyInfo) : Prop :=
  ∃ after final, Transition.run K.keyStep m.left after = some final ∧
    ∃ auth ∈ final.auths, auth.plaintext = m.response.key ∧ auth.pc = .returned (.ok info)

/-- The fields of the row `Create` has added. -/
def keyInfo : KeyInfo := (m.req.newKey.row m.call.id (K.hash m.response.key)).info

theorem carries_left : m.left.store.Carries (K.hash m.response.key) m.keyInfo := by
  rcases m.call.run_cases K.sha256 m.found.store with
    ⟨_, e, failed⟩ | ⟨req, plaintext, row, store, body, created, after, response, replied, key, _⟩
  · cases failed.symm.trans m.minted
  · cases m.body.symm.trans body
    cases m.minted.symm.trans replied
    obtain ⟨rfl, rows, _⟩ := APIKeyStore.create_eq_some created
    rw [left, after]
    exact ⟨_, rows ▸ List.mem_cons_self, congrArg (hashKey K.sha256) key.symm, by rw [keyInfo, key]; rfl⟩

theorem sourced_left : KeyService.Sourced K m.left := by
  have found := Transition.run_invariant (fun _ _ _ inv next => KeyService.Sourced.keyStep inv next)
    (KeyService.Sourced.start m.store m.now) m.reached
  exact found.grow (KeyService.grows_create m.found m.call)

/-- Every request authenticated with the key carries the limits of its row. -/
theorem eq_keyInfo (authenticates : m.Authenticates info) : info = m.keyInfo := by
  obtain ⟨after, final, taken, auth, member, plaintext, returned⟩ := authenticates
  have carries : final.store.Carries (K.hash m.response.key) m.keyInfo :=
    Transition.run_invariant (fun _ _ _ inv next => KeyService.carries_keyStep next inv) m.carries_left taken
  have sourced : KeyService.Sourced K final :=
    Transition.run_invariant (fun _ _ _ inv next => KeyService.Sourced.keyStep inv next) m.sourced_left taken
  have answered := sourced.returned auth member info returned
  rw [plaintext] at answered
  exact answered.unique carries

end MintedKey

end LlmGateway
