import LlmGateway.Auth.Soundness

namespace LlmGateway

/-- A call of `Authenticate` on an instance. The stamp is no part of the program: it says
when the call made its last step. -/
structure KeyFleetCall where
  node : Nat
  plaintext : String
  pc : AuthPC
  stamp : Int

/-- Several instances over one table of keys, each with caches of its own. A revocation
only reaches the caches of the instance that handles it. `since` says when an entry of
a positive cache was added. -/
structure KeyFleet where
  store : APIKeyStore
  caches : Nat → Cached
  since : Nat × String → Int
  now : Int
  calls : List KeyFleetCall

/-- The store is changed by whichever instance handles the admin request. What leaves a
cache early has been evicted or invalidated. -/
inductive KeyFleetAction where
  | authenticate (node : Nat) (plaintext : String)
  | authStep (k : Nat) (fault : Bool)
  | revoke (id : String)
  | create (call : CreateCall)
  | evictPos (node : Nat) (hash : String)
  | evictNeg (node : Nat) (hash : String)
  | clock (now : Int)

namespace KeyFleet

def start (store : APIKeyStore) (now : Int) : KeyFleet := ⟨store, fun _ => .empty, fun _ => 0, now, []⟩

/-- Adding to the positive cache stamps the entry. -/
def addedAt (s : KeyFleet) (call : KeyFleetCall) (hash : String) : Nat × String → Int :=
  match call.pc with
  | .addPos _ => Function.update s.since (call.node, hash) s.now
  | _ => s.since

/-- What the store answers to `GetByHash`. -/
def lookup (s : KeyFleet) (hash : String) (fault : Bool) : Except String (Option APIKey) :=
  if fault then .error "scanning api_key" else .ok (s.store.getByHash hash s.now)

variable (K : KeyService) (L : ExpiringLRU) (ttl : Int)

/-- One atomic step of `Authenticate`. -/
def authStep (s : KeyFleet) (k : Nat) (call : KeyFleetCall) (fault : Bool) : Option KeyFleet :=
  let hash := K.hash call.plaintext
  (call.pc.next hash s.now (s.lookup hash fault) (s.caches call.node)).map fun (pc, cache) =>
    { s with
      caches := Function.update s.caches call.node cache
      since := s.addedAt call hash
      calls := s.calls.set k { call with pc := pc, stamp := s.now } }

/-- The positive entries that are too old for the time are gone. -/
def advance (s : KeyFleet) (now : Int) : KeyFleet :=
  { s with
    now := now
    caches := fun node => { s.caches node with
      pos := fun hash => ((s.caches node).pos hash).filter fun _ => L.returns ttl (now - s.since (node, hash)) } }

def step (s : KeyFleet) : KeyFleetAction → Option KeyFleet
  | .authenticate node plaintext => some { s with calls := s.calls ++ [⟨node, plaintext, .getPos, s.now⟩] }
  | .authStep k fault => s.calls[k]?.bind fun call => s.authStep K k call fault
  | .revoke id => some { s with store := s.store.revoke id }
  | .create call => some { s with store := (call.run K.sha256 s.store).2 }
  | .evictPos node hash =>
    some { s with caches := Function.update s.caches node ((s.caches node).removePos hash) }
  | .evictNeg node hash =>
    some { s with caches := Function.update s.caches node ((s.caches node).removeNeg hash) }
  | .clock now => if now < s.now then none else some (s.advance L ttl now)

/-- No call holds the row it has read for longer than this before it adds it to the
cache. -/
def Prompt (delay : Int) (s : KeyFleet) : KeyFleetAction → Prop
  | .clock now => ∀ call ∈ s.calls, ∀ info, call.pc = .addPos info → now - call.stamp ≤ delay
  | _ => True

/-- What is known of a hash anywhere in the fleet was read from the store by this time. -/
structure ReadBy (delay : Int) (hash : String) (time : Int) (s : KeyFleet) : Prop where
  entries : ∀ node info, (s.caches node).pos hash = some info →
    s.since (node, hash) ≤ time + delay ∧ s.now - s.since (node, hash) < ttl
  reading : ∀ call ∈ s.calls, K.hash call.plaintext = hash → ∀ info, call.pc = .addPos info →
    call.stamp ≤ time ∧ s.now - call.stamp ≤ delay
  accepted : ∀ call ∈ s.calls, K.hash call.plaintext = hash → ∀ info, call.pc = .returned (.ok info) →
    call.stamp < time + delay + ttl

variable {K L ttl} {delay time : Int} {hash : String} {s t : KeyFleet} {a : KeyFleetAction}

theorem ReadBy.mono {later : Int} (readBy : ReadBy K ttl delay hash time s) (order : time ≤ later) :
    ReadBy K ttl delay hash later s where
  entries node info found := by
    obtain ⟨added, fresh⟩ := readBy.entries node info found
    exact ⟨by omega, fresh⟩
  reading call member own info publishing := by
    obtain ⟨read, held⟩ := readBy.reading call member own info publishing
    exact ⟨by omega, held⟩
  accepted call member own info returned := by
    have early := readBy.accepted call member own info returned
    omega

theorem readBy_start (store : APIKeyStore) (now : Int) : ReadBy K ttl delay hash now (start store now) where
  entries := nofun
  reading := nofun
  accepted := nofun

/-- Entries that leave the caches leave the others as they were. -/
theorem ReadBy.drop (readBy : ReadBy K ttl delay hash time s) {caches : Nat → Cached}
    (fewer : ∀ node info, (caches node).pos hash = some info → (s.caches node).pos hash = some info) :
    ReadBy K ttl delay hash time { s with caches := caches } where
  entries node info found := readBy.entries node info (fewer node info found)
  reading := readBy.reading
  accepted := readBy.accepted

theorem addedAt_cases (s : KeyFleet) (call : KeyFleetCall) (own : String) (key : Nat × String) :
    s.addedAt call own key = s.since key ∧ (key = (call.node, own) → ∀ info, call.pc ≠ .addPos info) ∨
      s.addedAt call own key = s.now ∧ key = (call.node, own) ∧ ∃ info, call.pc = .addPos info := by
  cases pc : call.pc with
  | addPos info =>
    by_cases same : key = (call.node, own)
    · exact .inr ⟨by simp [addedAt, pc, same], same, info, rfl⟩
    · exact .inl ⟨by simp [addedAt, pc, same], fun here => absurd here same⟩
  | getPos | removePos | addNeg | getNeg | getByHash | returned => exact .inl ⟨by simp [addedAt, pc], nofun⟩

/-- One step of a call. The row it reads is from before the time, or the key is off and
there is none. -/
theorem ReadBy.authStep (readBy : ReadBy K ttl delay hash time s) (live : 0 < ttl) (patient : 0 ≤ delay)
    (early : s.now ≤ time ∨ s.store.Inactive hash) {k : Nat} {call : KeyFleetCall} {fault : Bool}
    (at_ : s.calls[k]? = some call) (next : s.authStep K k call fault = some t) :
    ReadBy K ttl delay hash time t := by
  have member := List.mem_of_getElem? at_
  obtain ⟨⟨pc, cache⟩, taken, rfl⟩ := Option.map_eq_some_iff.mp next
  have moves := Transition.moves_set (p := { call with pc := pc, stamp := s.now }) at_
  have each {holds : KeyFleetCall → Prop} (here : holds { call with pc := pc, stamp := s.now })
      (others : ∀ other ∈ s.calls, holds other) :
      ∀ other ∈ s.calls.set k { call with pc := pc, stamp := s.now }, holds other := by
    intro other inside
    obtain ⟨j, now⟩ := List.mem_iff_getElem?.mp inside
    exact moves.all here (fun _ q _ before => others q (List.mem_of_getElem? before)) j other now
  have soon {info : KeyInfo} (own : K.hash call.plaintext = hash) (publishing : call.pc = .addPos info) :
      s.now ≤ time + delay := by
    have held := readBy.reading call member own info publishing
    omega
  refine ⟨fun node info found => ?_, each (fun own info publishing => ?_) readBy.reading,
    each (fun own info returned => ?_) readBy.accepted⟩
  · change s.addedAt call (K.hash call.plaintext) (node, hash) ≤ time + delay ∧
      s.now - s.addedAt call (K.hash call.plaintext) (node, hash) < ttl
    rcases s.addedAt_cases call (K.hash call.plaintext) (node, hash) with ⟨kept, quiet⟩ | ⟨new, same, _, publishing⟩
    · rw [kept]
      refine readBy.entries node info ?_
      by_cases here : node = call.node
      · subst here
        simp only [Function.update_self] at found
        rcases AuthPC.next_pos_some taken found with old | ⟨rfl, publishing⟩
        · exact old
        · exact absurd publishing (quiet rfl info)
      · simpa only [Function.update_of_ne here] using found
    · have within := soon (Prod.mk.inj same).2.symm publishing
      rw [new]
      omega
  · obtain rfl : pc = .addPos info := publishing
    obtain ⟨row, answer, -⟩ := AuthPC.next_addPos taken
    rcases early with before | off
    · exact ⟨before, by simpa using patient⟩
    · rw [show K.hash call.plaintext = hash from own, lookup, APIKeyStore.getByHash_of_inactive off] at answer
      cases fault <;> cases answer
  · obtain rfl : pc = .returned (.ok info) := returned
    change s.now < time + delay + ttl
    rcases AuthPC.next_returned taken with found | publishing
    · rw [show K.hash call.plaintext = hash from own] at found
      obtain ⟨added, fresh⟩ := readBy.entries call.node info found
      omega
    · have within := soon own publishing
      omega

theorem now_le_of_step (next : s.step K L ttl a = some t) : s.now ≤ t.now := by
  cases a with
  | clock now =>
    obtain ⟨later, rfl⟩ := Option.ite_none_left_eq_some.mp next |>.imp id Option.some.inj
    exact not_lt.mp later
  | authStep k fault =>
    obtain ⟨call, -, moved⟩ := Option.bind_eq_some_iff.mp next
    obtain ⟨_, -, rfl⟩ := Option.map_eq_some_iff.mp moved
    exact le_rfl
  | authenticate | revoke | create | evictPos | evictNeg =>
    cases next
    exact le_rfl

theorem ReadBy.step (live : 0 < ttl) (patient : 0 ≤ delay) (prompt : Prompt delay s a)
    (readBy : ReadBy K ttl delay hash time s) (early : s.now ≤ time ∨ s.store.Inactive hash)
    (next : s.step K L ttl a = some t) : ReadBy K ttl delay hash time t := by
  cases a with
  | authenticate node plaintext =>
    cases next
    refine ⟨readBy.entries, fun call member => ?_, fun call member => ?_⟩
    · rcases List.mem_append.mp member with before | last
      · exact readBy.reading call before
      · obtain rfl := List.mem_singleton.mp last
        nofun
    · rcases List.mem_append.mp member with before | last
      · exact readBy.accepted call before
      · obtain rfl := List.mem_singleton.mp last
        nofun
  | authStep k fault =>
    obtain ⟨call, at_, moved⟩ := Option.bind_eq_some_iff.mp next
    exact readBy.authStep live patient early at_ moved
  | revoke id =>
    cases next
    exact { readBy with }
  | create call =>
    cases next
    exact { readBy with }
  | evictPos node other =>
    cases next
    refine readBy.drop fun here info found => ?_
    by_cases same : here = node
    · subst same
      rw [Function.update_self] at found
      exact (Cached.pos_of_removePos found).2
    · rwa [Function.update_of_ne same] at found
  | evictNeg node other =>
    cases next
    refine readBy.drop fun here info found => ?_
    by_cases same : here = node
    · subst same
      rwa [Function.update_self] at found
    · rwa [Function.update_of_ne same] at found
  | clock now =>
    obtain ⟨later, rfl⟩ := Option.ite_none_left_eq_some.mp next |>.imp id Option.some.inj
    refine ⟨fun node info found => ?_, fun call member own info publishing => ?_, readBy.accepted⟩
    · obtain ⟨there, returned⟩ := Option.filter_eq_some_iff.mp found
      have added := (readBy.entries node info there).1
      refine ⟨added, not_le.mp fun old => ?_⟩
      have gone : L.returns ttl (now - s.since (node, hash)) = false := L.expires ttl _ live old
      rw [gone] at returned
      cases returned
    · exact ⟨(readBy.reading call member own info publishing).1, prompt call member info publishing⟩

/-- The hash is in the table, and its key is off. -/
def Off (hash : String) (s : KeyFleet) : Prop := s.store.Inactive hash ∧ ∃ row ∈ s.store.rows, row.keyHash = hash

theorem Off.step (off : Off hash s) (next : s.step K L ttl a = some t) : Off hash t := by
  obtain ⟨inactive, row, member, same⟩ := off
  cases a with
  | revoke id =>
    cases next
    refine ⟨inactive.revoke id, APIKeyStore.deactivate id row, List.mem_map_of_mem member, ?_⟩
    rw [APIKeyStore.keyHash_deactivate, same]
  | create call =>
    cases next
    rcases call.run_cases K.sha256 s.store with ⟨unchanged, -⟩ | ⟨req, plaintext, new, store, -, created, after, -⟩
    · rw [Off, unchanged]
      exact ⟨inactive, row, member, same⟩
    · -- the hash is taken, so the new row has another one
      obtain ⟨rfl, rows, fresh⟩ := APIKeyStore.create_eq_some created
      rw [Off, after, APIKeyStore.Inactive, rows]
      refine ⟨fun other inside own => ?_, row, List.mem_cons_of_mem _ member, same⟩
      rcases List.mem_cons.mp inside with rfl | old
      · exact absurd (same.trans own.symm) (fresh row member).2
      · exact inactive other old own
  | authStep k fault =>
    obtain ⟨call, -, moved⟩ := Option.bind_eq_some_iff.mp next
    obtain ⟨_, -, rfl⟩ := Option.map_eq_some_iff.mp moved
    exact ⟨inactive, row, member, same⟩
  | clock now =>
    obtain ⟨-, rfl⟩ := Option.ite_none_left_eq_some.mp next |>.imp id Option.some.inj
    exact ⟨inactive, row, member, same⟩
  | authenticate | evictPos | evictNeg =>
    cases next
    exact ⟨inactive, row, member, same⟩

/-- A key that has been revoked is refused by every instance once the time to live of an
entry has passed, and the time that a call may take to publish what it has read. -/
theorem revoked_key_dies_out (K : KeyService) (L : ExpiringLRU) (live : 0 < ttl) (patient : 0 ≤ delay)
    (store : APIKeyStore) (now : Int) {before after : List KeyFleetAction} {found final : KeyFleet} {id : String}
    (earlier : Transition.run (step K L ttl) (start store now) before = some found)
    (key : (id, hash) ∈ found.store.keys)
    (prompt : Transition.Guarded (step K L ttl) (Prompt delay) (start store now) (before ++ .revoke id :: after))
    (run : Transition.run (step K L ttl) (start store now) (before ++ .revoke id :: after) = some final) :
    ∀ call ∈ final.calls, K.hash call.plaintext = hash → ∀ info, call.pc = .returned (.ok info) →
      call.stamp < found.now + delay + ttl := by
  obtain ⟨promptBefore, promptAfter⟩ := (Transition.guarded_append earlier).mp prompt
  obtain ⟨_, same, rest⟩ := Transition.run_append.mp run
  obtain rfl := Option.some.inj (earlier.symm.trans same)
  have keep (s : KeyFleet) (a : KeyFleetAction) (t : KeyFleet) (prompt : Prompt delay s a)
      (readBy : ReadBy K ttl delay hash s.now s) (next : s.step K L ttl a = some t) : ReadBy K ttl delay hash t.now t :=
    (readBy.step live patient prompt (.inl le_rfl) next).mono (now_le_of_step next)
  have readBy : ReadBy K ttl delay hash found.now found :=
    Transition.guarded_invariant keep (readBy_start store now) promptBefore earlier
  obtain ⟨revoked, first, later⟩ := Transition.run_cons.mp rest
  have off : Off hash revoked := by
    obtain ⟨row, member, both⟩ := List.mem_map.mp key
    cases first
    refine ⟨APIKeyStore.inactive_revoke key, APIKeyStore.deactivate id row, List.mem_map_of_mem member, ?_⟩
    rw [APIKeyStore.keyHash_deactivate]
    exact (Prod.mk.inj both).2
  have fade (s : KeyFleet) (a : KeyFleetAction) (t : KeyFleet) (prompt : Prompt delay s a)
      (held : ReadBy K ttl delay hash found.now s ∧ Off hash s) (next : s.step K L ttl a = some t) :
      ReadBy K ttl delay hash found.now t ∧ Off hash t :=
    ⟨held.1.step live patient prompt (.inr held.2.1) next, held.2.step next⟩
  have last := Transition.guarded_invariant fade
    ⟨readBy.step live patient promptAfter.1 (.inl le_rfl) first, off⟩ (promptAfter.2 revoked first) later
  exact last.1.accepted

/-- One instance looks the key up, and another one revokes it two ticks later. -/
def lookedUp : List KeyFleetAction :=
  [.authenticate 1 "sk-gw-8Jf2kQz0", .authStep 0 false, .authStep 0 false, .authStep 0 false, .authStep 0 false,
    .clock 2]

def askedAgain : List KeyFleetAction := [.clock 4, .authenticate 1 "sk-gw-8Jf2kQz0", .authStep 1 false]

/-- The first instance still accepts the key after the revocation, but not for long. -/
theorem revoked_key_dies_out_sample :
    ∃ final call info, Transition.run (step .sample .punctual 5) (start KeyService.sampleStore 0)
        (lookedUp ++ .revoke "5f0c2d4e-0000-4000-8000-000000000001" :: askedAgain) = some final ∧
      call ∈ final.calls ∧ call.pc = .returned (.ok info) ∧ call.stamp = 4 ∧ call.stamp < 2 + 0 + 5 := by
  have earlier : Transition.run (step .sample .punctual 5) (start KeyService.sampleStore 0) lookedUp =
      some _ := rfl
  have run : Transition.run (step .sample .punctual 5) (start KeyService.sampleStore 0)
      (lookedUp ++ .revoke "5f0c2d4e-0000-4000-8000-000000000001" :: askedAgain) = some _ := rfl
  have idle {s : KeyFleet} {now : Int} (calls : ∀ call ∈ s.calls, ∀ info, call.pc ≠ .addPos info) :
      Prompt 0 s (.clock now) := fun call member info publishing => absurd publishing (calls call member info)
  have prompt : Transition.Guarded (step .sample .punctual 5) (Prompt 0) (start KeyService.sampleStore 0)
      (lookedUp ++ .revoke "5f0c2d4e-0000-4000-8000-000000000001" :: askedAgain) := by
    refine .cons trivial rfl <| .cons trivial rfl <| .cons trivial rfl <| .cons trivial rfl <| .cons trivial rfl <|
      .cons (idle ?_) rfl <| .cons trivial rfl <| .cons (idle ?_) rfl <| .cons trivial rfl <| .cons trivial rfl trivial
    all_goals
      intro call member info
      obtain rfl := List.mem_singleton.mp member
      nofun
  have bound := revoked_key_dies_out .sample .punctual (by decide) le_rfl KeyService.sampleStore 0 earlier
    List.mem_cons_self prompt run
  exact ⟨_, _, _, run, List.mem_cons_of_mem _ List.mem_cons_self, rfl, rfl,
    bound _ (List.mem_cons_of_mem _ List.mem_cons_self) rfl _ rfl⟩

end KeyFleet

end LlmGateway
