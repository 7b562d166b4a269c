import LlmGateway.Auth.Sequential

namespace LlmGateway

namespace SoleState

variable {K : KeyService} {L : ExpiringLRU} {s t : SoleState}

/-- The store has an active row of the hash with these fields. -/
def Backed (store : APIKeyStore) (hash : String) (info : KeyInfo) : Prop :=
  ∃ row ∈ store.rows, row.keyHash = hash ∧ row.isActive = true ∧ row.info = info

/-- The store has a usable row of the hash with these fields. -/
def Valid (s : SoleState) (hash : String) (info : KeyInfo) : Prop :=
  ∃ row ∈ s.store.rows, APIKeyStore.usable row hash s.now = true ∧ row.info = info

/-- Every usable row of the hash was created after the store had been asked for
it, less than the negative time to live ago. -/
def Stale (s : SoleState) (hash : String) : Prop :=
  ∀ row ∈ s.store.rows, APIKeyStore.usable row hash s.now = true →
    ∃ t, AbsentBefore s.history hash t row.id ∧ s.now - t < negativeCacheTTL

/-- What a call of `Authenticate` has established. -/
def AuthReached (K : KeyService) (s : SoleState) (call : SoleAuth) : Prop :=
  match call.pc with
  | .getPos | .getNeg | .getByHash => call.failure = none ∧ s.cache = call.kept
  | .removePos => call.failure = none ∧
      ∃ row ∈ s.store.rows, row.keyHash = K.hash call.plaintext ∧
        APIKeyStore.usable row (K.hash call.plaintext) s.now = false
  | .addNeg => call.failure = none ∧ Explained s.store s.history (K.hash call.plaintext) s.now
  | .addPos info | .returned (.ok info) => call.failure = none ∧ s.Valid (K.hash call.plaintext) info
  | .returned (.error .invalidKey) => call.failure = none ∧ s.Stale (K.hash call.plaintext)
  | .returned (.error (.store err)) => call.failure = some err ∧ s.cache = call.kept

/-- A revocation that has looked its key up knows the hash of the row it is
about to switch off. -/
def RevokeReached (K : KeyService) (s : SoleState) (call : RevokeCall) : Prop :=
  ∀ hashHex, call.pc = .revoke hashHex →
    ∀ id, K.uuid call.id = some id → ∀ row ∈ s.store.rows, row.id = id → row.keyHash = hashHex

def Reached (K : KeyService) (s : SoleState) : SoleCall → Prop
  | .auth call => s.AuthReached K call
  | .revoke call => s.RevokeReached K call

/-- The current call is about to drop the hash from the positive cache. -/
def Revoking (s : SoleState) (hash : String) : Prop := ∃ id, s.current = some (.revoke ⟨id, .removePos hash⟩)

structure Coherent (K : KeyService) (s : SoleState) : Prop where
  pos : ∀ hash info, s.cache.pos hash = some info → hash ≠ "" ∧ (Backed s.store hash info ∨ s.Revoking hash)
  neg : ∀ hash, s.cache.neg hash = true → s.since hash ≤ s.now ∧ s.now - s.since hash < negativeCacheTTL ∧
    Explained s.store s.history hash (s.since hash)
  call : ∀ call, s.current = some call → s.Reached K call

theorem coherent_start (store : APIKeyStore) (now : Int) : Coherent K (start store now) := by
  refine ⟨?_, ?_, ?_⟩
  · rintro hash info ⟨⟩
  · rintro hash ⟨⟩
  · rintro call ⟨⟩

/-- A row with the fields of an entry is usable until the entry expires. -/
theorem usable_iff_expired {row : APIKey} {hash : String} (same : row.keyHash = hash)
    (active : row.isActive = true) (now : Int) : APIKeyStore.usable row hash now = !row.info.expired now := by
  simp only [APIKeyStore.usable, same, active, decide_true, Bool.true_and, KeyInfo.expired, APIKey.info]
  cases row.expiresAt with
  | none => rfl
  | some t =>
    by_cases late : t ≤ now
    · simp [late]
    · simp [late, not_le.mp late]

theorem Coherent.stale (coherent : Coherent K s) {hash : String} (hit : s.cache.neg hash = true) :
    s.Stale hash := by
  obtain ⟨past, young, why⟩ := coherent.neg hash hit
  exact fun row member usable => ⟨_, why.absentBefore past member usable, young⟩

/-- An `Authenticate` in progress finds every positive entry backed. -/
theorem Coherent.backed (coherent : Coherent K s) {hash : String} {info : KeyInfo}
    (found : s.cache.pos hash = some info) {call : SoleAuth} (busy : s.current = some (.auth call)) :
    Backed s.store hash info := by
  rcases (coherent.pos hash info found).2 with backed | ⟨id, revoking⟩
  · exact backed
  · rw [busy] at revoking
    cases revoking

/-- A step of `Authenticate` keeps the caches coherent when every positive entry
it leaves was there or is backed, and every negative entry it leaves was there
or is new and explained. -/
theorem Coherent.auth (coherent : Coherent K s) {call call' : SoleAuth} (busy : s.current = some (.auth call))
    {cache : Cached} {since : String → Int} {events : List KeyEvent}
    (pos : ∀ hash info, cache.pos hash = some info →
      s.cache.pos hash = some info ∨ hash ≠ "" ∧ Backed s.store hash info)
    (neg : ∀ hash, cache.neg hash = true → s.cache.neg hash = true ∧ since hash = s.since hash ∨
      since hash = s.now ∧ Explained s.store (events ++ s.history) hash s.now)
    (reached : AuthReached K { s with
      cache := cache, since := since, current := some (.auth call'), history := events ++ s.history } call') :
    Coherent K { s with
      cache := cache, since := since, current := some (.auth call'), history := events ++ s.history } := by
  refine ⟨fun hash info found => ?_, fun hash hit => ?_, ?_⟩
  · rcases pos hash info found with old | ⟨named, backed⟩
    · exact ⟨(coherent.pos hash info old).1, Or.inl (coherent.backed old busy)⟩
    · exact ⟨named, Or.inl backed⟩
  · dsimp only
    rcases neg hash hit with ⟨old, same⟩ | ⟨same, why⟩
    · obtain ⟨past, young, why⟩ := coherent.neg hash old
      rw [same]
      exact ⟨past, young, why.append events⟩
    · rw [same]
      exact ⟨le_rfl, by rw [sub_self]; decide, why⟩
  · rintro _ ⟨⟩
    exact reached

/-- A step that only looks. -/
theorem Coherent.look (coherent : Coherent K s) {call call' : SoleAuth} (busy : s.current = some (.auth call))
    (events : List KeyEvent)
    (reached : AuthReached K { s with
      current := some (.auth call'), history := events ++ s.history } call') :
    Coherent K { s with current := some (.auth call'), history := events ++ s.history } :=
  coherent.auth busy (fun _ _ found => Or.inl found) (fun _ hit => Or.inl ⟨hit, rfl⟩) reached

theorem Coherent.authStep (coherent : Coherent K s) {call : SoleAuth} (busy : s.current = some (.auth call))
    {fault : Option String} (taken : s.authStep K call fault = some t) : Coherent K t := by
  obtain ⟨plaintext, pc, failure, kept⟩ := call
  have reached : s.AuthReached K _ := coherent.call _ busy
  obtain ⟨⟨pc', cache⟩, next, rfl⟩ := Option.map_eq_some_iff.mp taken
  cases pc with
  | getPos =>
    simp only [AuthPC.next] at next
    cases found : s.cache.pos (K.hash plaintext) with
    | none =>
      rw [found] at next
      cases next
      exact coherent.look busy [] reached
    | some info =>
      rw [found] at next
      obtain ⟨row, member, same, active, rfl⟩ := coherent.backed found busy
      have uses := usable_iff_expired same active s.now
      cases late : row.info.expired s.now with
      | true =>
        rw [late] at uses
        simp only [late, if_true, Option.some.injEq, Prod.mk.injEq] at next
        obtain ⟨rfl, rfl⟩ := next
        exact coherent.look busy [] ⟨reached.1, row, member, same, uses⟩
      | false =>
        rw [late] at uses
        simp only [late, Bool.false_eq_true, if_false, Option.some.injEq, Prod.mk.injEq] at next
        obtain ⟨rfl, rfl⟩ := next
        exact coherent.look busy [] ⟨reached.1, row, member, uses, rfl⟩
  | removePos =>
    cases next
    obtain ⟨clean, row, member, same, useless⟩ := reached
    refine coherent.auth busy (fun hash info found => ?_) (fun _ hit => Or.inl ⟨hit, rfl⟩)
      ⟨clean, .dead row member same useless⟩
    exact Or.inl (Cached.pos_of_removePos found).2
  | addNeg =>
    cases next
    obtain ⟨clean, why⟩ := reached
    refine coherent.auth busy (fun _ _ found => Or.inl found) (fun hash hit => ?_) ⟨clean, fun row member uses => ?_⟩
    · by_cases mine : hash = K.hash plaintext
      · subst mine
        exact Or.inr ⟨Function.update_self _ _ _, why⟩
      · exact Or.inl ⟨(Function.update_of_ne mine _ _).symm.trans hit, Function.update_of_ne mine _ _⟩
    · exact ⟨s.now, why.absentBefore le_rfl member uses, by rw [sub_self]; decide⟩
  | getNeg =>
    simp only [AuthPC.next, Option.some.injEq, Prod.mk.injEq] at next
    obtain ⟨rfl, rfl⟩ := next
    cases hit : s.cache.neg (K.hash plaintext) with
    | true => exact coherent.look busy [] ⟨reached.1, coherent.stale hit⟩
    | false => exact coherent.look busy [] reached
  | getByHash =>
    cases fault with
    | some err =>
      cases next
      exact coherent.look busy [] ⟨rfl, reached.2⟩
    | none =>
      cases found : s.store.getByHash (K.hash plaintext) s.now with
      | none =>
        have answer : s.lookup (K.hash plaintext) none = .ok none := by rw [lookup, found]
        rw [answer] at next ⊢
        cases next
        exact coherent.look busy [.absent (K.hash plaintext) s.now] ⟨reached.1, .of_getByHash found⟩
      | some row =>
        have answer : s.lookup (K.hash plaintext) none = .ok (some row) := by rw [lookup, found]
        rw [answer] at next ⊢
        cases next
        obtain ⟨member, uses⟩ := APIKeyStore.of_getByHash found
        exact coherent.look busy [] ⟨reached.1, row, member, uses, rfl⟩
  | addPos info =>
    cases next
    obtain ⟨clean, row, member, uses, rfl⟩ := reached
    obtain ⟨same, active⟩ := APIKeyStore.active_of_usable uses
    refine coherent.auth busy (fun hash info found => ?_) (fun _ hit => Or.inl ⟨hit, rfl⟩)
      ⟨clean, row, member, uses, rfl⟩
    rcases Cached.pos_of_addPos found with ⟨rfl, rfl⟩ | old
    · exact Or.inr ⟨hashKey_ne_empty _ _, row, member, same, active, rfl⟩
    · exact Or.inl old
  | returned => cases next

/-- A revocation moves on without touching the store or the caches. -/
theorem Coherent.passRevoke (coherent : Coherent K s) {call call' : RevokeCall} (busy : s.current = some (.revoke call))
    (calm : ∀ hash, call.pc ≠ .removePos hash) (reached : s.RevokeReached K call') :
    Coherent K { s with current := some (.revoke call') } := by
  refine ⟨fun hash info found => ?_, coherent.neg, ?_⟩
  · obtain ⟨named, backed | ⟨id, revoking⟩⟩ := coherent.pos hash info found
    · exact ⟨named, Or.inl backed⟩
    · rw [busy] at revoking
      cases revoking
      exact absurd rfl (calm hash)
  · rintro _ ⟨⟩
    exact reached

/-- Switching a row off leaves the other entries backed; the entry of the row is
the next thing the revocation drops. -/
theorem Coherent.switchOff (coherent : Coherent K s) {call : RevokeCall} {hashHex : String}
    (busy : s.current = some (.revoke call)) (pc : call.pc = .revoke hashHex) {id : String}
    (named : K.uuid call.id = some id) :
    Coherent K { s with
      store := s.store.revoke id
      current := some (.revoke { call with pc := if hashHex = "" then .reply else .removePos hashHex }) } := by
  have reached : s.RevokeReached K call := coherent.call _ busy
  refine ⟨fun hash info found => ?_, fun hash hit => ?_, ?_⟩
  · obtain ⟨filled, backed | ⟨_, revoking⟩⟩ := coherent.pos hash info found
    · obtain ⟨row, member, same, active, rfl⟩ := backed
      refine ⟨filled, ?_⟩
      by_cases off : row.id = id
      · have mine : hashHex = hash := (reached hashHex pc id named row member off).symm.trans same
        subst mine
        exact Or.inr ⟨call.id, by simp [filled]⟩
      · have untouched : APIKeyStore.deactivate id row = row := if_neg off
        exact Or.inl ⟨row, untouched ▸ List.mem_map_of_mem member, same, active, rfl⟩
    · rw [busy] at revoking
      cases revoking
      cases pc
  · obtain ⟨past, young, why⟩ := coherent.neg hash hit
    exact ⟨past, young, why.revoke id⟩
  · rintro _ ⟨⟩ other at_
    split at at_ <;> cases at_

theorem Coherent.revokeStep (coherent : Coherent K s) {call : RevokeCall} (busy : s.current = some (.revoke call))
    {fault : Option String} (taken : s.revokeStep K call fault = some t) : Coherent K t := by
  obtain ⟨⟨pc', admin⟩, next, rfl⟩ := Option.map_eq_some_iff.mp taken
  obtain ⟨path, pc⟩ := call
  unfold KeyService.revokeNext at next
  cases pc with
  | getByID =>
    dsimp only at next
    split at next
    · cases next
      exact coherent.passRevoke busy nofun nofun
    · split at next
      · rename_i row found
        cases next
        refine coherent.passRevoke busy nofun ?_
        rintro _ ⟨⟩ id named other member rfl
        obtain ⟨held, at_, same⟩ := APIKeyStore.getByID_of_key (List.mem_map_of_mem member)
        rw [named] at found
        cases at_.symm.trans found
        exact same.symm
      · rename_i missing
        cases next
        refine coherent.passRevoke busy nofun ?_
        rintro _ ⟨⟩ id named other member rfl
        obtain ⟨held, at_, _⟩ := APIKeyStore.getByID_of_key (List.mem_map_of_mem member)
        rw [named] at missing
        cases at_.symm.trans missing
  | revoke hashHex =>
    dsimp only at next
    split at next
    · cases next
      exact coherent.passRevoke busy nofun nofun
    · cases next
      cases named : K.uuid path with
      | none =>
        refine coherent.passRevoke busy nofun ?_
        intro other at_
        dsimp only at at_
        split at at_ <;> cases at_
      | some id => exact coherent.switchOff busy rfl named
  | removePos hashHex =>
    cases next
    refine ⟨fun hash info found => ?_, coherent.neg, ?_⟩
    · obtain ⟨other, old⟩ := Cached.pos_of_removePos found
      obtain ⟨filled, backed | ⟨_, revoking⟩⟩ := coherent.pos hash info old
      · exact ⟨filled, Or.inl backed⟩
      · rw [busy] at revoking
        cases revoking
        exact absurd rfl other
    · rintro _ ⟨⟩ _ ⟨⟩
  | removeNeg hashHex =>
    cases next
    have passed : Coherent K { s with current := some (.revoke ⟨path, .reply⟩) } :=
      coherent.passRevoke busy nofun nofun
    refine ⟨passed.pos, fun hash hit => passed.neg hash (Cached.neg_of_removeNeg hit), ?_⟩
    rintro _ ⟨⟩ _ ⟨⟩
  | reply =>
    cases next
    exact coherent.passRevoke busy nofun nofun
  | replied => cases next

/-- What leaves a cache takes nothing from the others. -/
theorem Coherent.evict (coherent : Coherent K s) {drop : Cached → Cached}
    (pos : ∀ hash info, (drop s.cache).pos hash = some info → s.cache.pos hash = some info)
    (neg : ∀ hash, (drop s.cache).neg hash = true → s.cache.neg hash = true) : Coherent K (s.evict drop) := by
  refine ⟨fun hash info found => ?_, fun hash hit => coherent.neg hash (neg hash hit), ?_⟩
  · obtain ⟨filled, backed | ⟨id, revoking⟩⟩ := coherent.pos hash info (pos hash info found)
    · exact ⟨filled, Or.inl backed⟩
    · exact ⟨filled, Or.inr ⟨id, by rw [SoleState.evict, revoking]; rfl⟩⟩
  · intro call busy
    obtain ⟨old, at_, rfl⟩ := Option.map_eq_some_iff.mp busy
    have reached := coherent.call old at_
    cases old with
    | revoke call => exact reached
    | auth call =>
      obtain ⟨plaintext, pc, failure, kept⟩ := call
      cases pc with
      | getPos | getNeg | getByHash => exact ⟨reached.1, congrArg drop reached.2⟩
      | removePos | addNeg | addPos => exact reached
      | returned result =>
        rcases result with (_ | err) | info
        · exact reached
        · exact ⟨reached.1, congrArg drop reached.2⟩
        · exact reached

/-- Between two calls every positive entry is backed. -/
theorem Coherent.idle (coherent : Coherent K s) (calm : ∀ id hash, s.current ≠ some (.revoke ⟨id, .removePos hash⟩))
    {hash : String} {info : KeyInfo} (found : s.cache.pos hash = some info) :
    hash ≠ "" ∧ Backed s.store hash info := by
  obtain ⟨filled, backed | ⟨id, revoking⟩⟩ := coherent.pos hash info found
  · exact ⟨filled, backed⟩
  · exact absurd revoking (calm id hash)

theorem Coherent.advance (coherent : Coherent K s) (free : s.current = none) {now : Int} (later : s.now ≤ now) :
    Coherent K (s.advance L now) := by
  refine ⟨fun hash info found => ?_, fun hash hit => ?_, ?_⟩
  · obtain ⟨filled, backed⟩ := coherent.idle (by simp [free]) found
    exact ⟨filled, Or.inl backed⟩
  · simp only [SoleState.advance, Bool.and_eq_true] at hit ⊢
    obtain ⟨past, _, why⟩ := coherent.neg hash hit.1
    refine ⟨past.trans later, ?_, why⟩
    by_contra old
    rw [L.expires _ _ (by decide) (not_lt.mp old)] at hit
    cases hit.2
  · intro call busy
    cases free.symm.trans busy

theorem Coherent.create (coherent : Coherent K s) (free : s.current = none) {store : APIKeyStore} {k : NewKey}
    {id hashHex : String} {row : APIKey} (created : s.store.create k id hashHex = some (row, store)) :
    Coherent K { s with store := store, history := .created row.id :: s.history } := by
  refine ⟨fun hash info found => ?_, fun hash hit => ?_, ?_⟩
  · obtain ⟨filled, old, member, rest⟩ := coherent.idle (by simp [free]) found
    obtain ⟨_, rows, _⟩ := APIKeyStore.create_eq_some created
    exact ⟨filled, Or.inl ⟨old, rows ▸ List.mem_cons_of_mem _ member, rest⟩⟩
  · obtain ⟨past, young, why⟩ := coherent.neg hash hit
    exact ⟨past, young, why.create created⟩
  · intro call busy
    cases free.symm.trans busy

/-- A call begins, or the last one is over. -/
theorem Coherent.switch (coherent : Coherent K s) {current : Option SoleCall}
    (calm : ∀ id hash, s.current ≠ some (.revoke ⟨id, .removePos hash⟩))
    (reached : ∀ call, current = some call → Reached K { s with current := current } call) :
    Coherent K { s with current := current } := by
  refine ⟨fun hash info found => ?_, coherent.neg, reached⟩
  obtain ⟨filled, backed⟩ := coherent.idle calm found
  exact ⟨filled, Or.inl backed⟩

theorem Coherent.step (coherent : Coherent K s) {a : SoleAction} (taken : step K L s a = some t) : Coherent K t := by
  cases a with
  | authenticate plaintext =>
    simp only [SoleState.step, Option.ite_none_left_eq_some, Option.not_isSome_iff_eq_none] at taken
    obtain ⟨free, ⟨⟩⟩ := taken
    refine coherent.switch (by simp [free]) ?_
    rintro _ ⟨⟩
    exact ⟨rfl, rfl⟩
  | revoke id =>
    simp only [SoleState.step, Option.ite_none_left_eq_some, Option.not_isSome_iff_eq_none] at taken
    obtain ⟨free, ⟨⟩⟩ := taken
    refine coherent.switch (by simp [free]) ?_
    rintro _ ⟨⟩ hashHex at_
    dsimp only at at_
    split at at_ <;> cases at_
  | create call =>
    simp only [SoleState.step, Option.ite_none_left_eq_some, Option.not_isSome_iff_eq_none] at taken
    obtain ⟨free, taken⟩ := taken
    rcases call.run_cases K.sha256 s.store with
      ⟨same, e, failed⟩ | ⟨req, plaintext, row, store, _, created, after, response, replied, _, named⟩
    · rw [show call.run K.sha256 s.store = (.error e, s.store) from Prod.ext failed same] at taken
      cases taken
      exact coherent
    · rw [show call.run K.sha256 s.store = (.ok response, store) from Prod.ext replied after] at taken
      cases taken
      rw [named]
      exact coherent.create free created
  | step fault =>
    simp only [SoleState.step] at taken
    split at taken
    · rename_i busy
      exact coherent.authStep busy taken
    · rename_i busy
      exact coherent.revokeStep busy taken
    · cases taken
  | finish =>
    simp only [SoleState.step, Option.ite_none_right_eq_some] at taken
    obtain ⟨ended, ⟨⟩⟩ := taken
    refine coherent.switch (fun id hash revoking => ?_) ?_
    · rw [revoking] at ended
      cases ended
    · rintro _ ⟨⟩
  | evictPos hash =>
    cases taken
    exact coherent.evict (fun _ _ found => (Cached.pos_of_removePos found).2) fun _ hit => hit
  | evictNeg hash =>
    cases taken
    exact coherent.evict (fun _ _ found => found) fun _ hit => Cached.neg_of_removeNeg hit
  | clock now =>
    simp only [SoleState.step, Option.ite_none_left_eq_some, not_or, Option.not_isSome_iff_eq_none] at taken
    obtain ⟨⟨free, later⟩, ⟨⟩⟩ := taken
    exact coherent.advance free (not_lt.mp later)

/-- Whatever calls an instance has handled one after the other: an accepted key
has a usable row with the fields returned; a usable row is refused only for
less than the negative time to live after a query that came before the row; and
an error of the store is handed on and leaves both caches alone. -/
theorem authenticate_sound (K : KeyService) (L : ExpiringLRU) (store : APIKeyStore) (now : Int)
    {actions : List SoleAction} {final : SoleState}
    (taken : Transition.run (SoleState.step K L) (start store now) actions = some final) {call : SoleAuth}
    {result : Except AuthError KeyInfo} (current : final.current = some (.auth call))
    (returned : call.pc = .returned result) :
    (∀ info, result = .ok info → final.Valid (K.hash call.plaintext) info) ∧
      (result = .error .invalidKey → final.Stale (K.hash call.plaintext)) ∧
      (∀ err, call.failure = some err ↔ result = .error (.store err)) ∧
      (∀ err, call.failure = some err → final.cache = call.kept) := by
  have coherent : Coherent K final := Transition.run_invariant (fun _ _ _ inv next => Coherent.step inv next)
    (coherent_start store now) taken
  have reached : final.AuthReached K call := coherent.call _ current
  unfold AuthReached at reached
  rw [returned] at reached
  rcases result with (_ | err) | info
  · obtain ⟨clean, stale⟩ := reached
    simp [clean, stale]
  · obtain ⟨failed, same⟩ := reached
    simp [failed, same]
  · obtain ⟨clean, valid⟩ := reached
    simpa [clean] using valid

/-- A text is tried as a key, a key of that very text is minted five seconds
later, and it is tried again. -/
def mintedLate : List SoleAction :=
  [.authenticate "sk-gw-bbbbbbbbbbbbbbbbbbbbbbbbbbbbbbbb", .step none, .step none, .step none, .step none, .finish,
    .clock 5000000000,
    .create ⟨some { orgID := "org", name := "ci" }, KeyService.sampleBytes, "id", false⟩,
    .authenticate "sk-gw-bbbbbbbbbbbbbbbbbbbbbbbbbbbbbbbb", .step none, .step none]

/-- The second time the key has a usable row and is still refused. -/
theorem authenticate_sound_minted_late :
    let hash := KeyService.sample.hash "sk-gw-bbbbbbbbbbbbbbbbbbbbbbbbbbbbbbbb"
    hash ≠ KeyService.sample.hash "sk-gw-8Jf2kQz0" ∧
      ∃ final row, Transition.run (SoleState.step KeyService.sample .punctual) (start ⟨[], .nil, .nil⟩ 0)
          mintedLate = some final ∧
        row ∈ final.store.rows ∧ APIKeyStore.usable row hash final.now = true ∧ final.Stale hash := by
  intro hash
  obtain ⟨final, kept, row, taken, current, member, usable⟩ : ∃ final kept row,
      Transition.run (SoleState.step KeyService.sample .punctual) (start ⟨[], .nil, .nil⟩ 0) mintedLate =
        some final ∧
      final.current = some (.auth ⟨"sk-gw-bbbbbbbbbbbbbbbbbbbbbbbbbbbbbbbb", .returned (.error .invalidKey), none,
        kept⟩) ∧
      row ∈ final.store.rows ∧ APIKeyStore.usable row hash final.now = true :=
    ⟨_, _, _, rfl, rfl, List.mem_cons_self, rfl⟩
  exact ⟨by decide, final, row, taken, member, usable, (authenticate_sound _ _ _ _ taken current rfl).2.1 rfl⟩

end SoleState

end LlmGateway
