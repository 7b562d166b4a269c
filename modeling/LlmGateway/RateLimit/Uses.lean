import LlmGateway.RateLimit.Anonymous
import LlmGateway.RateLimit.Fleet

namespace LlmGateway

/-- A call of the limiter: the instance that makes it, the API key it is for
and, when it is `RecordTokens` and not `Reserve`, the tokens. -/
structure LimiterUse (ι : Type) where
  caller : ι
  key : KeyInfo
  tokens : Option Int

/-- How far a call has come. The two middle phases wait for the server. -/
inductive UsePhase where
  | idle
  | reserving (nowMs : Int) (args : CheckArgs)
  | recording (args : RecordArgs)
  | reserved (parsed : Option CheckResult) (reservation : Except String Reservation)
  | recorded

namespace UsePhase

/-- The id of the script call that the server has not run yet. -/
def pendingID : UsePhase → Option String
  | .reserving _ args => some args.reqID
  | .recording args => some args.reqID
  | _ => none

/-- What `Reserve` has returned, with the parsed script result behind it. -/
def returned : UsePhase → Option (Option CheckResult × Except String Reservation)
  | .reserved parsed reservation => some (parsed, reservation)
  | _ => none

/-- The phases differ at most in the request id. -/
inductive Alike : UsePhase → UsePhase → Prop where
  | idle : Alike .idle .idle
  | reserving (nowMs : Int) (args : CheckArgs) (id : String) :
    Alike (.reserving nowMs args) (.reserving nowMs (args.withID id))
  | recording (args : RecordArgs) (id : String) : Alike (.recording args) (.recording { args with reqID := id })
  | reserved (parsed : Option CheckResult) (reservation : Except String Reservation) :
    Alike (.reserved parsed reservation) (.reserved parsed reservation)
  | recorded : Alike .recorded .recorded

theorem Alike.returned {phase phase' : UsePhase} (alike : phase.Alike phase') : phase.returned = phase'.returned := by
  cases alike <;> rfl

/-- A script call in flight is one on the key. -/
def SentFor (key : KeyInfo) : UsePhase → Prop
  | .reserving _ args => args.rpmKey = rpmKey key ∧ args.tpmKey = tpmKey key
  | .recording args => args.key = tpmKey key ∧ 0 < args.tokens
  | _ => True

end UsePhase

section Calls

variable {ι : Type} (F : Fleet ι)

/-- The call up to the script call: `reserveCall` or `recordCall`. -/
def LimiterUse.send (use : LimiterUse ι) (g : Gateway) (nowMs : Int) : UsePhase × Gateway :=
  match use.tokens with
  | none =>
    match (F.limiter use.caller).reserveCall g use.key nowMs with
    | (none, g) => (.reserved none (.ok { allowed := true }), g)
    | (some args, g) => (.reserving nowMs args, g)
  | some tokens =>
    match (F.limiter use.caller).recordCall g use.key nowMs tokens with
    | (none, g) => (.recorded, g)
    | (some args, g) => (.recording args, g)

/-- What `Reserve` makes of the script's reply. -/
def LimiterUse.answer (use : LimiterUse ι) (nowMs : Int) (reply : CheckReply) : UsePhase :=
  let lim := F.limiter use.caller
  match parseCheckResult reply.toResp with
  | .error e => .reserved none (.error e)
  | .ok parsed =>
    .reserved (some parsed) (.ok (lim.reservationOf (lim.effectiveRPM use.key) (lim.effectiveTPM use.key) nowMs parsed))

/-- The script call of a phase that waits for the server. -/
def LimiterUse.execute (use : LimiterUse ι) (r : Redis) : UsePhase → Option (UsePhase × Redis)
  | .reserving nowMs args => some (use.answer F nowMs (check r args).1, (check r args).2)
  | .recording args => some (.recorded, tpmRecord r args)
  | _ => none

variable {F} {use : LimiterUse ι}

theorem LimiterUse.answer_reserved (use : LimiterUse ι) (nowMs : Int) (reply : CheckReply) :
    ∃ parsed reservation, use.answer F nowMs reply = .reserved parsed reservation := by
  unfold answer
  dsimp only
  rw [parseCheckResult_toResp]
  exact ⟨_, _, rfl⟩

/-- Only a phase that waits for the server has a script call to run. -/
theorem LimiterUse.execute_cases {r q : Redis} {phase next : UsePhase}
    (done : use.execute F r phase = some (next, q)) :
    (∃ nowMs args parsed reservation, phase = .reserving nowMs args ∧ next = .reserved parsed reservation ∧
      q = (check r args).2) ∨
    ∃ args, phase = .recording args ∧ next = .recorded ∧ q = tpmRecord r args := by
  cases phase with
  | reserving nowMs args =>
    obtain ⟨rfl, rfl⟩ := Prod.mk.inj (Option.some.inj done)
    obtain ⟨parsed, reservation, answered⟩ := use.answer_reserved (F := F) nowMs (check r args).1
    exact Or.inl ⟨nowMs, args, parsed, reservation, rfl, answered, rfl⟩
  | recording args =>
    cases done
    exact Or.inr ⟨args, rfl, rfl, rfl⟩
  | idle => cases done
  | reserved => cases done
  | recorded => cases done

/-- A `Reserve` that is sent and then answered is `reserve`. -/
theorem LimiterUse.reserve_of_send {g g' : Gateway} {nowMs : Int} {args : CheckArgs} (reserves : use.tokens = none)
    (sends : use.send F g nowMs = (.reserving nowMs args, g')) (r : Redis) :
    ∃ parsed reservation q, use.execute F r (.reserving nowMs args) = some (.reserved parsed reservation, q) ∧
      (F.limiter use.caller).reserve g r use.key nowMs = ⟨reservation, parsed, g', q⟩ := by
  rw [send, reserves] at sends
  dsimp only at sends
  split at sends
  · cases sends
  · rename_i asked called
    cases sends
    refine ⟨_, _, _, rfl, ?_⟩
    rw [RedisLimiter.reserve, called]
    rfl

/-- A call either returns at once or sends a script call in which only the
request id depends on the instance's counter. -/
theorem LimiterUse.send_cases (F : Fleet ι) (use : LimiterUse ι) (nowMs : Int) :
    (∃ phase, phase.pendingID = none ∧ phase.Alike phase ∧ phase.SentFor use.key ∧
      ∀ g, use.send F g nowMs = (phase, g)) ∨
    (∃ sent : String → UsePhase, (∀ id, (sent id).pendingID = some id ∧ (sent id).SentFor use.key) ∧
      (∀ id id', (sent id).Alike (sent id')) ∧
      ∀ g, use.send F g nowMs = (sent (g.newReqID nowMs).1, (g.newReqID nowMs).2)) := by
  unfold send
  cases use.tokens with
  | none =>
    by_cases unlimited : (F.limiter use.caller).effectiveRPM use.key ≤ 0 ∧
        (F.limiter use.caller).effectiveTPM use.key ≤ 0
    · refine Or.inl ⟨_, rfl, .reserved none (.ok { allowed := true }), trivial, fun g => ?_⟩
      simp only [RedisLimiter.reserveCall, if_pos unlimited]
    · refine Or.inr ⟨fun id => .reserving nowMs ⟨rpmKey use.key, tpmKey use.key, nowMs,
        (F.limiter use.caller).windowMs, (F.limiter use.caller).effectiveRPM use.key,
        (F.limiter use.caller).effectiveTPM use.key, id⟩, fun id => ⟨rfl, rfl, rfl⟩,
        fun id id' => .reserving nowMs _ id', fun g => ?_⟩
      simp only [RedisLimiter.reserveCall, if_neg unlimited]
  | some tokens =>
    by_cases nothing : tokens ≤ 0 ∨ (F.limiter use.caller).effectiveTPM use.key ≤ 0
    · refine Or.inl ⟨_, rfl, .recorded, trivial, fun g => ?_⟩
      rcases (F.limiter use.caller).recordCall_cases g use.key nowMs tokens with ⟨_, idle⟩ | ⟨_, _, _⟩
      · simp only [idle]
      · omega
    · refine Or.inr ⟨fun id => .recording ⟨tpmKey use.key, nowMs, (F.limiter use.caller).windowMs, id, tokens⟩,
        fun id => ⟨rfl, rfl, by show 0 < tokens; omega⟩, fun id id' => .recording _ id', fun g => ?_⟩
      rcases (F.limiter use.caller).recordCall_cases g use.key nowMs tokens with ⟨_, _⟩ | ⟨_, _, sent⟩
      · omega
      · simp only [sent]

theorem LimiterUse.send_alike (F : Fleet ι) (use : LimiterUse ι) (g g' : Gateway) (nowMs : Int) :
    (use.send F g nowMs).1.Alike (use.send F g' nowMs).1 := by
  rcases use.send_cases F nowMs with ⟨phase, _, alike, _, sends⟩ | ⟨sent, _, alike, sends⟩
  · rw [sends, sends]
    exact alike
  · rw [sends, sends]
    exact alike _ _

/-- The member is how the id is stored at the key: plain in an RPM set, with the
tokens in a TPM set. -/
inductive StoredAs (id : String) : String → String → Prop where
  | tick (key : KeyInfo) : StoredAs id (rpmKey key) id
  | tokens (key : KeyInfo) {n : Int} (positive : 0 < n) : StoredAs id (tpmKey key) (tpmMember id n)

theorem StoredAs.injective {id id' key member : String} (stored : StoredAs id key member)
    (stored' : StoredAs id' key member) : id = id' := by
  cases stored with
  | tick owner =>
    generalize at_ : rpmKey owner = key at stored'
    cases stored' with
    | tick => rfl
    | tokens other => exact absurd at_ (rpmKey_ne_tpmKey owner other)
  | @tokens owner n positive =>
    generalize at_ : tpmKey owner = key at stored'
    generalize text : tpmMember id n = member at stored'
    cases stored' with
    | tick other => exact absurd at_.symm (rpmKey_ne_tpmKey other owner)
    | tokens _ positive' => exact tpmMember_injective positive positive' text

/-- Running the script call of a phase touches the two keys of the tenant only,
and adds nothing to them but the id of the call. -/
theorem LimiterUse.execute_spec {r q : Redis} {phase next : UsePhase} (sentFor : phase.SentFor use.key)
    (done : use.execute F r phase = some (next, q)) :
    ∃ id, phase.pendingID = some id ∧ next.pendingID = none ∧ next.SentFor use.key ∧ q.time = r.time ∧
      (∀ key, key ≠ rpmKey use.key → key ≠ tpmKey use.key → q.slots key = r.slots key) ∧
      ∀ key e, q.Stores key e → r.Stores key e ∨ StoredAs id key e.member := by
  rcases LimiterUse.execute_cases done with ⟨_, args, _, _, rfl, rfl, rfl⟩ | ⟨args, rfl, rfl, rfl⟩
  · refine ⟨args.reqID, rfl, rfl, trivial, time_check r args, fun key rpm tpm => ?_, fun key e stores => ?_⟩
    · exact slots_check_ne (sentFor.1 ▸ rpm) (sentFor.2 ▸ tpm)
    · rcases stores.of_check with old | ⟨rfl, rfl⟩
      · exact Or.inl old
      · exact Or.inr (sentFor.1 ▸ .tick use.key)
  · refine ⟨args.reqID, rfl, rfl, trivial, rfl, fun key _ tpm => slots_tpmRecord_ne (sentFor.1 ▸ tpm),
      fun key e stores => ?_⟩
    rcases stores.of_zadd_expire with old | ⟨rfl, rfl⟩
    · exact Or.inl old
    · exact Or.inr (sentFor.1 ▸ .tokens use.key sentFor.2)

/-- The script calls of two alike phases, each with an id that its server has
not stored, leave alike servers and alike phases. -/
theorem LimiterUse.execute_alike {r r' q : Redis} {phase phase' next : UsePhase} (sentFor : phase.SentFor use.key)
    (alike : phase.Alike phase') (rpm : r.AlikeAt r' (rpmKey use.key)) (tpm : r.AlikeAt r' (tpmKey use.key))
    (plain : ∀ id, phase.pendingID = some id ∨ phase'.pendingID = some id → memberTokens id = 0)
    (fresh : ∀ id, phase.pendingID = some id → ∀ key e, r.Stores key e → ¬StoredAs id key e.member)
    (fresh' : ∀ id, phase'.pendingID = some id → ∀ key e, r'.Stores key e → ¬StoredAs id key e.member)
    (done : use.execute F r phase = some (next, q)) :
    ∃ next' q', use.execute F r' phase' = some (next', q') ∧ next.Alike next' ∧
      q.AlikeAt q' (rpmKey use.key) ∧ q.AlikeAt q' (tpmKey use.key) := by
  cases alike with
  | reserving nowMs args id =>
    obtain ⟨rfl, rfl⟩ := Prod.mk.inj (Option.some.inj done)
    have both : args.AlikeOn r r' := ⟨sentFor.1 ▸ rpm, sentFor.2 ▸ tpm⟩
    have apart : args.rpmKey ≠ args.tpmKey := by
      rw [sentFor.1, sentFor.2]
      exact rpmKey_ne_tpmKey use.key use.key
    obtain ⟨reply, after⟩ := both.check apart ((plain args.reqID (.inl rfl)).trans (plain id (.inr rfl)).symm)
      (fun e stores same => fresh args.reqID rfl _ e stores (by rw [same, sentFor.1]; exact .tick use.key))
      (fun e stores same => fresh' id rfl _ e stores (by rw [same, sentFor.1]; exact .tick use.key))
    refine ⟨_, _, rfl, ?_, sentFor.1 ▸ after.rpm, sentFor.2 ▸ after.tpm⟩
    obtain ⟨parsed, reservation, answered⟩ := use.answer_reserved (F := F) nowMs (check r args).1
    rw [← reply, answered]
    exact .reserved parsed reservation
  | recording args id =>
    cases done
    have counted : memberTokens (tpmMember args.reqID args.tokens) = memberTokens (tpmMember id args.tokens) := by
      rw [memberTokens_tpmMember _ sentFor.2, memberTokens_tpmMember _ sentFor.2]
    have at_ : r.AlikeAt r' args.key := sentFor.1 ▸ tpm
    have added := (at_.zadd counted
      (fun e member same => fresh args.reqID rfl _ e (Redis.stores_of_mem_zset member)
        (by rw [same, sentFor.1]; exact .tokens use.key sentFor.2))
      (fun e member same => fresh' id rfl _ e (Redis.stores_of_mem_zset member)
        (by rw [same, sentFor.1]; exact .tokens use.key sentFor.2)) args.now).expire (args.window * 2)
    have apart : rpmKey use.key ≠ args.key := sentFor.1 ▸ rpmKey_ne_tpmKey use.key use.key
    exact ⟨_, _, rfl, .recorded, rpm.of_slots rfl rfl (slots_tpmRecord_ne apart) (slots_tpmRecord_ne apart),
      sentFor.1 ▸ added⟩
  | idle => cases done
  | reserved => cases done
  | recorded => cases done

end Calls

/-- The instances, the calls and the server they share. -/
structure UseState (ι κ : Type) where
  gateways : ι → Gateway
  phase : κ → UsePhase
  redis : Redis

/-- A call takes its stamp and sends its script call, the server runs a script
call, or the server clock moves. -/
inductive UseAction (κ : Type) where
  | send (c : κ) (nowMs : Int)
  | execute (c : κ)
  | serverClock (time : Int)

namespace UseState

variable {ι κ : Type} [DecidableEq ι] [DecidableEq κ] (F : Fleet ι) (uses : κ → LimiterUse ι)

def start (time : Int) : UseState ι κ where
  gateways := fun i => ⟨F.instanceID i, 0⟩
  phase := fun _ => .idle
  redis := Redis.fresh time

def step (s : UseState ι κ) : UseAction κ → Option (UseState ι κ)
  | .send c nowMs =>
    match s.phase c with
    | .idle =>
      let (phase, g) := (uses c).send F (s.gateways (uses c).caller) nowMs
      some { s with
        gateways := Function.update s.gateways (uses c).caller g, phase := Function.update s.phase c phase }
    | _ => none
  | .execute c =>
    ((uses c).execute F s.redis (s.phase c)).map fun (phase, r) =>
      { s with phase := Function.update s.phase c phase, redis := r }
  | .serverClock time => some { s with redis := { s.redis with time := time } }

variable {F uses} {s t : UseState ι κ} {c : κ}

theorem step_send {nowMs : Int} (taken : step F uses s (.send c nowMs) = some t) :
    s.phase c = .idle ∧ t = { s with
      gateways := Function.update s.gateways (uses c).caller
        ((uses c).send F (s.gateways (uses c).caller) nowMs).2
      phase := Function.update s.phase c ((uses c).send F (s.gateways (uses c).caller) nowMs).1 } := by
  simp only [step] at taken
  split at taken
  · rename_i idle
    exact ⟨idle, (Option.some.inj taken).symm⟩
  · cases taken

theorem step_execute (taken : step F uses s (.execute c) = some t) :
    ∃ next q, (uses c).execute F s.redis (s.phase c) = some (next, q) ∧
      t = { s with phase := Function.update s.phase c next, redis := q } := by
  obtain ⟨⟨next, q⟩, done, after⟩ := Option.map_eq_some_iff.mp taken
  exact ⟨next, q, done, after.symm⟩

end UseState

section Tidy

/-- A request id has no colon, so `check.lua` would read no tokens from it. -/
theorem Issued.memberTokens_eq {ι : Type} {F : Fleet ι} {gateways : ι → Gateway} {id : String}
    (issued : Issued gateways id) (owned : Owned F gateways) : memberTokens id = 0 := by
  obtain ⟨i, nowMs, n, rfl, _⟩ := issued
  obtain ⟨random, unixNano, made⟩ := F.made i
  have name : ':' ∉ (gateways i).instanceID.toList := by
    rw [owned i, made]
    exact notMem_newInstanceID (.inr rfl) random unixNano
  have plain : ':' ∉ (reqIDText (gateways i).instanceID nowMs n).toList := by
    rw [toList_reqIDText]
    simp only [List.mem_append, List.mem_cons, not_or]
    exact ⟨⟨name, by decide, Numeral.notMem_int_repr (by decide) (by decide) nowMs⟩, by decide,
      Numeral.notMem_repr (by decide) n⟩
  rw [memberTokens, afterLastColon_of_notMem plain]
  rfl

variable {ι κ : Type} {F : Fleet ι} {uses : κ → LimiterUse ι} {s : UseState ι κ}

/-- Some instance has drawn the id, and no script call waits under it. -/
def UseState.Settled (s : UseState ι κ) (id : String) : Prop :=
  Issued s.gateways id ∧ ∀ c, (s.phase c).pendingID ≠ some id

/-- Every id belongs to one call, and what the server stores comes from calls
that it has run. -/
structure UseState.Tidy (F : Fleet ι) (uses : κ → LimiterUse ι) (s : UseState ι κ) : Prop where
  owned : Owned F s.gateways
  sentFor : ∀ c, (s.phase c).SentFor (uses c).key
  issued : ∀ c id, (s.phase c).pendingID = some id → Issued s.gateways id
  distinct : ∀ c d id, (s.phase c).pendingID = some id → (s.phase d).pendingID = some id → c = d
  stored : ∀ key e, s.redis.Stores key e → ∃ id, StoredAs id key e.member ∧ s.Settled id

namespace UseState

theorem Tidy.fresh (tidy : Tidy F uses s) {c : κ} {id : String} (pending : (s.phase c).pendingID = some id)
    (key : String) (e : ScoredMember String) (stores : s.redis.Stores key e) : ¬StoredAs id key e.member := by
  intro mine
  obtain ⟨other, theirs, _, settled⟩ := tidy.stored key e stores
  exact settled c (pending.trans (congrArg some (mine.injective theirs)))

theorem tidy_start (time : Int) : Tidy F uses (start F time) where
  owned := fun _ => rfl
  sentFor := fun _ => trivial
  issued := by
    rintro c id ⟨⟩
  distinct := by
    rintro c d id ⟨⟩
  stored := by
    rintro key e ⟨s, ⟨⟩, _⟩

theorem Tidy.serverClock (tidy : Tidy F uses s) (time : Int) :
    Tidy F uses { s with redis := { s.redis with time := time } } :=
  ⟨tidy.owned, tidy.sentFor, tidy.issued, tidy.distinct, tidy.stored⟩

variable [DecidableEq κ]

/-- A call that has no id returns without one. -/
theorem Tidy.quiet (tidy : Tidy F uses s) {c : κ} {phase : UsePhase} (idle : (s.phase c).pendingID = none)
    (silent : phase.pendingID = none) (sentFor : phase.SentFor (uses c).key) :
    Tidy F uses { s with phase := Function.update s.phase c phase } := by
  have same (d : κ) : (Function.update s.phase c phase d).pendingID = (s.phase d).pendingID := by
    by_cases here : d = c
    · subst d
      rw [Function.update_self, silent, idle]
    · rw [Function.update_of_ne here]
  refine ⟨tidy.owned, ?_, ?_, ?_, ?_⟩
  · exact (Function.forall_update_iff s.phase fun d phase => phase.SentFor (uses d).key).mpr
      ⟨sentFor, fun d _ => tidy.sentFor d⟩
  · simpa only [same] using tidy.issued
  · simpa only [same] using tidy.distinct
  · simpa only [Settled, same] using tidy.stored

/-- A call draws an id and waits under it. -/
theorem Tidy.draw [DecidableEq ι] (tidy : Tidy F uses s) {c : κ} {sent : String → UsePhase} (nowMs : Int) (i : ι)
    (waits : ∀ id, (sent id).pendingID = some id ∧ (sent id).SentFor (uses c).key) :
    Tidy F uses { s with
      gateways := Function.update s.gateways i ((s.gateways i).newReqID nowMs).2
      phase := Function.update s.phase c (sent ((s.gateways i).newReqID nowMs).1) } := by
  have new := newReqID_not_issued tidy.owned i nowMs
  have mine := waits ((s.gateways i).newReqID nowMs).1
  have grown := issued_newReqID s.gateways i nowMs
  have kept (id : String) (issued : Issued s.gateways id) := issued.newReqID i nowMs
  generalize ((s.gateways i).newReqID nowMs).1 = id at new mine grown ⊢
  have pending (d : κ) (other : String) (waiting : (Function.update s.phase c (sent id) d).pendingID = some other) :
      d = c ∧ other = id ∨ d ≠ c ∧ other ≠ id ∧ (s.phase d).pendingID = some other := by
    by_cases here : d = c
    · subst d
      rw [Function.update_self, mine.1] at waiting
      exact Or.inl ⟨rfl, (Option.some.inj waiting).symm⟩
    · rw [Function.update_of_ne here] at waiting
      refine Or.inr ⟨here, ?_, waiting⟩
      rintro rfl
      exact new (tidy.issued d _ waiting)
  refine ⟨tidy.owned.newReqID i nowMs, ?_, ?_, ?_, ?_⟩
  · exact (Function.forall_update_iff s.phase fun d phase => phase.SentFor (uses d).key).mpr
      ⟨mine.2, fun d _ => tidy.sentFor d⟩
  · intro d other waiting
    rcases pending d other waiting with ⟨_, rfl⟩ | ⟨_, _, old⟩
    · exact grown
    · exact kept other (tidy.issued d other old)
  · intro d d' other waiting waiting'
    rcases pending d other waiting with ⟨rfl, rfl⟩ | ⟨_, differs, old⟩
    · rcases pending d' other waiting' with ⟨rfl, _⟩ | ⟨_, differs, _⟩
      · rfl
      · exact absurd rfl differs
    · rcases pending d' other waiting' with ⟨_, same⟩ | ⟨_, _, old'⟩
      · exact absurd same differs
      · exact tidy.distinct d d' other old old'
  · intro key e stores
    obtain ⟨other, form, issued, unused⟩ := tidy.stored key e stores
    refine ⟨other, form, kept other issued, fun d waiting => ?_⟩
    rcases pending d other waiting with ⟨_, rfl⟩ | ⟨_, _, old⟩
    · exact new issued
    · exact unused d old

/-- The server runs the script call of a call. -/
theorem Tidy.execute (tidy : Tidy F uses s) {c : κ} {next : UsePhase} {q : Redis}
    (done : (uses c).execute F s.redis (s.phase c) = some (next, q)) :
    Tidy F uses { s with phase := Function.update s.phase c next, redis := q } := by
  obtain ⟨id, mine, silent, sentFor, _, _, added⟩ := LimiterUse.execute_spec (tidy.sentFor c) done
  have pending (d : κ) (other : String) (waiting : (Function.update s.phase c next d).pendingID = some other) :
      d ≠ c ∧ (s.phase d).pendingID = some other := by
    by_cases here : d = c
    · subst d
      rw [Function.update_self, silent] at waiting
      cases waiting
    · rw [Function.update_of_ne here] at waiting
      exact ⟨here, waiting⟩
  refine ⟨tidy.owned, ?_, ?_, ?_, ?_⟩
  · exact (Function.forall_update_iff s.phase fun d phase => phase.SentFor (uses d).key).mpr
      ⟨sentFor, fun d _ => tidy.sentFor d⟩
  · intro d other waiting
    exact tidy.issued d other (pending d other waiting).2
  · intro d d' other waiting waiting'
    exact tidy.distinct d d' other (pending d other waiting).2 (pending d' other waiting').2
  · intro key e stores
    rcases added key e stores with old | new
    · obtain ⟨other, form, issued, unused⟩ := tidy.stored key e old
      exact ⟨other, form, issued, fun d waiting => unused d (pending d other waiting).2⟩
    · refine ⟨id, new, tidy.issued c id mine, fun d waiting => ?_⟩
      obtain ⟨elsewhere, old⟩ := pending d id waiting
      exact elsewhere (tidy.distinct d c id old mine)

/-- A call starts: with an id or without. -/
theorem Tidy.send [DecidableEq ι] (tidy : Tidy F uses s) {c : κ} (idle : s.phase c = .idle) (nowMs : Int) :
    Tidy F uses { s with
      gateways := Function.update s.gateways (uses c).caller
        ((uses c).send F (s.gateways (uses c).caller) nowMs).2
      phase := Function.update s.phase c ((uses c).send F (s.gateways (uses c).caller) nowMs).1 } := by
  rcases (uses c).send_cases F nowMs with ⟨phase, silent, _, sentFor, sends⟩ | ⟨sent, waits, _, sends⟩
  · rw [sends, Function.update_eq_self]
    exact tidy.quiet (by rw [idle]; rfl) silent sentFor
  · rw [sends]
    exact tidy.draw nowMs _ waits

end UseState

end Tidy

end LlmGateway
