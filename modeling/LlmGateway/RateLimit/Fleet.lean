import LlmGateway.Lib.Transition
import LlmGateway.RateLimit.ScriptSpec

namespace LlmGateway

/-- The gateway processes that share one Redis. Their instance ids come from
`newInstanceID` and are pairwise distinct. -/
structure Fleet (ι : Type) where
  limiter : ι → RedisLimiter
  instanceID : ι → String
  distinct : Function.Injective instanceID
  made : ∀ i, ∃ random unixNano, instanceID i = newInstanceID random unixNano

/-- Two instances that take a limit of one request from their configuration. -/
def pairFleet : Fleet Bool where
  limiter := fun _ => newRedis ⟨true, 1, 0⟩
  instanceID := fun b => newInstanceID (some (Vector.replicate 6 (if b then 1 else 0))) 0
  distinct := by
    unfold Function.Injective
    decide
  made := fun _ => ⟨_, _, rfl⟩

/-- A script call that an instance has sent and Redis has not run yet. -/
inductive ScriptCall where
  | check (args : CheckArgs)
  | record (args : RecordArgs)

def ScriptCall.checkArgs : ScriptCall → Option CheckArgs
  | .check args => some args
  | .record _ => none

/-- One execution of `check.lua`: its arguments, the server time it ran at and
its reply. -/
structure Execution where
  args : CheckArgs
  serverTime : Int
  reply : CheckReply
deriving DecidableEq

/-- The instances, the calls in flight, the server and the executions of
`check.lua` so far, in execution order. -/
structure FleetState (ι : Type) where
  gateways : ι → Gateway
  pending : List ScriptCall
  redis : Redis
  log : List Execution

/-- What can happen next on one API key. A clock stamp belongs to the instance
that takes it, and neither the stamps nor the server clock need to advance.
Calls in flight run in any order. A call for another key draws from the same counter. -/
inductive FleetAction (ι : Type) where
  | reserve (i : ι) (nowMs : Int)
  | recordTokens (i : ι) (nowMs tokens : Int)
  | otherKey (i : ι) (nowMs : Int)
  | execute (k : Nat)
  | serverClock (time : Int)

namespace Fleet

variable {ι : Type} [DecidableEq ι] (F : Fleet ι) (key : KeyInfo)

def start (time : Int) : FleetState ι where
  gateways := fun i => ⟨F.instanceID i, 0⟩
  pending := []
  redis := Redis.fresh time
  log := []

/-- Instance `i` goes on as `g`, having sent the call, if any. -/
def send (s : FleetState ι) (i : ι) (g : Gateway) (call : Option ScriptCall) : FleetState ι :=
  { s with gateways := Function.update s.gateways i g, pending := s.pending ++ call.toList }

def step (s : FleetState ι) : FleetAction ι → Option (FleetState ι)
  | .reserve i nowMs =>
    let (args, g) := (F.limiter i).reserveCall (s.gateways i) key nowMs
    some (send s i g (args.map .check))
  | .recordTokens i nowMs tokens =>
    let (args, g) := (F.limiter i).recordCall (s.gateways i) key nowMs tokens
    some (send s i g (args.map .record))
  | .otherKey i nowMs => some (send s i ((s.gateways i).newReqID nowMs).2 none)
  | .execute k =>
    match s.pending[k]? with
    | none => none
    | some (.check args) =>
      let (reply, redis) := check s.redis args
      some { s with
        pending := s.pending.eraseIdx k, redis := redis, log := s.log ++ [⟨args, s.redis.time, reply⟩] }
    | some (.record args) =>
      some { s with pending := s.pending.eraseIdx k, redis := tpmRecord s.redis args }
  | .serverClock time => some { s with redis := { s.redis with time := time } }

end Fleet

section Ids

variable {ι : Type}

/-- Some instance has already drawn the id. -/
def Issued (gateways : ι → Gateway) (id : String) : Prop :=
  ∃ i nowMs n, id = reqIDText (gateways i).instanceID nowMs n ∧ n ≤ (gateways i).reqIDCounter

/-- The instances keep the ids of the fleet. -/
def Owned (F : Fleet ι) (gateways : ι → Gateway) : Prop := ∀ i, (gateways i).instanceID = F.instanceID i

theorem Fleet.plain (F : Fleet ι) (i : ι) : '-' ∉ (F.instanceID i).toList := by
  obtain ⟨random, unixNano, made⟩ := F.made i
  rw [made]
  exact notMem_newInstanceID (.inl rfl) random unixNano

theorem Owned.newReqID [DecidableEq ι] {F : Fleet ι} {gateways : ι → Gateway} (owned : Owned F gateways) (i : ι)
    (nowMs : Int) :
    Owned F (Function.update gateways i ((gateways i).newReqID nowMs).2) := by
  intro j
  by_cases same : j = i
  · subst j
    rw [Function.update_self]
    exact owned i
  · rw [Function.update_of_ne same]
    exact owned j

/-- Drawing an id forgets no id drawn before. -/
theorem Issued.newReqID [DecidableEq ι] {gateways : ι → Gateway} {id : String} (issued : Issued gateways id)
    (i : ι) (nowMs : Int) :
    Issued (Function.update gateways i ((gateways i).newReqID nowMs).2) id := by
  obtain ⟨j, stamp, n, text, bound⟩ := issued
  refine ⟨j, stamp, n, ?_, ?_⟩ <;> by_cases same : j = i
  · subst j
    rw [Function.update_self]
    exact text
  · rw [Function.update_of_ne same]
    exact text
  · subst j
    rw [Function.update_self]
    exact bound.trans (Nat.le_succ _)
  · rw [Function.update_of_ne same]
    exact bound

theorem issued_newReqID [DecidableEq ι] (gateways : ι → Gateway) (i : ι) (nowMs : Int) :
    Issued (Function.update gateways i ((gateways i).newReqID nowMs).2) ((gateways i).newReqID nowMs).1 := by
  refine ⟨i, nowMs, (gateways i).reqIDCounter + 1, ?_, ?_⟩
  · rw [Function.update_self]
    rfl
  · rw [Function.update_self]
    exact le_rfl

/-- The id an instance draws has not been drawn before by any instance. -/
theorem newReqID_not_issued {F : Fleet ι} {gateways : ι → Gateway} (owned : Owned F gateways) (i : ι)
    (nowMs : Int) : ¬Issued gateways ((gateways i).newReqID nowMs).1 := by
  rintro ⟨j, stamp, n, text, bound⟩
  have plain (k : ι) : '-' ∉ (gateways k).instanceID.toList := owned k ▸ F.plain k
  obtain ⟨name, _, counter⟩ := reqIDText_injective (plain i) (plain j) text
  rw [owned i, owned j] at name
  have same := F.distinct name
  subst j
  omega

end Ids

section Steps

variable {ι : Type} [DecidableEq ι] {F : Fleet ι} {key : KeyInfo} {s t : FleetState ι} {a : FleetAction ι}

/-- A call on the key as `Reserve` or `RecordTokens` sends it under the id. -/
def SentCall (F : Fleet ι) (key : KeyInfo) (i : ι) (reqID : String) : ScriptCall → Prop
  | .check args => args.rpmKey = rpmKey key ∧ args.tpmKey = tpmKey key ∧
      args.window = (F.limiter i).windowMs ∧ args.rpmLim = (F.limiter i).effectiveRPM key ∧ args.reqID = reqID
  | .record args => args.key = tpmKey key

theorem RedisLimiter.reserveCall_cases (lim : RedisLimiter) (g : Gateway) (key : KeyInfo) (nowMs : Int) :
    (lim.effectiveRPM key ≤ 0 ∧ lim.effectiveTPM key ≤ 0 ∧ lim.reserveCall g key nowMs = (none, g)) ∨
      lim.reserveCall g key nowMs =
        (some ⟨rpmKey key, tpmKey key, nowMs, lim.windowMs, lim.effectiveRPM key, lim.effectiveTPM key,
          (g.newReqID nowMs).1⟩, (g.newReqID nowMs).2) := by
  by_cases unlimited : lim.effectiveRPM key ≤ 0 ∧ lim.effectiveTPM key ≤ 0
  · exact Or.inl ⟨unlimited.1, unlimited.2, if_pos unlimited⟩
  · exact Or.inr (if_neg unlimited)

theorem RedisLimiter.recordCall_cases (lim : RedisLimiter) (g : Gateway) (key : KeyInfo) (nowMs tokens : Int) :
    (¬(0 < tokens ∧ 0 < lim.effectiveTPM key) ∧ lim.recordCall g key nowMs tokens = (none, g)) ∨
      (0 < tokens ∧ 0 < lim.effectiveTPM key ∧ lim.recordCall g key nowMs tokens =
        (some ⟨tpmKey key, nowMs, lim.windowMs, (g.newReqID nowMs).1, tokens⟩, (g.newReqID nowMs).2)) := by
  unfold recordCall
  split
  · exact Or.inl ⟨by omega, rfl⟩
  · split
    · exact Or.inl ⟨by omega, rfl⟩
    · exact Or.inr ⟨by omega, by omega, rfl⟩

theorem Fleet.send_nothing (s : FleetState ι) (i : ι) : Fleet.send s i (s.gateways i) none = s := by
  simp [Fleet.send]

/-- Everything a step can do: nothing; draw an id and perhaps send a call under
it; run a call in flight; move the server clock. -/
theorem Fleet.step_cases (taken : F.step key s a = some t) :
    t = s ∨
    (∃ i nowMs call, t = Fleet.send s i ((s.gateways i).newReqID nowMs).2 call ∧
      ∀ c ∈ call, SentCall F key i ((s.gateways i).newReqID nowMs).1 c) ∨
    (∃ k args, s.pending[k]? = some (.check args) ∧
      t = { s with pending := s.pending.eraseIdx k, redis := (check s.redis args).2,
                   log := s.log ++ [⟨args, s.redis.time, (check s.redis args).1⟩] }) ∨
    (∃ k args, s.pending[k]? = some (.record args) ∧
      t = { s with pending := s.pending.eraseIdx k, redis := tpmRecord s.redis args }) ∨
    (∃ time, t = { s with redis := { s.redis with time := time } }) := by
  cases a with
  | reserve i nowMs =>
    simp only [Fleet.step, Option.some.injEq] at taken
    rcases (F.limiter i).reserveCall_cases (s.gateways i) key nowMs with ⟨_, _, idle⟩ | sent
    · rw [idle] at taken
      exact Or.inl (taken.symm.trans (Fleet.send_nothing s i))
    · rw [sent] at taken
      refine Or.inr (Or.inl ⟨i, nowMs, _, taken.symm, ?_⟩)
      rintro c ⟨⟩
      exact ⟨rfl, rfl, rfl, rfl, rfl⟩
  | recordTokens i nowMs tokens =>
    simp only [Fleet.step, Option.some.injEq] at taken
    rcases (F.limiter i).recordCall_cases (s.gateways i) key nowMs tokens with ⟨_, idle⟩ | ⟨_, _, sent⟩
    · rw [idle] at taken
      exact Or.inl (taken.symm.trans (Fleet.send_nothing s i))
    · rw [sent] at taken
      refine Or.inr (Or.inl ⟨i, nowMs, _, taken.symm, ?_⟩)
      rintro c ⟨⟩
      rfl
  | otherKey i nowMs =>
    exact Or.inr (Or.inl ⟨i, nowMs, none, (Option.some.inj taken).symm, by simp⟩)
  | execute k =>
    simp only [Fleet.step] at taken
    split at taken
    · cases taken
    · rename_i args found
      exact Or.inr (Or.inr (Or.inl ⟨k, args, found, (Option.some.inj taken).symm⟩))
    · rename_i args found
      exact Or.inr (Or.inr (Or.inr (Or.inl ⟨k, args, found, (Option.some.inj taken).symm⟩)))
  | serverClock time =>
    exact Or.inr (Or.inr (Or.inr (Or.inr ⟨time, (Option.some.inj taken).symm⟩)))

/-- A step draws at most one id. -/
theorem Fleet.reqIDCounter_step (taken : F.step key s a = some t) (i : ι) :
    (t.gateways i).instanceID = (s.gateways i).instanceID ∧
      (t.gateways i).reqIDCounter ≤ (s.gateways i).reqIDCounter + 1 := by
  rcases Fleet.step_cases taken with rfl | ⟨j, nowMs, call, rfl, -⟩ | ⟨k, args, -, rfl⟩ | ⟨k, args, -, rfl⟩ |
    ⟨time, rfl⟩
  · exact ⟨rfl, Nat.le_succ _⟩
  · by_cases same : i = j
    · subst same
      simp [Fleet.send, Gateway.newReqID]
    · simp [Fleet.send, Function.update_of_ne same]
  all_goals exact ⟨rfl, Nat.le_succ _⟩

/-- In a run of fewer than `2 ^ 64` steps every id is the one the source draws. -/
theorem Fleet.ids_of_source {time : Int} {actions : List (FleetAction ι)}
    (taken : Transition.run (F.step key) (F.start time) actions = some s) (few : actions.length + 1 < 2 ^ 64)
    (i : ι) (nowMs : Int) :
    newReqIDWrapping (F.instanceID i) (s.gateways i).wrapped nowMs =
      (((s.gateways i).newReqID nowMs).1, ((s.gateways i).newReqID nowMs).2.wrapped) := by
  obtain ⟨name, bound⟩ : (s.gateways i).instanceID = F.instanceID i ∧
      (s.gateways i).reqIDCounter ≤ actions.length := by
    refine Transition.run_induction (motive := fun before s =>
      (s.gateways i).instanceID = F.instanceID i ∧ (s.gateways i).reqIDCounter ≤ before.length)
      ⟨rfl, Nat.zero_le _⟩ ?_ taken
    intro before s a t _ held next
    obtain ⟨same, drawn⟩ := Fleet.reqIDCounter_step next i
    rw [List.length_append]
    exact ⟨same.trans held.1, drawn.trans (Nat.succ_le_succ held.2)⟩
  rw [← name]
  exact (s.gateways i).newReqID_eq_wrapping nowMs (by omega)

end Steps

end LlmGateway
