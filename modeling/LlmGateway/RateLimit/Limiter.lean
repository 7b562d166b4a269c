import LlmGateway.Auth.KeyInfo
import LlmGateway.Config.Config
import LlmGateway.RateLimit.Scripts

namespace LlmGateway

/-- `newInstanceID`: six random bytes, or the clock when there are none. -/
def newInstanceID (random : Option (Vector (Fin 256) 6)) (unixNano : Nat) : String :=
  match random with
  | some bytes => hexEncode bytes.toList
  | none => formatBase36 unixNano

/-- The process-wide state behind `newReqID`. The counter is the number of ids that
were issued; the `uint64` of the source is that number until `2 ^ 64` are issued. -/
structure Gateway where
  instanceID : String
  reqIDCounter : Nat
deriving DecidableEq, Repr

/-- The text of a request id. -/
def reqIDText (instanceID : String) (nowMs : Int) (n : Nat) : String :=
  instanceID ++ "-" ++ toString nowMs ++ "-" ++ toString n

/-- `newReqID`. -/
def Gateway.newReqID (g : Gateway) (nowMs : Int) : String × Gateway :=
  let n := g.reqIDCounter + 1
  (reqIDText g.instanceID nowMs n, { g with reqIDCounter := n })

/-- `newReqID` over the counter of the source, which wraps. -/
def newReqIDWrapping (instanceID : String) (reqIDCounter : UInt64) (nowMs : Int) : String × UInt64 :=
  let n := reqIDCounter + 1
  (reqIDText instanceID nowMs n.toNat, n)

/-- The counter of the source, at a gateway. -/
def Gateway.wrapped (g : Gateway) : UInt64 := .ofNat g.reqIDCounter

/-- Before the counter wraps, the gateway draws the ids of the source. -/
theorem Gateway.newReqID_eq_wrapping (g : Gateway) (nowMs : Int) (few : g.reqIDCounter + 1 < 2 ^ 64) :
    newReqIDWrapping g.instanceID g.wrapped nowMs = ((g.newReqID nowMs).1, (g.newReqID nowMs).2.wrapped) := by
  have next : g.wrapped + 1 = .ofNat (g.reqIDCounter + 1) := (UInt64.ofNat_add _ _).symm
  have shown : (UInt64.ofNat (g.reqIDCounter + 1)).toNat = g.reqIDCounter + 1 := UInt64.toNat_ofNat_of_lt' few
  simp only [newReqIDWrapping, next, shown]
  rfl

theorem notMem_newInstanceID {c : Char} (sep : c = '-' ∨ c = ':') (random : Option (Vector (Fin 256) 6))
    (unixNano : Nat) : c ∉ (newInstanceID random unixNano).toList := by
  cases random with
  | some bytes => exact notMem_hexEncode sep _
  | none => exact notMem_formatBase36 sep _

theorem toList_reqIDText (instanceID : String) (nowMs : Int) (n : Nat) :
    (reqIDText instanceID nowMs n).toList =
      (instanceID.toList ++ '-' :: (toString nowMs).toList) ++ '-' :: (toString n).toList := by
  simp only [reqIDText, String.toList_append, List.append_assoc]
  rfl

/-- A request id determines the instance, the stamp and the counter it was
built from, although a stamp may itself contain a dash. -/
theorem reqIDText_injective {i i' : String} {nowMs nowMs' : Int} {n n' : Nat} (plain : '-' ∉ i.toList)
    (plain' : '-' ∉ i'.toList) (same : reqIDText i nowMs n = reqIDText i' nowMs' n') :
    i = i' ∧ nowMs = nowMs' ∧ n = n' := by
  have texts := congrArg String.toList same
  rw [toList_reqIDText, toList_reqIDText] at texts
  obtain ⟨stem, counter⟩ := Numeral.split_last (Numeral.notMem_repr (by decide) n)
    (Numeral.notMem_repr (by decide) n') texts
  obtain ⟨name, stamp⟩ := Numeral.split_first plain plain' stem
  exact ⟨String.toList_inj.mp name, Numeral.int_repr_injective stamp, Numeral.repr_injective counter⟩

/-- `redisLimiter` without its client and scripts. The window is a duration in
nanoseconds of at least a millisecond. -/
structure RedisLimiter where
  window : Int
  defaultRPM : Int
  defaultTPM : Int
  window_ge : 1000000 ≤ window

/-- `NewRedis`. -/
def newRedis (cfg : RateLimitConfig) : RedisLimiter where
  window := 60 * 1000000000
  defaultRPM := cfg.defaultRPM
  defaultTPM := cfg.defaultTPM
  window_ge := by decide

/-- `Reservation`. Durations are nanoseconds. -/
structure Reservation where
  allowed : Bool
  limit : Int := 0
  remaining : Int := 0
  reset : Int := 0
  tpmLimit : Int := 0
  tpmRemaining : Int := 0
  tpmReset : Int := 0
  retryAfter : Int := 0
deriving DecidableEq, Repr

/-- `checkResult`. -/
structure CheckResult where
  allowed : Bool
  code : Int
  rpmUsed : Int
  rpmOldestMs : Int
  tpmUsed : Int
  tpmOldestMs : Int
deriving DecidableEq, Repr

/-- A value of a script's reply as the client hands it on. -/
inductive RespValue where
  | int (n : Int)
  | bulk (text : String)
deriving DecidableEq, Repr

/-- What `%T` prints for the value. -/
def RespValue.typeName : RespValue → String
  | .int _ => "int64"
  | .bulk _ => "string"

/-- The reply of `check.lua` on the wire. -/
def CheckReply.toResp (reply : CheckReply) : List RespValue :=
  [reply.allowed, reply.rejectCode, reply.rpmUsed, reply.rpmOldestMs, reply.tpmUsed, reply.tpmOldestMs].map
    RespValue.int

def checkResultNames : List String :=
  ["allowed", "code", "rpm_used", "rpm_oldest_ms", "tpm_used", "tpm_oldest_ms"]

/-- The type assertions of `parseCheckResult`, field by field. -/
def intFields : List (String × RespValue) → Except String (List Int)
  | [] => .ok []
  | (_, .int n) :: rest => (intFields rest).map (n :: ·)
  | (name, v) :: _ => .error ("check script: " ++ name ++ " not int64 (" ++ v.typeName ++ ")")

/-- `parseCheckResult`. -/
def parseCheckResult (out : List RespValue) : Except String CheckResult :=
  if out.length ≠ 6 then
    .error ("check script: got " ++ toString out.length ++ " values, want 6")
  else match intFields (checkResultNames.zip out) with
    | .error e => .error e
    | .ok [allowed, code, rpmUsed, rpmOldestMs, tpmUsed, tpmOldestMs] =>
      .ok ⟨allowed = 1, code, rpmUsed, rpmOldestMs, tpmUsed, tpmOldestMs⟩
    | .ok fields => .error ("check script: got " ++ toString fields.length ++ " values, want 6")

/-- `clampRemaining`. -/
def clampRemaining (limit used : Int) : Int :=
  if limit ≤ 0 ∨ limit ≤ used then 0 else limit - used

/-- `computeReset`, in nanoseconds. -/
def computeReset (nowMs oldestMs windowMs : Int) : Int :=
  let elapsed := nowMs - oldestMs
  let remaining := windowMs - elapsed
  (if remaining < 0 then 0 else remaining) * 1000000

namespace RedisLimiter

/-- `r.window.Milliseconds()`. -/
def windowMs (lim : RedisLimiter) : Int := lim.window / 1000000

theorem windowMs_pos (lim : RedisLimiter) : 0 < lim.windowMs := by
  have bound := lim.window_ge
  unfold windowMs
  omega

/-- `effectiveRPM`. -/
def effectiveRPM (lim : RedisLimiter) (key : KeyInfo) : Int :=
  if 0 < key.rpm then key.rpm else lim.defaultRPM

/-- `effectiveTPM`. -/
def effectiveTPM (lim : RedisLimiter) (key : KeyInfo) : Int :=
  if 0 < key.tpm then key.tpm else lim.defaultTPM

end RedisLimiter

/-- `rpmKey`. -/
def rpmKey (key : KeyInfo) : String := "ratelimit:" ++ key.orgID ++ ":" ++ key.keyID ++ ":rpm"

/-- `tpmKey`. -/
def tpmKey (key : KeyInfo) : String := "ratelimit:" ++ key.orgID ++ ":" ++ key.keyID ++ ":tpm"

theorem rpmKey_ne_tpmKey (key other : KeyInfo) : rpmKey key ≠ tpmKey other := by
  intro same
  have texts := congrArg String.toList same
  unfold rpmKey tpmKey at texts
  simp only [String.toList_append] at texts
  have sameLength : ":rpm".toList.length = ":tpm".toList.length := by decide
  have suffixes := (List.append_inj' texts sameLength).2
  exact absurd suffixes (by decide)

namespace RedisLimiter

/-- The first half of `Reserve`: the arguments of the script call, unless
neither dimension is limited. -/
def reserveCall (lim : RedisLimiter) (g : Gateway) (key : KeyInfo) (nowMs : Int) : Option CheckArgs × Gateway :=
  let rpm := lim.effectiveRPM key
  let tpm := lim.effectiveTPM key
  if rpm ≤ 0 ∧ tpm ≤ 0 then (none, g)
  else
    let (reqID, g) := g.newReqID nowMs
    (some ⟨rpmKey key, tpmKey key, nowMs, lim.windowMs, rpm, tpm, reqID⟩, g)

/-- The second half of `Reserve`: the reservation a script result stands for. -/
def reservationOf (lim : RedisLimiter) (rpm tpm nowMs : Int) (parsed : CheckResult) : Reservation :=
  let reset := computeReset nowMs parsed.rpmOldestMs lim.windowMs
  let tpmReset := computeReset nowMs parsed.tpmOldestMs lim.windowMs
  let hint := if parsed.code = 1 then reset else if parsed.code = 2 then tpmReset else 0
  { allowed := parsed.allowed
    limit := rpm
    remaining := clampRemaining rpm parsed.rpmUsed
    reset := reset
    tpmLimit := tpm
    tpmRemaining := clampRemaining tpm parsed.tpmUsed
    tpmReset := tpmReset
    retryAfter := if parsed.allowed then 0 else if hint ≤ 0 then lim.window else hint }

/-- What `Reserve` returns and leaves behind when the server answers. -/
structure ReserveResult where
  reservation : Except String Reservation
  parsed : Option CheckResult
  gateway : Gateway
  redis : Redis

/-- `Reserve`, with the parsed script result it is computed from (none when the
script was not called). -/
def reserve (lim : RedisLimiter) (g : Gateway) (r : Redis) (key : KeyInfo) (nowMs : Int) : ReserveResult :=
  match lim.reserveCall g key nowMs with
  | (none, g) => ⟨.ok { allowed := true }, none, g, r⟩
  | (some args, g) =>
    let (reply, r) := check r args
    match parseCheckResult reply.toResp with
    | .error e => ⟨.error e, none, g, r⟩
    | .ok parsed =>
      ⟨.ok (lim.reservationOf (lim.effectiveRPM key) (lim.effectiveTPM key) nowMs parsed), some parsed, g, r⟩

/-- The script call of `RecordTokens`, unless there is nothing to record. -/
def recordCall (lim : RedisLimiter) (g : Gateway) (key : KeyInfo) (nowMs tokens : Int) :
    Option RecordArgs × Gateway :=
  if tokens ≤ 0 then (none, g)
  else if lim.effectiveTPM key ≤ 0 then (none, g)
  else
    let (reqID, g) := g.newReqID nowMs
    (some ⟨tpmKey key, nowMs, lim.windowMs, reqID, tokens⟩, g)

/-- `RecordTokens`. -/
def recordTokens (lim : RedisLimiter) (g : Gateway) (r : Redis) (key : KeyInfo) (nowMs tokens : Int) :
    Gateway × Redis :=
  match lim.recordCall g key nowMs tokens with
  | (none, g) => (g, r)
  | (some args, g) => (g, tpmRecord r args)

end RedisLimiter

/-- A reply of the script always parses. -/
theorem parseCheckResult_toResp (reply : CheckReply) :
    parseCheckResult reply.toResp =
      .ok ⟨reply.allowed = 1, reply.rejectCode, reply.rpmUsed, reply.rpmOldestMs, reply.tpmUsed,
        reply.tpmOldestMs⟩ := rfl

end LlmGateway
