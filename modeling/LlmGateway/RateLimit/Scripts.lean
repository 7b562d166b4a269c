import LlmGateway.RateLimit.Redis
import LlmGateway.Lib.Numeral

namespace LlmGateway

/-- `string.find(m, ':[^:]*$')` followed by `string.sub(m, colon + 1)`: the
text after the last colon, if there is a colon. -/
def afterLastColon : List Char → Option (List Char)
  | [] => none
  | c :: rest => if c = ':' ∧ ':' ∉ rest then some rest else afterLastColon rest

/-- The text without the spaces around it. -/
def trimSpaces (text : List Char) : List Char :=
  ((text.dropWhile Char.isWhitespace).reverse.dropWhile Char.isWhitespace).reverse

/-- Lua's `tonumber` on decimal integer numerals, with the spaces and the sign
it admits around them. Fractions, exponents and hexadecimal numerals are left
out; no script of the limiter writes one. -/
def tonumber (text : List Char) : Option Int :=
  match trimSpaces text with
  | '-' :: digits => (Numeral.readDigits digits).map fun n : Nat => -(n : Int)
  | '+' :: digits => (Numeral.readDigits digits).map Int.ofNat
  | digits => (Numeral.readDigits digits).map Int.ofNat

/-- The tokens a member of the TPM set stands for. A member without a colon or
without a number after it adds nothing to the sum. -/
def memberTokens (m : String) : Int :=
  match (afterLastColon m.toList).bind tonumber with
  | some n => n
  | none => 0

/-- The loop over `ipairs(members)`. -/
def sumTokens (members : List String) : Int :=
  members.foldl (fun total m => total + memberTokens m) 0

/-- `math.ceil(a / b)`. -/
def ceilDiv (a b : Int) : Int := -((-a) / b)

/-- `oldest_score`: the least score at the key, or `now` when there is none. -/
def oldestScore (r : Redis) (key : String) (now : Int) : Int :=
  (r.zset key).leastScore.getD now

/-- The arguments of one execution of `check.lua`. Lua numbers are taken as integers:
stamps, counts, limits and token sums are integers that a double holds exactly. -/
structure CheckArgs where
  rpmKey : String
  tpmKey : String
  now : Int
  window : Int
  rpmLim : Int
  tpmLim : Int
  reqID : String
deriving DecidableEq, Repr

/-- The table `check.lua` returns. -/
structure CheckReply where
  allowed : Int
  rejectCode : Int
  rpmUsed : Int
  rpmOldestMs : Int
  tpmUsed : Int
  tpmOldestMs : Int
deriving DecidableEq, Repr

/-- `check.lua` after the RPM test has passed: the TPM window is pruned and
summed only when there is a TPM limit. -/
def checkTPM (r : Redis) (args : CheckArgs) : Redis × Int × Int :=
  if 0 < args.tpmLim then
    let swept := r.zremrangebyscore args.tpmKey (args.now - args.window)
    (swept, sumTokens (swept.zrange args.tpmKey), oldestScore swept args.tpmKey args.now)
  else (r, 0, args.now)

/-- The last step of `check.lua`: the tick of an admitted request. -/
def addTick (r : Redis) (args : CheckArgs) : Redis :=
  if 0 < args.rpmLim then
    (r.zadd args.rpmKey args.now args.reqID).expire args.rpmKey (ceilDiv (args.window * 2) 1000)
  else r

/-- `check.lua`. -/
def check (r : Redis) (args : CheckArgs) : CheckReply × Redis :=
  let pruned := r.zremrangebyscore args.rpmKey (args.now - args.window)
  let rpmCount := pruned.zcard args.rpmKey
  if 0 < args.rpmLim ∧ args.rpmLim ≤ rpmCount then
    (⟨0, 1, rpmCount, oldestScore pruned args.rpmKey args.now, 0, args.now⟩, pruned)
  else
    let (swept, tpmTotal, tpmOldest) := checkTPM pruned args
    if 0 < args.tpmLim ∧ args.tpmLim ≤ tpmTotal then
      (⟨0, 2, rpmCount, oldestScore swept args.rpmKey args.now, tpmTotal, tpmOldest⟩, swept)
    else
      let ticked := addTick swept args
      (⟨1, 0, rpmCount + 1, oldestScore ticked args.rpmKey args.now, tpmTotal, tpmOldest⟩, ticked)

theorem two_windows_le_ttl (window : Int) : window * 2 ≤ ceilDiv (window * 2) 1000 * 1000 := by
  unfold ceilDiv
  omega

theorem ttl_pos {window : Int} (positive : 0 < window) : 0 < ceilDiv (window * 2) 1000 := by
  unfold ceilDiv
  omega

/-- The arguments of one execution of `tpm_record.lua`. -/
structure RecordArgs where
  key : String
  now : Int
  window : Int
  reqID : String
  tokens : Int
deriving DecidableEq, Repr

/-- The member `tpm_record.lua` writes: `req_id .. ':' .. tokens`. -/
def tpmMember (reqID : String) (tokens : Int) : String := reqID ++ ":" ++ toString tokens

/-- `tpm_record.lua`. The script takes its window argument for seconds. -/
def tpmRecord (r : Redis) (args : RecordArgs) : Redis :=
  (r.zadd args.key args.now (tpmMember args.reqID args.tokens)).expire args.key (args.window * 2)

end LlmGateway
