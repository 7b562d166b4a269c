import LlmGateway.Lib.SortedSet
import Mathlib.Data.String.Basic
import Mathlib.Logic.Function.Basic

namespace LlmGateway

/-- A sorted-set key of the server. The key is gone once the server clock has
passed the deadline; a key without a deadline stays. -/
structure RedisSlot where
  zset : SortedSet String
  deadline : Option Int

/-- The key has not expired at the server time. -/
def RedisSlot.live (s : RedisSlot) (time : Int) : Bool :=
  match s.deadline with
  | none => true
  | some deadline => time ≤ deadline

/-- The part of a Redis server that the limiter's scripts use: its sorted-set
keys and its clock in milliseconds. Scores are integers: they are stamps in
milliseconds, which a double represents exactly. -/
structure Redis where
  slots : String → Option RedisSlot
  time : Int

namespace Redis

/-- A server without keys. -/
def fresh (time : Int) : Redis where
  slots := fun _ => none
  time := time

/-- The key as a command sees it: an expired key is not there. -/
def slot (r : Redis) (key : String) : Option RedisSlot :=
  (r.slots key).filter fun s => s.live r.time

def put (r : Redis) (key : String) (s : Option RedisSlot) : Redis :=
  { r with slots := Function.update r.slots key s }

/-- The sorted set at the key, empty when there is no such key. -/
def zset (r : Redis) (key : String) : SortedSet String :=
  ((r.slot key).map RedisSlot.zset).getD SortedSet.empty

/-- `ZREMRANGEBYSCORE key -inf bound`. A set that loses its last member loses
its key, and the deadline with it. -/
def zremrangebyscore (r : Redis) (key : String) (bound : Int) : Redis :=
  r.put key <| (r.slot key).bind fun s =>
    let kept := s.zset.removeUpTo bound
    if kept.entries = [] then none else some { s with zset := kept }

/-- `ZADD key score member`. -/
def zadd (r : Redis) (key : String) (score : Int) (member : String) : Redis :=
  r.put key <| some
    { zset := (r.zset key).insert member score
      deadline := (r.slot key).bind RedisSlot.deadline }

/-- `EXPIRE key seconds`. A time to live that is not positive deletes the key. -/
def expire (r : Redis) (key : String) (seconds : Int) : Redis :=
  r.put key <| (r.slot key).bind fun s =>
    if seconds ≤ 0 then none else some { s with deadline := some (r.time + seconds * 1000) }

/-- `ZCARD key`. -/
def zcard (r : Redis) (key : String) : Int := (r.zset key).card

/-- `ZRANGE key 0 -1`. -/
def zrange (r : Redis) (key : String) : List String :=
  (r.zset key).entries.map ScoredMember.member

@[simp] theorem time_put (r : Redis) (key : String) (s : Option RedisSlot) : (r.put key s).time = r.time := rfl

@[simp] theorem time_zremrangebyscore (r : Redis) (key : String) (bound : Int) :
    (r.zremrangebyscore key bound).time = r.time := rfl

@[simp] theorem time_zadd (r : Redis) (key : String) (score : Int) (member : String) :
    (r.zadd key score member).time = r.time := rfl

@[simp] theorem time_expire (r : Redis) (key : String) (seconds : Int) :
    (r.expire key seconds).time = r.time := rfl

theorem slot_put_ne {r : Redis} {key other : String} (apart : other ≠ key) (s : Option RedisSlot) :
    (r.put key s).slot other = r.slot other := by
  simp [slot, put, Function.update_of_ne apart]

theorem slot_put_self (r : Redis) (key : String) (s : Option RedisSlot) :
    (r.put key s).slot key = s.filter fun s => s.live r.time := by
  simp [slot, put]

theorem slot_live {r : Redis} {key : String} {s : RedisSlot} (found : r.slot key = some s) :
    s.live r.time = true := by
  simp only [slot, Option.filter_eq_some_iff] at found
  exact found.2

theorem zset_zremrangebyscore (r : Redis) (key : String) (bound : Int) :
    ((r.zremrangebyscore key bound).zset key).entries = ((r.zset key).removeUpTo bound).entries := by
  unfold zremrangebyscore
  rw [zset, slot_put_self, zset]
  cases found : r.slot key with
  | none => rfl
  | some s =>
    have live := slot_live found
    have kept : ({ s with zset := s.zset.removeUpTo bound } : RedisSlot).live r.time = true := live
    by_cases gone : (s.zset.removeUpTo bound).entries = []
    · rw [Option.bind_some, if_pos gone]
      exact gone.symm
    · rw [Option.bind_some, if_neg gone, Option.filter_some, if_pos kept]
      rfl

theorem slot_zadd (r : Redis) (key : String) (score : Int) (member : String) :
    (r.zadd key score member).slot key =
      some { zset := (r.zset key).insert member score, deadline := (r.slot key).bind RedisSlot.deadline } := by
  unfold zadd
  rw [slot_put_self, Option.filter_eq_some_iff]
  refine ⟨rfl, ?_⟩
  cases found : r.slot key with
  | none => rfl
  | some s =>
    have live := slot_live found
    exact live

end Redis

end LlmGateway
