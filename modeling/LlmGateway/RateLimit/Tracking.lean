import Mathlib.Algebra.BigOperators.Group.List.Basic
import LlmGateway.RateLimit.ScriptSpec

namespace LlmGateway

theorem RedisSlot.live_of_le {s : RedisSlot} {t t' : Int} (alive : s.live t' = true) (earlier : t ≤ t') :
    s.live t = true := by
  unfold live at alive ⊢
  split at alive
  · rfl
  · simp only [decide_eq_true_eq] at alive ⊢
    omega

namespace Redis

variable {r : Redis} {key : String} {window t : Int}

/-- The entries at the key that are less than a window old at time `t`, on a
server whose clock shows `t`. -/
def liveEntries (r : Redis) (key : String) (window t : Int) : List (ScoredMember String) :=
  (({ r with time := t } : Redis).zset key).entries.filter fun e => t - window < e.score

theorem liveEntries_congr {r' : Redis} (same : r.slots key = r'.slots key) :
    r.liveEntries key window t = r'.liveEntries key window t := by
  simp only [liveEntries, zset, slot, same]

theorem liveEntries_of_none (missing : r.slots key = none) : r.liveEntries key window t = [] := by
  simp [liveEntries, zset, slot, missing]

theorem liveEntries_of_live {s : RedisSlot} (stored : r.slots key = some s) (alive : s.live t = true) :
    r.liveEntries key window t = s.zset.entries.filter fun e => t - window < e.score := by
  simp [liveEntries, zset, slot, stored, Option.filter_some, alive]

theorem liveEntries_of_expired {s : RedisSlot} (stored : r.slots key = some s) (gone : s.live t = false) :
    r.liveEntries key window t = [] := by
  simp [liveEntries, zset, slot, stored, Option.filter_some, gone]

theorem liveEntries_now : r.liveEntries key window r.time =
    (r.zset key).entries.filter fun e => r.time - window < e.score := rfl

/-- Pruning what is a window old changes no live entry, now or later. -/
theorem liveEntries_zremrangebyscore {bound : Int} (later : r.time ≤ t) (old : bound ≤ t - window) :
    (r.zremrangebyscore key bound).liveEntries key window t = r.liveEntries key window t := by
  have stored := slots_zremrangebyscore r key bound
  cases raw : r.slots key with
  | none =>
    have missing : r.slot key = none := by rw [slot, raw]; rfl
    rw [missing] at stored
    rw [liveEntries_of_none stored, liveEntries_of_none raw]
  | some s =>
    by_cases alive : s.live r.time = true
    · have found : r.slot key = some s := by rw [slot, raw, Option.filter_some, if_pos alive]
      rw [found, Option.bind_some] at stored
      have young : ∀ e : ScoredMember String, t - window < e.score → bound < e.score := by
        intro e less
        omega
      by_cases emptied : (s.zset.removeUpTo bound).entries = []
      · rw [if_pos emptied] at stored
        rw [liveEntries_of_none stored]
        cases alive' : s.live t with
        | false => rw [liveEntries_of_expired raw alive']
        | true =>
          rw [liveEntries_of_live raw alive', eq_comm, List.filter_eq_nil_iff]
          intro e member less
          have kept : e ∈ s.zset.removeUpTo bound :=
            SortedSet.mem_removeUpTo.mpr ⟨member, young e (by simpa using less)⟩
          rw [SortedSet.mem_def, emptied] at kept
          cases kept
      · rw [if_neg emptied] at stored
        cases alive' : s.live t with
        | false =>
          have gone : ({ s with zset := s.zset.removeUpTo bound } : RedisSlot).live t = false := alive'
          rw [liveEntries_of_expired raw alive', liveEntries_of_expired stored gone]
        | true =>
          have stays : ({ s with zset := s.zset.removeUpTo bound } : RedisSlot).live t = true := alive'
          rw [liveEntries_of_live raw alive', liveEntries_of_live stored stays, SortedSet.entries_removeUpTo,
            List.filter_filter]
          refine List.filter_congr fun e _ => ?_
          have implied := young e
          simp only [Bool.and_eq_left_iff_imp, decide_eq_true_eq]
          exact implied
    · have missing : r.slot key = none := by
        rw [slot, raw, Option.filter_some, if_neg alive]
      rw [missing] at stored
      have gone : s.live t = false := by
        cases alive' : s.live t with
        | false => rfl
        | true => exact absurd (RedisSlot.live_of_le alive' later) alive
      rw [liveEntries_of_none stored, liveEntries_of_expired raw gone]

/-- The server still stores the entry at the key, expired or not. -/
def Stores (r : Redis) (key : String) (e : ScoredMember String) : Prop :=
  ∃ s, r.slots key = some s ∧ e ∈ s.zset

theorem stores_of_mem_zset {e : ScoredMember String} (member : e ∈ r.zset key) : r.Stores key e := by
  rw [zset] at member
  cases found : r.slot key with
  | none =>
    rw [found] at member
    cases member
  | some s =>
    rw [found] at member
    exact ⟨s, (Option.filter_eq_some_iff.mp found).1, member⟩

theorem Stores.of_zremrangebyscore {bound : Int} {e : ScoredMember String}
    (stores : (r.zremrangebyscore key bound).Stores key e) : r.Stores key e := by
  obtain ⟨s, stored, member⟩ := stores
  rw [slots_zremrangebyscore] at stored
  obtain ⟨old, found, kept⟩ := Option.bind_eq_some_iff.mp stored
  split at kept
  · cases kept
  · cases kept
    exact ⟨old, (Option.filter_eq_some_iff.mp found).1, (SortedSet.mem_removeUpTo.mp member).1⟩

end Redis

theorem afterLastColon_append {a b : List Char} (right : ':' ∉ b) : afterLastColon (a ++ ':' :: b) = some b := by
  induction a with
  | nil => exact if_pos ⟨rfl, right⟩
  | cons c a ih =>
    rw [List.cons_append, afterLastColon, if_neg (by simp), ih]

theorem afterLastColon_of_notMem {text : List Char} (plain : ':' ∉ text) : afterLastColon text = none := by
  induction text with
  | nil => rfl
  | cons c text ih =>
    rw [List.mem_cons, not_or] at plain
    rw [afterLastColon, if_neg (fun colon => plain.1 colon.1.symm), ih plain.2]

theorem trimSpaces_of_solid {text : List Char} (solid : ∀ c ∈ text, c.isWhitespace = false) :
    trimSpaces text = text := by
  have drop {l : List Char} (solid : ∀ c ∈ l, c.isWhitespace = false) : l.dropWhile Char.isWhitespace = l := by
    cases l with
    | nil => rfl
    | cons c l => exact List.dropWhile_cons_of_neg (by simp [solid c List.mem_cons_self])
  rw [trimSpaces, drop solid, drop fun c member => solid c (List.mem_reverse.mp member), List.reverse_reverse]

theorem isWhitespace_of_isDigit {c : Char} (digit : c.isDigit = true) : c.isWhitespace = false := by
  cases blank : c.isWhitespace with
  | false => rfl
  | true =>
    simp only [Char.isWhitespace, Bool.or_eq_true, decide_eq_true_eq] at blank
    rcases blank with ((rfl | rfl) | rfl) | rfl <;> cases digit

theorem tonumber_repr (n : Nat) : tonumber (toString n).toList = some (n : Int) := by
  have sign : '-' ∉ (toString n).toList := Numeral.notMem_repr (by decide) n
  have plus : '+' ∉ (toString n).toList := Numeral.notMem_repr (by decide) n
  have read := Numeral.readDigits_repr n
  rw [tonumber, trimSpaces_of_solid fun c member => isWhitespace_of_isDigit (Numeral.isDigit_repr member)]
  split
  · simp_all
  · simp_all
  · rw [read]
    rfl

theorem toList_tpmMember (reqID : String) {tokens : Int} (positive : 0 < tokens) :
    (tpmMember reqID tokens).toList = reqID.toList ++ ':' :: (toString tokens.toNat).toList := by
  rw [tpmMember, String.toList_append, String.toList_append, Numeral.toList_int_of_nonneg positive.le,
    List.append_assoc]
  rfl

/-- `check.lua` reads back the count that `tpm_record.lua` wrote. -/
theorem memberTokens_tpmMember (reqID : String) {tokens : Int} (positive : 0 < tokens) :
    memberTokens (tpmMember reqID tokens) = tokens := by
  rw [memberTokens, toList_tpmMember reqID positive,
    afterLastColon_append (Numeral.notMem_repr (by decide) _), Option.bind_some, tonumber_repr]
  exact Int.toNat_of_nonneg positive.le

/-- Two token members are different when their ids are. -/
theorem tpmMember_injective {id id' : String} {tokens tokens' : Int} (positive : 0 < tokens)
    (positive' : 0 < tokens') (same : tpmMember id tokens = tpmMember id' tokens') : id = id' := by
  have texts := congrArg String.toList same
  rw [toList_tpmMember id positive, toList_tpmMember id' positive'] at texts
  exact String.toList_inj.mp (Numeral.split_last (Numeral.notMem_repr (by decide) _)
    (Numeral.notMem_repr (by decide) _) texts).1

theorem sumTokens_eq_sum (members : List String) : sumTokens members = (members.map memberTokens).sum := by
  rw [sumTokens, List.sum_eq_foldl, List.foldl_map]

section Tracks

variable {α : Type} {r : Redis} {key : String} {window now : Int} {view : ScoredMember String → α}
  {stamp : α → Int} {log : List α}

/-- The live entries of the key, seen through `view`, are the live items of the
log, at `now` and at every later time. -/
def Tracks (r : Redis) (key : String) (window : Int) (view : ScoredMember String → α) (stamp : α → Int)
    (now : Int) (log : List α) : Prop :=
  ∀ t, now ≤ t → ((r.liveEntries key window t).map view).Perm (log.filter fun a => t - window < stamp a)

theorem Tracks.fresh (time : Int) : Tracks (Redis.fresh time) key window view stamp now [] := by
  intro t _
  rw [Redis.liveEntries_of_none rfl]
  exact .nil

theorem Tracks.later {now' : Int} (tracks : Tracks r key window view stamp now log) (le : now ≤ now') :
    Tracks r key window view stamp now' log :=
  fun t ge => tracks t (le.trans ge)

theorem Tracks.of_slots {r' : Redis} (tracks : Tracks r key window view stamp now log)
    (same : r'.slots key = r.slots key) : Tracks r' key window view stamp now log := by
  intro t ge
  rw [Redis.liveEntries_congr same]
  exact tracks t ge

theorem Tracks.prune (tracks : Tracks r key window view stamp r.time log) :
    Tracks (r.zremrangebyscore key (r.time - window)) key window view stamp r.time log := by
  intro t ge
  rw [Redis.liveEntries_zremrangebyscore ge (by omega)]
  exact tracks t ge

/-- A new entry of the present time joins the log. The set outlives every entry
in it, so its expiry removes only what is no longer live. -/
theorem Tracks.add {member : String} {seconds : Int} (tracks : Tracks r key window view stamp r.time log)
    (stamped : ∀ e, stamp (view e) = e.score) (past : ∀ a ∈ log, stamp a ≤ r.time)
    (new : ∀ e ∈ r.zset key, e.member ≠ member) (positive : 0 < window)
    (lasting : window * 2 ≤ seconds * 1000) :
    Tracks ((r.zadd key r.time member).expire key seconds) key window view stamp r.time
      (view ⟨member, r.time⟩ :: log) := by
  intro t ge
  have stored : ((r.zadd key r.time member).expire key seconds).slots key = _ :=
    Redis.slots_zadd_expire (by omega) r.time member
  have pull (u : Int) (es : List (ScoredMember String)) : (es.filter fun e => u - window < e.score).map view =
      (es.map view).filter fun a => u - window < stamp a := by
    rw [List.filter_map]
    congr 1
    refine List.filter_congr fun e _ => ?_
    simp [stamped]
  cases alive : RedisSlot.live ⟨(r.zset key).insert member r.time, some (r.time + seconds * 1000)⟩ t with
  | false =>
    simp only [RedisSlot.live, decide_eq_false_iff_not, not_le] at alive
    have quiet : (view ⟨member, r.time⟩ :: log).filter (fun a => t - window < stamp a) = [] := by
      refine List.filter_eq_nil_iff.mpr fun a inLog => ?_
      have bound : stamp a ≤ r.time := by
        rcases List.mem_cons.mp inLog with rfl | old
        · exact (stamped _).le
        · exact past a old
      simp only [decide_eq_true_eq]
      omega
    rw [Redis.liveEntries_of_expired stored (by simpa [RedisSlot.live] using alive), quiet]
    exact .nil
  | true =>
    have added := SortedSet.insert_perm_of_fresh new r.time
    have nowTracks := tracks r.time le_rfl
    rw [Redis.liveEntries_now] at nowTracks
    have older (as : List α) : (as.filter fun a => r.time - window < stamp a).filter
        (fun a => t - window < stamp a) = as.filter fun a => t - window < stamp a := by
      rw [List.filter_filter]
      refine List.filter_congr fun a _ => ?_
      simp only [Bool.and_eq_left_iff_imp, decide_eq_true_eq]
      intro less
      omega
    have rest : (((r.zset key).entries.map view).filter fun a => t - window < stamp a).Perm
        (log.filter fun a => t - window < stamp a) := by
      have cut := nowTracks.filter fun a => t - window < stamp a
      rwa [pull r.time, older, older] at cut
    rw [Redis.liveEntries_of_live stored alive, pull t]
    refine ((added.map view).filter _).trans ?_
    rw [List.map_cons, List.filter_cons, List.filter_cons]
    split
    · exact rest.cons _
    · exact rest

/-- The key tracks the log at the server's present time, the log holds nothing
of the future, and every stored member is known. -/
structure Mirrors (r : Redis) (key : String) (window : Int) (view : ScoredMember String → α)
    (stamp : α → Int) (log : List α) (known : String → Prop) : Prop where
  tracks : Tracks r key window view stamp r.time log
  past : ∀ a ∈ log, stamp a ≤ r.time
  members : ∀ e, r.Stores key e → known e.member

variable {known : String → Prop}

theorem Mirrors.fresh (time : Int) : Mirrors (Redis.fresh time) key window view stamp [] known where
  tracks := Tracks.fresh time
  past := by simp
  members := by
    rintro e ⟨s, ⟨⟩, _⟩

theorem Mirrors.later (mirrors : Mirrors r key window view stamp log known) {t : Int} (le : r.time ≤ t) :
    Mirrors { r with time := t } key window view stamp log known where
  tracks := (mirrors.tracks.later le).of_slots rfl
  past := fun a member => (mirrors.past a member).trans le
  members := mirrors.members

theorem Mirrors.of_slots {r' : Redis} (mirrors : Mirrors r key window view stamp log known)
    (same : r'.slots key = r.slots key) (time : r'.time = r.time) :
    Mirrors r' key window view stamp log known where
  tracks := time ▸ mirrors.tracks.of_slots same
  past := time ▸ mirrors.past
  members := by
    rintro e ⟨s, stored, member⟩
    exact mirrors.members e ⟨s, same ▸ stored, member⟩

theorem Mirrors.known_mono {known' : String → Prop} (mirrors : Mirrors r key window view stamp log known)
    (more : ∀ m, known m → known' m) : Mirrors r key window view stamp log known' :=
  ⟨mirrors.tracks, mirrors.past, fun e stores => more _ (mirrors.members e stores)⟩

theorem Mirrors.prune (mirrors : Mirrors r key window view stamp log known) :
    Mirrors (r.zremrangebyscore key (r.time - window)) key window view stamp log known where
  tracks := mirrors.tracks.prune
  past := mirrors.past
  members := fun e stores => mirrors.members e stores.of_zremrangebyscore

/-- The key's set after pruning is the live part of the log. -/
theorem Mirrors.entries_pruned (mirrors : Mirrors r key window view stamp log known) :
    (((r.zremrangebyscore key (r.time - window)).zset key).entries.map view).Perm
      (log.filter fun a => r.time - window < stamp a) := by
  rw [Redis.zset_zremrangebyscore, SortedSet.entries_removeUpTo]
  exact mirrors.tracks r.time le_rfl

theorem Mirrors.add {member : String} {seconds : Int} (mirrors : Mirrors r key window view stamp log known)
    (stamped : ∀ e, stamp (view e) = e.score) (new : ¬known member) (positive : 0 < window)
    (lasting : window * 2 ≤ seconds * 1000) :
    Mirrors ((r.zadd key r.time member).expire key seconds) key window view stamp
      (view ⟨member, r.time⟩ :: log) (fun m => m = member ∨ known m) where
  tracks := by
    refine mirrors.tracks.add stamped mirrors.past ?_ positive lasting
    rintro e inside rfl
    exact new (mirrors.members e (Redis.stores_of_mem_zset inside))
  past := by
    intro a inLog
    rcases List.mem_cons.mp inLog with rfl | old
    · exact (stamped _).le
    · exact mirrors.past a old
  members := by
    rintro e ⟨s, stored, inside⟩
    rw [Redis.slots_zadd_expire (by omega) r.time member] at stored
    cases stored
    rcases SortedSet.mem_insert.mp inside with rfl | ⟨old, _⟩
    · exact Or.inl rfl
    · exact Or.inr (mirrors.members e (Redis.stores_of_mem_zset old))

end Tracks

end LlmGateway
