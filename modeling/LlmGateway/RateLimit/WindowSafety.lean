import LlmGateway.RateLimit.Fleet

namespace LlmGateway

variable {ι : Type}

/-- The script answered `allowed = 1`. -/
def Execution.admitted (e : Execution) : Bool := e.reply.allowed = 1

/-- The entry an admitted execution adds to the RPM set. -/
def Execution.tick (e : Execution) : ScoredMember String := ⟨e.args.reqID, e.args.now⟩

/-- The values of the executions lie in an interval shorter than `length`. -/
def WithinSpan (value : Execution → Int) (length : Int) (seg : List Execution) : Prop :=
  ∀ a ∈ seg, ∀ b ∈ seg, value b - value a < length

/-- Stamps less than a window apart, in any order, and less than two windows of
server time. -/
structure ShortSegment (window : Int) (seg : List Execution) : Prop where
  stamps : WithinSpan (fun e => e.args.now) window seg
  times : WithinSpan Execution.serverTime (window * 2) seg

theorem ShortSegment.init {window : Int} {seg : List Execution} {last : Execution}
    (short : ShortSegment window (seg ++ [last])) : ShortSegment window seg where
  stamps a ha b hb := short.stamps a (List.mem_append_left _ ha) b (List.mem_append_left _ hb)
  times a ha b hb := short.times a (List.mem_append_left _ ha) b (List.mem_append_left _ hb)

/-- The arguments of every `check.lua` call sent so far, run or in flight. -/
def FleetState.checks (s : FleetState ι) : List CheckArgs :=
  s.log.map Execution.args ++ s.pending.filterMap ScriptCall.checkArgs

/-- The calls of a state: ids drawn once, keys of the API key, one limit. -/
structure CallsInv (F : Fleet ι) (key : KeyInfo) (window limit : Int) (s : FleetState ι) : Prop where
  owned : Owned F s.gateways
  issued : ∀ args ∈ s.checks, Issued s.gateways args.reqID
  unique : (s.checks.map CheckArgs.reqID).Nodup
  calls : ∀ args ∈ s.checks, args.rpmKey = rpmKey key ∧ args.tpmKey = tpmKey key ∧
    args.window = window ∧ args.rpmLim = limit
  records : ∀ args, ScriptCall.record args ∈ s.pending → args.key = tpmKey key

/-- Every execution admitted in a short segment that reaches up to now still
has its tick in the RPM set, and the set outlives the segment. -/
def TicksHeld (key : KeyInfo) (window : Int) (s : FleetState ι) : Prop :=
  ∀ before seg, s.log = before ++ seg → ShortSegment window seg → ∀ e ∈ seg, e.admitted = true →
    ∃ a ∈ seg, s.redis.Holds (rpmKey key) e.tick (a.serverTime + window * 2)

/-- The bound, for every short segment of the executions so far. -/
def SegmentsBounded (window limit : Int) (s : FleetState ι) : Prop :=
  ∀ before seg after, s.log = before ++ seg ++ after → ShortSegment window seg →
    (seg.countP Execution.admitted : Int) ≤ limit

section Calls

variable {F : Fleet ι} {key : KeyInfo} {window limit : Int} {s : FleetState ι}

/-- Running a call moves it from the calls in flight to the log. -/
theorem checks_execute {k : Nat} {args : CheckArgs} (found : s.pending[k]? = some (.check args))
    (e : Execution) (same : e.args = args) (redis : Redis) :
    (FleetState.checks { s with pending := s.pending.eraseIdx k, redis := redis, log := s.log ++ [e] }).Perm
      s.checks := by
  obtain ⟨bound, value⟩ := List.getElem?_eq_some_iff.mp found
  have moved := (List.getElem_cons_eraseIdx_perm bound).filterMap ScriptCall.checkArgs
  rw [value] at moved
  simp only [FleetState.checks, List.map_append, List.map_cons, List.map_nil, List.append_assoc, same]
  exact moved.append_left _

theorem checks_record {k : Nat} {args : RecordArgs} (found : s.pending[k]? = some (.record args)) (redis : Redis) :
    (FleetState.checks { s with pending := s.pending.eraseIdx k, redis := redis }).Perm s.checks := by
  obtain ⟨bound, value⟩ := List.getElem?_eq_some_iff.mp found
  have moved := (List.getElem_cons_eraseIdx_perm bound).filterMap ScriptCall.checkArgs
  rw [value] at moved
  exact moved.append_left _

/-- A step that only moves calls around keeps the facts about them. -/
theorem CallsInv.of_perm {t : FleetState ι} (inv : CallsInv F key window limit s)
    (gateways : t.gateways = s.gateways) (perm : t.checks.Perm s.checks)
    (pending : ∀ c ∈ t.pending, c ∈ s.pending) : CallsInv F key window limit t where
  owned := gateways ▸ inv.owned
  issued args member := gateways ▸ inv.issued args (perm.mem_iff.mp member)
  unique := (perm.map CheckArgs.reqID).nodup_iff.mpr inv.unique
  calls args member := inv.calls args (perm.mem_iff.mp member)
  records args member := inv.records args (pending _ member)

theorem SentCall.of_mem_checks {i : ι} {reqID : String} {call : Option ScriptCall}
    (sent : ∀ c ∈ call, SentCall F key i reqID c) {args : CheckArgs}
    (member : args ∈ call.toList.filterMap ScriptCall.checkArgs) : SentCall F key i reqID (.check args) := by
  obtain ⟨c, inCall, isCheck⟩ := List.mem_filterMap.mp member
  have good := sent c (by simpa using inCall)
  cases c with
  | check args' =>
    cases Option.some.inj isCheck
    exact good
  | record _ => cases isCheck

theorem CallsInv.send [DecidableEq ι] (inv : CallsInv F key window limit s)
    (windowed : ∀ i, (F.limiter i).windowMs = window)
    (limited : ∀ i, (F.limiter i).effectiveRPM key = limit) {i : ι} {nowMs : Int} {call : Option ScriptCall}
    (sent : ∀ c ∈ call, SentCall F key i ((s.gateways i).newReqID nowMs).1 c) :
    CallsInv F key window limit (Fleet.send s i ((s.gateways i).newReqID nowMs).2 call) := by
  have checks : (Fleet.send s i ((s.gateways i).newReqID nowMs).2 call).checks =
      s.checks ++ call.toList.filterMap ScriptCall.checkArgs := by
    simp [FleetState.checks, Fleet.send]
  have split : ∀ args ∈ (Fleet.send s i ((s.gateways i).newReqID nowMs).2 call).checks,
      args ∈ s.checks ∨ SentCall F key i ((s.gateways i).newReqID nowMs).1 (.check args) := by
    intro args member
    rw [checks, List.mem_append] at member
    exact member.imp_right (SentCall.of_mem_checks sent)
  constructor
  · exact inv.owned.newReqID i nowMs
  · intro args member
    rcases split args member with old | ⟨_, _, _, _, id⟩
    · exact (inv.issued args old).newReqID i nowMs
    · rw [id]
      exact issued_newReqID s.gateways i nowMs
  · -- the new id differs from every id issued so far
    have fresh := newReqID_not_issued inv.owned i nowMs
    rw [checks, List.map_append, List.nodup_append]
    refine ⟨inv.unique, ?_, ?_⟩
    · cases call with
      | none => exact .nil
      | some c =>
        cases c with
        | check args => exact List.nodup_singleton _
        | record args => exact .nil
    · intro id old id' new same
      subst id'
      obtain ⟨args, member, rfl⟩ := List.mem_map.mp old
      obtain ⟨args', member', id⟩ := List.mem_map.mp new
      obtain ⟨_, _, _, _, drawn⟩ := SentCall.of_mem_checks sent member'
      exact fresh (drawn ▸ id ▸ inv.issued args member)
  · intro args member
    rcases split args member with old | ⟨rpm, tpm, span, lim, _⟩
    · exact inv.calls args old
    · exact ⟨rpm, tpm, span.trans (windowed i), lim.trans (limited i)⟩
  · intro args member
    rcases List.mem_append.mp member with old | new
    · exact inv.records args old
    · exact sent _ (by simpa using new)

end Calls

section Bound

variable {F : Fleet ι} {key : KeyInfo} {window limit : Int} {s : FleetState ι}

/-- The log after one more execution, cut at any place. -/
theorem split_snoc {α : Type} {log before seg : List α} {e : α} (split : log ++ [e] = before ++ seg) :
    seg = [] ∨ ∃ init, seg = init ++ [e] ∧ log = before ++ init := by
  rcases List.eq_nil_or_concat seg with empty | ⟨init, last, rfl⟩
  · exact Or.inl empty
  · rw [List.concat_eq_append] at split ⊢
    rw [← List.append_assoc] at split
    obtain ⟨front, same⟩ := List.append_inj' split rfl
    cases same
    exact Or.inr ⟨init, rfl, front⟩

/-- The executions admitted in a segment have as many entries in the pruned RPM
set of the next execution, when that execution still belongs to the segment. -/
theorem TicksHeld.admitted_le_card (inv : CallsInv F key window limit s) (held : TicksHeld key window s)
    {k : Nat} {args : CheckArgs} (found : s.pending[k]? = some (.check args)) {before seg : List Execution}
    (split : s.log = before ++ seg) {reply : CheckReply}
    (short : ShortSegment window (seg ++ [⟨args, s.redis.time, reply⟩])) :
    (seg.countP Execution.admitted : Int) ≤ (args.pruned s.redis).zcard args.rpmKey := by
  have inFlight : args ∈ s.checks := List.mem_append_right _
    (List.mem_filterMap.mpr ⟨_, List.mem_of_getElem? found, rfl⟩)
  obtain ⟨atRpm, _, atWindow, _⟩ := inv.calls args inFlight
  have distinct : (((seg.filter Execution.admitted).map Execution.tick).map ScoredMember.member).Nodup := by
    have ids : (s.log.map fun e => e.args.reqID).Nodup := by
      have all := inv.unique
      rw [FleetState.checks, List.map_append, List.map_map] at all
      exact all.of_append_left
    rw [split, List.map_append] at ids
    rw [List.map_map]
    exact ids.of_append_right.sublist (List.filter_sublist.map _)
  have present : ∀ e ∈ (seg.filter Execution.admitted).map Execution.tick,
      e ∈ (args.pruned s.redis).zset args.rpmKey := by
    intro tick member
    obtain ⟨e, kept, rfl⟩ := List.mem_map.mp member
    obtain ⟨inSeg, admitted⟩ := List.mem_filter.mp kept
    obtain ⟨a, aSeg, holds⟩ := held before seg split short.init e inSeg admitted
    have inTime := short.times a (List.mem_append_left _ aSeg) _ List.mem_concat_self
    have inWindow := short.stamps e (List.mem_append_left _ inSeg) _ List.mem_concat_self
    simp only at inTime inWindow
    rw [← atRpm] at holds
    have pruned : (args.pruned s.redis).Holds args.rpmKey e.tick _ :=
      holds.zremrangebyscore (by omega) (by simp only [Execution.tick]; omega)
    exact pruned.mem_zset (by simp only [CheckArgs.pruned, Redis.time_zremrangebyscore]; omega)
  have count := SortedSet.length_le_card distinct present
  rw [List.length_map, ← List.countP_eq_length_filter] at count
  exact Int.ofNat_le.mpr count

theorem TicksHeld.execute (inv : CallsInv F key window limit s) (held : TicksHeld key window s)
    (spaced : 0 < window) (positive : 0 < limit) {k : Nat} {args : CheckArgs}
    (found : s.pending[k]? = some (.check args)) :
    TicksHeld key window { s with
      pending := s.pending.eraseIdx k, redis := (check s.redis args).2,
      log := s.log ++ [⟨args, s.redis.time, (check s.redis args).1⟩] } := by
  have inFlight : args ∈ s.checks := List.mem_append_right _
    (List.mem_filterMap.mpr ⟨_, List.mem_of_getElem? found, rfl⟩)
  obtain ⟨atRpm, atTpm, atWindow, atLimit⟩ := inv.calls args inFlight
  intro before seg split short e member admitted
  rcases split_snoc split with rfl | ⟨init, rfl, front⟩
  · simp at member
  rcases List.mem_append.mp member with old | new
  · obtain ⟨a, aInit, holds⟩ := held before init front short.init e old admitted
    have inTime := short.times a (List.mem_append_left _ aInit) _ List.mem_concat_self
    have inWindow := short.stamps e (List.mem_append_left _ old) _ List.mem_concat_self
    simp only at inTime inWindow
    have other : e.tick.member ≠ args.reqID := by
      have all := inv.unique
      rw [FleetState.checks, List.map_append, List.nodup_append] at all
      refine all.2.2 _ (List.mem_map.mpr ⟨e.args, List.mem_map_of_mem ?_, rfl⟩) _
        (List.mem_map_of_mem (List.mem_filterMap.mpr ⟨_, List.mem_of_getElem? found, rfl⟩))
      exact front ▸ List.mem_append_right _ old
    rw [← atRpm] at holds ⊢
    have apart : args.rpmKey ≠ args.tpmKey := atRpm ▸ atTpm ▸ rpmKey_ne_tpmKey key key
    rcases holds.check (by omega) apart (by omega) (by simp only [Execution.tick]; omega) other with same | moved
    · exact ⟨a, List.mem_append_left _ aInit, same⟩
    · exact ⟨_, List.mem_append_right _ (List.mem_singleton_self _), by rwa [atWindow] at moved⟩
  · rw [List.mem_singleton] at new
    subst e
    have holds := holds_of_check_allowed (by omega) (by omega) (of_decide_eq_true admitted)
    rw [atRpm, atWindow] at holds
    exact ⟨_, List.mem_append_right _ (List.mem_singleton_self _), holds⟩

theorem SegmentsBounded.execute (inv : CallsInv F key window limit s) (held : TicksHeld key window s)
    (bounded : SegmentsBounded window limit s) (positive : 0 < limit) {k : Nat} {args : CheckArgs}
    (found : s.pending[k]? = some (.check args)) :
    SegmentsBounded window limit { s with
      pending := s.pending.eraseIdx k, redis := (check s.redis args).2,
      log := s.log ++ [⟨args, s.redis.time, (check s.redis args).1⟩] } := by
  have inFlight : args ∈ s.checks := List.mem_append_right _
    (List.mem_filterMap.mpr ⟨_, List.mem_of_getElem? found, rfl⟩)
  obtain ⟨_, _, _, atLimit⟩ := inv.calls args inFlight
  intro before seg after split short
  rcases split_snoc split with rfl | ⟨init, rfl, front⟩
  · -- the segment reaches up to the new execution
    rw [List.append_nil] at split
    rcases split_snoc split with rfl | ⟨earlier, rfl, front⟩
    · simpa using positive.le
    · have fits := held.admitted_le_card inv found front short
      rw [List.countP_append]
      by_cases admitted : Execution.admitted ⟨args, s.redis.time, (check s.redis args).1⟩ = true
      · have room := card_lt_of_check_allowed (by omega) (of_decide_eq_true admitted)
        simp only [List.countP_singleton, admitted, if_true]
        omega
      · have old := bounded before earlier [] (by simpa using front) short.init
        simpa [List.countP_singleton, admitted] using old
  · exact bounded before seg init front short

/-- Ticks are not touched by what happens outside the RPM key. -/
theorem TicksHeld.of_holds {t : FleetState ι} (held : TicksHeld key window s) (log : t.log = s.log)
    (keep : ∀ e u, s.redis.Holds (rpmKey key) e u → t.redis.Holds (rpmKey key) e u) : TicksHeld key window t := by
  intro before seg split short e member admitted
  obtain ⟨a, aSeg, holds⟩ := held before seg (log ▸ split) short e member admitted
  exact ⟨a, aSeg, keep _ _ holds⟩

/-- Everything the bound rests on, in one state. -/
structure WindowInv (F : Fleet ι) (key : KeyInfo) (window limit : Int) (s : FleetState ι) : Prop where
  calls : CallsInv F key window limit s
  held : TicksHeld key window s
  bounded : SegmentsBounded window limit s

theorem WindowInv.start (F : Fleet ι) (key : KeyInfo) {window limit : Int} (positive : 0 < limit) (time : Int) :
    WindowInv F key window limit (F.start time) where
  calls :=
    { owned := fun _ => rfl
      issued := by simp [Fleet.start, FleetState.checks]
      unique := .nil
      calls := by simp [Fleet.start, FleetState.checks]
      records := by simp [Fleet.start] }
  held before seg split _ e member := by
    have empty := (List.append_eq_nil_iff.mp split.symm).2
    simp [empty] at member
  bounded before seg after split _ := by
    have empty := (List.append_eq_nil_iff.mp (List.append_eq_nil_iff.mp split.symm).1).2
    simpa [empty] using positive.le

theorem WindowInv.step [DecidableEq ι] {t : FleetState ι} {a : FleetAction ι}
    (inv : WindowInv F key window limit s) (windowed : ∀ i, (F.limiter i).windowMs = window)
    (limited : ∀ i, (F.limiter i).effectiveRPM key = limit) (spaced : 0 < window) (positive : 0 < limit)
    (taken : F.step key s a = some t) : WindowInv F key window limit t := by
  rcases Fleet.step_cases taken with rfl | ⟨i, nowMs, call, rfl, sent⟩ | ⟨k, args, found, rfl⟩ |
    ⟨k, args, found, rfl⟩ | ⟨time, rfl⟩
  · exact inv
  · exact ⟨inv.calls.send windowed limited sent, inv.held.of_holds rfl fun _ _ h => h, inv.bounded⟩
  · refine ⟨inv.calls.of_perm rfl (checks_execute found _ rfl _) fun c => List.mem_of_mem_eraseIdx, ?_, ?_⟩
    · exact inv.held.execute inv.calls spaced positive found
    · exact inv.bounded.execute inv.calls inv.held positive found
  · have atKey := inv.calls.records args (List.mem_of_getElem? found)
    refine ⟨inv.calls.of_perm rfl (checks_record found _) fun c => List.mem_of_mem_eraseIdx, ?_, inv.bounded⟩
    exact inv.held.of_holds rfl fun e u h => h.tpmRecord (atKey ▸ rpmKey_ne_tpmKey key key)
  · exact ⟨inv.calls.of_perm rfl (.refl _) fun _ h => h, inv.held.of_holds rfl fun _ _ h => h, inv.bounded⟩

end Bound

/-- The sliding window is safe whatever the instances' clocks say: in every run
of the fleet, a contiguous segment of the executions whose stamps lie in an
interval shorter than the window, and which takes less than two windows of
server time, admits at most the limit. -/
theorem rpm_window_safety [DecidableEq ι] (F : Fleet ι) (key : KeyInfo) {window limit : Int}
    (windowed : ∀ i, (F.limiter i).windowMs = window) (limited : ∀ i, (F.limiter i).effectiveRPM key = limit)
    (positive : 0 < limit) {time : Int} {actions : List (FleetAction ι)} {s : FleetState ι}
    (taken : Transition.run (F.step key) (F.start time) actions = some s) {before seg after : List Execution}
    (split : s.log = before ++ seg ++ after) (stamps : WithinSpan (fun e => e.args.now) window seg)
    (times : WithinSpan Execution.serverTime (window * 2) seg) :
    (seg.countP Execution.admitted : Int) ≤ limit := by
  rcases seg.eq_nil_or_concat with rfl | ⟨init, last, rfl⟩
  · simpa using positive.le
  have member : last ∈ init.concat last := by simp
  have spaced : 0 < window := by simpa using stamps last member last member
  have inv : WindowInv F key window limit s := Transition.run_invariant
    (fun _ _ _ held next => held.step windowed limited spaced positive next)
    (WindowInv.start F key positive time) taken
  exact inv.bounded before _ after split ⟨stamps, times⟩

/-- The later stamp runs first; the earlier one is turned away. -/
theorem rpm_window_safety_pair :
    ∃ s, Transition.run (pairFleet.step ⟨"k", "o", "", 0, 0, [], none⟩) (pairFleet.start 0)
        [.reserve true 5000, .reserve false 3000, .execute 0, .serverClock 10, .execute 0] = some s ∧
      s.log.length = 2 ∧ (s.log.countP Execution.admitted : Int) ≤ 1 := by
  refine ⟨_, rfl, rfl, ?_⟩
  have windowed : ∀ i, (pairFleet.limiter i).windowMs = 60000 := fun _ => rfl
  have whole (log : List Execution) : log = [] ++ log ++ [] := (List.append_nil log).symm
  have taken : Transition.run (pairFleet.step ⟨"k", "o", "", 0, 0, [], none⟩) (pairFleet.start 0)
      [.reserve true 5000, .reserve false 3000, .execute 0, .serverClock 10, .execute 0] = some _ := rfl
  refine rpm_window_safety pairFleet _ windowed (fun _ => rfl) (by decide) taken (whole _) ?_ ?_
  · unfold WithinSpan
    decide
  · unfold WithinSpan
    decide

end LlmGateway
