import Mathlib.Algebra.Order.Ring.Int
import LlmGateway.Auth.Cached
import LlmGateway.Lib.Transition

namespace LlmGateway

open Transition (moves_concat)

/-- `touchDebounce`, in nanoseconds. -/
def touchDebounce : Int := 60 * 1000000000

/-- Where a call of `maybeTouch` stands, in which every successful `Authenticate` ends.
The numbers are no part of the program: when the key was looked up, how many touches had
been decided on then, and which one is the call's own. -/
inductive TouchPC where
  | get
  | add (used : Int) (missed : Nat)
  | spawn (used : Int) (own : Nat)
  | returned (used : Int)
deriving DecidableEq, Repr

structure TouchCall where
  key : String
  pc : TouchPC

/-- A touch that was decided on, with the number of those before the lookup. -/
structure TouchDecision where
  key : String
  time : Int
  missed : Nat

/-- The goroutine of a touch: not yet started, in the store, or at its end. -/
inductive WriteState where
  | due
  | running
  | written
  | failed
deriving DecidableEq, Repr

structure Touch where
  decision : TouchDecision
  state : WriteState

/-- `touched` holds the time of each entry. The gateway and the database share a clock. -/
structure TouchState where
  touched : String → Option Int
  now : Int
  calls : List TouchCall
  touches : List Touch
  lastUsedAt : String → Option Int

inductive TouchAction where
  | call (key : String)
  | step (i : Nat)
  | write (j : Nat) (fault : Bool)
  | evict (key : String)
  | advance (d : Nat)

def TouchPC.inFlight : TouchPC → Bool
  | .returned _ => false
  | _ => true

/-- The key was missed when at most `i` touches had been decided on. -/
def TouchPC.missedBy (i : Nat) : TouchPC → Bool
  | .add _ missed => missed ≤ i
  | _ => false

def TouchState.inFlight (s : TouchState) : Nat := s.calls.countP fun call => call.pc.inFlight

def TouchState.missedBy (s : TouchState) (i : Nat) : Nat := s.calls.countP fun call => call.pc.missedBy i

def TouchState.decisions (s : TouchState) : List TouchDecision := s.touches.map Touch.decision

/-- The number of calls at a time, and the expiring table, which returns the entries that
are younger than the debounce interval. -/
structure Debounce where
  concurrency : Nat
  table : ExpiringLRU
  young : ∀ age, age < touchDebounce → table.returns touchDebounce age = true

namespace Debounce

variable (D : Debounce)

def start (now : Int) : TouchState := ⟨fun _ => none, now, [], [], fun _ => none⟩

/-- The entry of the key is returned. -/
def hit (s : TouchState) (key : String) : Bool := (s.touched key).any fun t => D.table.returns touchDebounce (s.now - t)

/-- `touched.Add` for the call, which has the `go` statement before it then. -/
def add (s : TouchState) (i : Nat) (call : TouchCall) (used : Int) (missed : Nat) : TouchState :=
  { s with
    touched := Function.update s.touched call.key (some s.now)
    touches := s.touches ++ [⟨⟨call.key, s.now, missed⟩, .due⟩]
    calls := s.calls.set i { call with pc := .spawn used s.touches.length } }

/-- The next step of `maybeTouch`: `touched.Get`, `touched.Add` and the `go` statement. -/
def maybeTouch (s : TouchState) (i : Nat) (call : TouchCall) : Option TouchState :=
  let goto (pc : TouchPC) := s.calls.set i { call with pc := pc }
  match call.pc with
  | .get =>
    if D.hit s call.key then some { s with calls := goto (.returned s.now) }
    else some { s with calls := goto (.add s.now s.touches.length) }
  | .add used missed => some (add s i call used missed)
  | .spawn used own =>
    s.touches[own]?.map fun touch =>
      { s with touches := s.touches.set own { touch with state := .running }, calls := goto (.returned used) }
  | .returned _ => none

/-- `TouchLastUsedAt` of a goroutine. -/
def write (s : TouchState) (j : Nat) (fault : Bool) (touch : Touch) : Option TouchState :=
  if touch.state = .running then
    if fault then some { s with touches := s.touches.set j { touch with state := .failed } }
    else some { s with
      touches := s.touches.set j { touch with state := .written }
      lastUsedAt := Function.update s.lastUsedAt touch.decision.key (some s.now) }
  else none

def step (s : TouchState) : TouchAction → Option TouchState
  | .call key => if s.inFlight < D.concurrency then some { s with calls := s.calls ++ [⟨key, .get⟩] } else none
  | .step i => s.calls[i]?.bind (D.maybeTouch s i)
  | .write j fault => s.touches[j]?.bind (write s j fault)
  | .evict key => some { s with touched := Function.update s.touched key none }
  | .advance d => some { s with now := s.now + d }

/-- What a step does. -/
inductive Moved (s : TouchState) : TouchAction → TouchState → Prop
  | called (key : String) (room : s.inFlight < D.concurrency) :
    Moved s (.call key) { s with calls := s.calls ++ [⟨key, .get⟩] }
  | hit {i : Nat} {call : TouchCall} (here : s.calls[i]? = some call) (place : call.pc = .get) {t : Int}
    (entry : s.touched call.key = some t) (recent : D.table.returns touchDebounce (s.now - t) = true) :
    Moved s (.step i) { s with calls := s.calls.set i { call with pc := .returned s.now } }
  | missed {i : Nat} {call : TouchCall} (here : s.calls[i]? = some call) (place : call.pc = .get)
    (absent : ∀ t, s.touched call.key = some t → D.table.returns touchDebounce (s.now - t) = false) :
    Moved s (.step i) { s with calls := s.calls.set i { call with pc := .add s.now s.touches.length } }
  | added {i : Nat} {call : TouchCall} (here : s.calls[i]? = some call) {used : Int} {missed : Nat}
    (place : call.pc = .add used missed) : Moved s (.step i) (add s i call used missed)
  | spawned {i : Nat} {call : TouchCall} (here : s.calls[i]? = some call) {used : Int} {own : Nat}
    (place : call.pc = .spawn used own) {touch : Touch} (there : s.touches[own]? = some touch) :
    Moved s (.step i) { s with
      touches := s.touches.set own { touch with state := .running }
      calls := s.calls.set i { call with pc := .returned used } }
  | failed {j : Nat} {touch : Touch} (there : s.touches[j]? = some touch) (runs : touch.state = .running) :
    Moved s (.write j true) { s with touches := s.touches.set j { touch with state := .failed } }
  | written {j : Nat} {touch : Touch} (there : s.touches[j]? = some touch) (runs : touch.state = .running) :
    Moved s (.write j false) { s with
      touches := s.touches.set j { touch with state := .written }
      lastUsedAt := Function.update s.lastUsedAt touch.decision.key (some s.now) }
  | evicted (key : String) : Moved s (.evict key) { s with touched := Function.update s.touched key none }
  | advanced (d : Nat) : Moved s (.advance d) { s with now := s.now + d }

variable {D} {s t : TouchState} {a : TouchAction}

theorem moved_of_step (stepped : D.step s a = some t) : Moved D s a t := by
  cases a with
  | call key =>
    simp only [step] at stepped
    split at stepped
    · rename_i room
      cases stepped
      exact .called key room
    · cases stepped
  | step i =>
    obtain ⟨call, here, moved⟩ := Option.bind_eq_some_iff.mp stepped
    unfold maybeTouch at moved
    cases place : call.pc with
    | get =>
      cases entry : s.touched call.key with
      | none =>
        simp only [place, hit, entry, Option.any_none, Bool.false_eq_true, if_false, Option.some.injEq] at moved
        exact moved ▸ .missed here place (by simp [entry])
      | some t =>
        cases recent : D.table.returns touchDebounce (s.now - t) with
        | true =>
          simp only [place, hit, entry, Option.any_some, recent, if_true, Option.some.injEq] at moved
          exact moved ▸ .hit here place entry recent
        | false =>
          simp only [place, hit, entry, Option.any_some, recent, Bool.false_eq_true, if_false,
            Option.some.injEq] at moved
          exact moved ▸ .missed here place (by simpa [entry] using recent)
    | add used missed =>
      simp only [place, Option.some.injEq] at moved
      exact moved ▸ .added here place
    | spawn used own =>
      simp only [place, Option.map_eq_some_iff] at moved
      obtain ⟨touch, there, rfl⟩ := moved
      exact .spawned here place there
    | returned used => simp [place] at moved
  | write j fault =>
    obtain ⟨touch, there, moved⟩ := Option.bind_eq_some_iff.mp stepped
    unfold write at moved
    split at moved
    · rename_i runs
      cases fault with
      | true =>
        cases moved
        exact .failed there runs
      | false =>
        cases moved
        exact .written there runs
    · cases moved
  | evict key =>
    cases stepped
    exact .evicted key
  | advance d =>
    cases stepped
    exact .advanced d

/-- The state of a goroutine is no part of what was decided. -/
theorem decisions_set {touches : List Touch} {j : Nat} {touch : Touch} (there : touches[j]? = some touch)
    (state : WriteState) :
    (touches.set j { touch with state := state }).map Touch.decision = touches.map Touch.decision := by
  rw [List.map_set]
  refine List.ext_getElem? fun i => ?_
  by_cases here : j = i
  · subst here
    obtain ⟨bound, found⟩ := List.getElem?_eq_some_iff.mp there
    simp [bound, found]
  · simp [List.getElem?_set_ne here]

theorem decisions_add (i : Nat) (call : TouchCall) (used : Int) (missed : Nat) :
    (add s i call used missed).decisions = s.decisions ++ [⟨call.key, s.now, missed⟩] := by
  simp [add, TouchState.decisions]

theorem touched_add (i : Nat) (call : TouchCall) (used : Int) (missed : Nat) :
    (add s i call used missed).touched = Function.update s.touched call.key (some s.now) := rfl

/-- A call has seen or made a decision that is not much older than its lookup. -/
def Carries (now : Int) (decisions : List TouchDecision) (call : TouchCall) : Prop :=
  match call.pc with
  | .get => True
  | .add used _ => used ≤ now
  | .spawn used own => ∃ d, decisions[own]? = some d ∧ d.key = call.key ∧ used ≤ d.time
  | .returned used => ∃ d ∈ decisions, d.key = call.key ∧ used - touchDebounce < d.time

theorem Carries.mono {now later : Int} {decisions more : List TouchDecision} {call : TouchCall}
    (carries : Carries now decisions call) (time : now ≤ later) (longer : decisions <+: more) :
    Carries later more call := by
  unfold Carries at carries ⊢
  split
  · trivial
  · rename_i place
    simp only [place] at carries
    omega
  · rename_i place
    simp only [place] at carries
    obtain ⟨d, there, known⟩ := carries
    obtain ⟨rest, rfl⟩ := longer
    exact ⟨d, (List.getElem?_append_left (List.getElem?_eq_some_iff.mp there).1).trans there, known⟩
  · rename_i place
    simp only [place] at carries
    obtain ⟨d, member, known⟩ := carries
    exact ⟨d, longer.subset member, known⟩

/-- Entries and calls go back to decisions. -/
structure Recent (s : TouchState) : Prop where
  past : ∀ d ∈ s.decisions, d.time ≤ s.now
  entry : ∀ key time, s.touched key = some time → ∃ d ∈ s.decisions, d.key = key ∧ d.time = time
  calls : ∀ call ∈ s.calls, Carries s.now s.decisions call

theorem recent_start (now : Int) : Recent (start now) := by
  constructor <;> simp [start, TouchState.decisions]

/-- Only the calls have changed, and what became of the goroutines. -/
theorem Recent.congr (recent : Recent s) (decided : t.decisions = s.decisions) (table : t.touched = s.touched)
    (clock : t.now = s.now) (calls : ∀ call ∈ t.calls, Carries s.now s.decisions call) : Recent t where
  past := by
    rw [decided, clock]
    exact recent.past
  entry := by
    rw [decided, table]
    exact recent.entry
  calls := by
    rw [decided, clock]
    exact calls

theorem Recent.step (recent : Recent s) (moved : Moved D s a t) : Recent t := by
  have replace {i : Nat} {new : TouchCall} (carries : Carries s.now s.decisions new) :
      ∀ call ∈ s.calls.set i new, Carries s.now s.decisions call := by
    intro call member
    rcases List.mem_or_eq_of_mem_set member with old | rfl
    · exact recent.calls call old
    · exact carries
  cases moved with
  | called key room =>
    refine recent.congr rfl rfl rfl ?_
    intro call member
    rcases List.mem_append.mp member with old | new
    · exact recent.calls call old
    · rw [List.mem_singleton.mp new]
      trivial
  | @hit i call here place time entry young =>
    refine recent.congr rfl rfl rfl (replace ?_)
    obtain ⟨d, member, key, same⟩ := recent.entry call.key time entry
    have age : s.now - time < touchDebounce := by
      by_contra older
      rw [D.table.expires _ _ (by decide) (by omega)] at young
      cases young
    exact ⟨d, member, key, by omega⟩
  | missed here place absent => exact recent.congr rfl rfl rfl (replace le_rfl)
  | @added i call here used missed place =>
    have before : used ≤ s.now := by
      have carries := recent.calls call (List.mem_of_getElem? here)
      simpa [Carries, place] using carries
    constructor
    · rw [decisions_add]
      intro d member
      rcases List.mem_append.mp member with old | new
      · exact recent.past d old
      · rw [List.mem_singleton.mp new]
        exact le_rfl
    · rw [decisions_add, touched_add]
      intro key time entry
      by_cases same : key = call.key
      · subst same
        simp only [Function.update_self, Option.some.injEq] at entry
        exact ⟨_, List.mem_append_right _ (List.mem_singleton_self _), rfl, entry⟩
      · simp only [Function.update_of_ne same] at entry
        obtain ⟨d, member, known⟩ := recent.entry key time entry
        exact ⟨d, List.mem_append_left _ member, known⟩
    · rw [decisions_add]
      intro other member
      rcases List.mem_or_eq_of_mem_set member with old | rfl
      · exact (recent.calls other old).mono le_rfl (List.prefix_append _ _)
      · refine ⟨⟨call.key, s.now, missed⟩, ?_, rfl, before⟩
        simp [TouchState.decisions]
  | @spawned i call here used own place touch there =>
    have carries := recent.calls call (List.mem_of_getElem? here)
    simp only [Carries, place] at carries
    obtain ⟨d, at_, key, later⟩ := carries
    have wide : 0 < touchDebounce := by decide
    exact recent.congr (decisions_set there .running) rfl rfl
      (replace ⟨d, List.mem_of_getElem? at_, key, by omega⟩)
  | failed there runs => exact recent.congr (decisions_set there .failed) rfl rfl recent.calls
  | written there runs => exact recent.congr (decisions_set there .written) rfl rfl recent.calls
  | evicted key =>
    refine ⟨recent.past, ?_, recent.calls⟩
    intro other time entry
    by_cases same : other = key
    · simp [same] at entry
    · exact recent.entry other time (by simpa [Function.update_of_ne same] using entry)
  | advanced d =>
    have later : s.now ≤ s.now + d := by omega
    exact ⟨fun e member => (recent.past e member).trans later, recent.entry,
      fun call member => (recent.calls call member).mono later List.prefix_rfl⟩

/-- What has become of the goroutines. -/
structure Stored (s : TouchState) : Prop where
  due : ∀ (j : Nat) touch, s.touches[j]? = some touch → touch.state = .due →
    ∃ call ∈ s.calls, ∃ used, call.pc = .spawn used j
  stored : ∀ touch ∈ s.touches, touch.state = .written →
    ∃ time, s.lastUsedAt touch.decision.key = some time ∧ touch.decision.time ≤ time
  stamped : ∀ key time, s.lastUsedAt key = some time → time ≤ s.now

/-- The goroutines and the rows stay, and every call that was to start one is there. -/
theorem Stored.congr (held : Stored s) (touches : t.touches = s.touches) (rows : t.lastUsedAt = s.lastUsedAt)
    (clock : s.now ≤ t.now)
    (kept : ∀ call ∈ s.calls, ∀ used own, call.pc = .spawn used own → ∃ call ∈ t.calls, call.pc = .spawn used own) :
    Stored t where
  due := by
    intro j touch there open_
    rw [touches] at there
    obtain ⟨call, member, used, place⟩ := held.due j touch there open_
    obtain ⟨other, still, same⟩ := kept call member used j place
    exact ⟨other, still, used, same⟩
  stored := by
    rw [touches, rows]
    exact held.stored
  stamped := by
    rw [rows]
    exact fun key time stamped => (held.stamped key time stamped).trans clock

/-- A call that is elsewhere stays when one call moves. -/
theorem mem_calls_set {i : Nat} {call old new : TouchCall} (here : s.calls[i]? = some old) (member : call ∈ s.calls)
    (other : call.pc ≠ old.pc) : call ∈ s.calls.set i new := by
  obtain ⟨j, there⟩ := List.mem_iff_getElem?.mp member
  have different : i ≠ j := by
    rintro rfl
    rw [there] at here
    cases here
    exact other rfl
  exact List.mem_iff_getElem?.mpr ⟨j, (List.getElem?_set_ne different).trans there⟩

/-- A goroutine in another state is not one that is still to be started, unless it
was one before. -/
theorem Stored.due_set (held : Stored s) {i j : Nat} {new touch : Touch}
    (there : (s.touches.set j new)[i]? = some touch) (open_ : touch.state = .due) (started : new.state ≠ .due) :
    i ≠ j ∧ ∃ call ∈ s.calls, ∃ used, call.pc = .spawn used i := by
  by_cases same : j = i
  · subst same
    have bound : j < s.touches.length := by simpa using (List.getElem?_eq_some_iff.mp there).1
    rw [List.getElem?_set_self bound] at there
    cases there
    exact absurd open_ started
  · rw [List.getElem?_set_ne same] at there
    exact ⟨Ne.symm same, held.due i touch there open_⟩

theorem Stored.step (held : Stored s) (recent : Recent s) (moved : Moved D s a t) : Stored t := by
  cases moved with
  | called key room =>
    exact held.congr rfl rfl le_rfl fun call member used own place => ⟨call, List.mem_append_left _ member, place⟩
  | hit here place entry young =>
    refine held.congr rfl rfl le_rfl fun call member used own there => ⟨call, mem_calls_set here member ?_, there⟩
    simp [there, place]
  | missed here place absent =>
    refine held.congr rfl rfl le_rfl fun call member used own there => ⟨call, mem_calls_set here member ?_, there⟩
    simp [there, place]
  | @added i call here used missed place =>
    refine ⟨?_, ?_, held.stamped⟩
    · intro j touch there open_
      by_cases new : j = s.touches.length
      · subst new
        have bound := (List.getElem?_eq_some_iff.mp here).1
        exact ⟨_, List.mem_of_getElem? (List.getElem?_set_self bound), used, rfl⟩
      · have old : s.touches[j]? = some touch := (moves_concat.others j new).symm.trans there
        obtain ⟨other, member, used', place'⟩ := held.due j touch old open_
        exact ⟨other, mem_calls_set here member (by simp [place, place']), used', place'⟩
    · intro touch member written
      rcases List.mem_append.mp member with old | new
      · exact held.stored touch old written
      · rw [List.mem_singleton.mp new] at written
        cases written
  | @spawned i call here used own place touch there =>
    refine ⟨?_, ?_, held.stamped⟩
    · intro j other at_ open_
      obtain ⟨different, waiting, member, used', place'⟩ := held.due_set at_ open_ nofun
      refine ⟨waiting, mem_calls_set here member ?_, used', place'⟩
      simp [place, place', different]
    · intro other member written
      rcases List.mem_or_eq_of_mem_set member with old | rfl
      · exact held.stored other old written
      · cases written
  | failed there runs =>
    refine ⟨fun j other at_ open_ => (held.due_set at_ open_ nofun).2, ?_, held.stamped⟩
    intro other member written
    rcases List.mem_or_eq_of_mem_set member with old | rfl
    · exact held.stored other old written
    · cases written
  | @written j touch there runs =>
    have past {other : Touch} (member : other ∈ s.touches) : other.decision.time ≤ s.now :=
      recent.past _ (List.mem_map_of_mem member)
    refine ⟨fun j other at_ open_ => (held.due_set at_ open_ nofun).2, ?_, ?_⟩
    · intro other member written
      rcases List.mem_or_eq_of_mem_set member with old | rfl
      · by_cases same : other.decision.key = touch.decision.key
        · rw [same]
          exact ⟨s.now, Function.update_self .., past old⟩
        · obtain ⟨time, row, later⟩ := held.stored other old written
          exact ⟨time, (Function.update_of_ne same ..).trans row, later⟩
      · have mine : touch.decision.time ≤ s.now := past (List.mem_of_getElem? there)
        exact ⟨s.now, Function.update_self .., mine⟩
    · intro key time row
      by_cases same : key = touch.decision.key
      · subst same
        simp only [Function.update_self, Option.some.injEq] at row
        exact row.ge
      · simp only [Function.update_of_ne same] at row
        exact held.stamped key time row
  | evicted key => exact held.congr rfl rfl le_rfl fun call member used own place => ⟨call, member, place⟩
  | advanced d =>
    refine held.congr rfl rfl ?_ fun call member used own place => ⟨call, member, place⟩
    change s.now ≤ s.now + d
    omega

/-- Two calls at a time. -/
def twoCalls : Debounce where
  concurrency := 2
  table := .punctual
  young _ less := decide_eq_true (.inr less)

/-- Both calls miss the key and touch it; a later one finds it touched. -/
def racingTouches : List TouchAction :=
  [.call "dev", .call "dev", .step 0, .step 1, .step 0, .step 1, .step 0, .step 1, .write 0 false, .write 1 false,
    .advance 10, .call "dev", .step 2]

/-- While nothing is evicted, the entry of a key is its last touch; a call that missed
the key did so long after the touches before its lookup. -/
structure Spaced (s : TouchState) : Prop where
  absent : ∀ d ∈ s.decisions, s.touched d.key ≠ none
  latest : ∀ d ∈ s.decisions, ∀ time, s.touched d.key = some time → d.time ≤ time
  adding : ∀ call ∈ s.calls, ∀ used missed, call.pc = .add used missed → missed ≤ s.decisions.length ∧
    ∀ d ∈ s.decisions.take missed, d.key = call.key → d.time + touchDebounce ≤ s.now
  decided : ∀ (j : Nat) d, s.decisions[j]? = some d → d.missed ≤ j ∧
    ∀ e ∈ s.decisions.take d.missed, e.key = d.key → e.time + touchDebounce ≤ d.time

theorem spaced_start (now : Int) : Spaced (start now) := by
  constructor <;> simp [start, TouchState.decisions]

/-- Only the calls have changed, the time and what became of the goroutines. -/
theorem Spaced.congr (spaced : Spaced s) (decisions : t.decisions = s.decisions) (table : t.touched = s.touched)
    (calls : ∀ call ∈ t.calls, ∀ used missed, call.pc = .add used missed → missed ≤ s.decisions.length ∧
      ∀ d ∈ s.decisions.take missed, d.key = call.key → d.time + touchDebounce ≤ t.now) : Spaced t where
  absent := by
    rw [decisions, table]
    exact spaced.absent
  latest := by
    rw [decisions, table]
    exact spaced.latest
  adding := by
    rw [decisions]
    exact calls
  decided := by
    rw [decisions]
    exact spaced.decided

/-- A call that missed the key decides on a touch. -/
theorem Spaced.decide (spaced : Spaced s) (recent : Recent s) {i : Nat} {call : TouchCall}
    (here : s.calls[i]? = some call) {used : Int} {missed : Nat} (place : call.pc = .add used missed) :
    Spaced (add s i call used missed) := by
  obtain ⟨bound, long⟩ := spaced.adding call (List.mem_of_getElem? here) used missed place
  refine ⟨?_, ?_, ?_, ?_⟩ <;> rw [decisions_add]
  · rw [touched_add]
    intro d member
    by_cases same : d.key = call.key
    · simp [same]
    · rcases List.mem_append.mp member with old | new
      · simpa [Function.update_of_ne same] using spaced.absent d old
      · exact absurd (by rw [List.mem_singleton.mp new]) same
  · rw [touched_add]
    intro d member time entry
    rcases List.mem_append.mp member with old | new
    · by_cases same : d.key = call.key
      · rw [same, Function.update_self] at entry
        cases entry
        exact recent.past d old
      · rw [Function.update_of_ne same] at entry
        exact spaced.latest d old time entry
    · obtain rfl := List.mem_singleton.mp new
      rw [Function.update_self] at entry
      cases entry
      exact le_rfl
  · intro other member used' missed' adds
    rcases List.mem_or_eq_of_mem_set member with old | rfl
    · obtain ⟨bound', long'⟩ := spaced.adding other old used' missed' adds
      rw [List.take_append_of_le_length bound']
      exact ⟨bound'.trans (by simp), long'⟩
    · cases adds
  · intro j d there
    by_cases last : j = s.decisions.length
    · subst last
      cases (moves_concat.here (p := (⟨call.key, s.now, missed⟩ : TouchDecision))).symm.trans there
      rw [List.take_append_of_le_length bound]
      exact ⟨bound, long⟩
    · have old : s.decisions[j]? = some d := (moves_concat.others j last).symm.trans there
      obtain ⟨before, spread⟩ := spaced.decided j d old
      have inside := (List.getElem?_eq_some_iff.mp old).1
      rw [List.take_append_of_le_length (by omega)]
      exact ⟨before, spread⟩

theorem Spaced.step (spaced : Spaced s) (recent : Recent s) (moved : Moved D s a t) (kept : ∀ key, a ≠ .evict key) :
    Spaced t := by
  have others {i : Nat} {new : TouchCall} (place : ∀ used missed, new.pc ≠ .add used missed) :
      ∀ call ∈ s.calls.set i new, ∀ used missed, call.pc = .add used missed → missed ≤ s.decisions.length ∧
        ∀ d ∈ s.decisions.take missed, d.key = call.key → d.time + touchDebounce ≤ s.now := by
    intro call member used missed adds
    rcases List.mem_or_eq_of_mem_set member with old | rfl
    · exact spaced.adding call old used missed adds
    · exact absurd adds (place used missed)
  cases moved with
  | called key room =>
    refine spaced.congr rfl rfl ?_
    intro call member used missed place
    rcases List.mem_append.mp member with old | new
    · exact spaced.adding call old used missed place
    · rw [List.mem_singleton.mp new] at place
      cases place
  | hit here place entry young => exact spaced.congr rfl rfl (others nofun)
  | @missed i call here place absent =>
    refine spaced.congr rfl rfl ?_
    intro other member used missed adds
    rcases List.mem_or_eq_of_mem_set member with old | rfl
    · exact spaced.adding other old used missed adds
    · cases adds
      refine ⟨by simp [TouchState.decisions], fun d listed same => ?_⟩
      have listed := List.mem_of_mem_take listed
      cases entry : s.touched d.key with
      | none => exact absurd entry (spaced.absent d listed)
      | some time =>
        have last := spaced.latest d listed time entry
        have stale := absent time (same ▸ entry)
        refine not_lt.mp fun (young : s.now < d.time + touchDebounce) => ?_
        rw [D.young _ (by omega)] at stale
        cases stale
  | @added i call here used missed place =>
    exact spaced.decide recent here place
  | spawned here place there =>
    exact spaced.congr (decisions_set there .running) rfl (others nofun)
  | failed there runs => exact spaced.congr (decisions_set there .failed) rfl spaced.adding
  | written there runs => exact spaced.congr (decisions_set there .written) rfl spaced.adding
  | evicted key => exact absurd rfl (kept key)
  | advanced d =>
    have later : s.now ≤ s.now + d := by omega
    refine spaced.congr rfl rfl fun call member used missed place => ?_
    obtain ⟨bound, old⟩ := spaced.adding call member used missed place
    exact ⟨bound, fun e listed same => (old e listed same).trans later⟩

/-- One entry of a list counts instead of another. -/
theorem countP_set_add {α : Type} {l : List α} {i : Nat} {old : α} (here : l[i]? = some old) (new : α) (p : α → Bool) :
    (l.set i new).countP p + (if p old then 1 else 0) = l.countP p + if p new then 1 else 0 := by
  induction l generalizing i with
  | nil => simp at here
  | cons first rest ih =>
    cases i with
    | zero =>
      cases Option.some.inj here
      simp only [List.set_cons_zero, List.countP_cons]
      omega
    | succ i =>
      have tail := ih (i := i) (by simpa using here)
      simp only [List.set_cons_succ, List.countP_cons]
      omega

/-- The calls whose lookup was before the `i`-th decision are at most as many as there
are calls at a time: those that have decided since, and those that still have to. -/
def Crowd (D : Debounce) (s : TouchState) : Prop :=
  s.inFlight ≤ D.concurrency ∧ ∀ i ≤ s.decisions.length,
    (s.decisions.drop i).countP (fun d => d.missed ≤ i) + s.missedBy i ≤ D.concurrency

theorem missedBy_le (s : TouchState) (i : Nat) : s.missedBy i ≤ s.inFlight := by
  refine List.countP_mono_left fun call _ missed => ?_
  cases place : call.pc <;> simp_all [TouchPC.missedBy, TouchPC.inFlight]

theorem countP_set_le {α : Type} {l : List α} {i : Nat} {old new : α} {p : α → Bool} (here : l[i]? = some old)
    (less : p new = true → p old = true) : (l.set i new).countP p ≤ l.countP p := by
  have counts := countP_set_add here new p
  cases now : p new with
  | true =>
    rw [now, less now] at counts
    omega
  | false =>
    rw [now] at counts
    simp only [Bool.false_eq_true, if_false] at counts
    omega

/-- No decision is added, and nobody who was late is early now. -/
theorem Crowd.congr (crowd : Crowd D s) (decisions : t.decisions = s.decisions) (few : t.inFlight ≤ D.concurrency)
    (fewer : ∀ i < s.decisions.length, t.missedBy i ≤ s.missedBy i) : Crowd D t := by
  refine ⟨few, fun i bound => ?_⟩
  rw [decisions] at bound ⊢
  rcases Nat.lt_or_eq_of_le bound with inside | last
  · have before := crowd.2 i bound
    have less := fewer i inside
    omega
  · rw [List.drop_of_length_le last.ge]
    have all := missedBy_le t i
    simp only [List.countP_nil]
    omega

/-- A call decides on a touch: it counts among the decisions instead of the calls. -/
theorem Crowd.decide (crowd : Crowd D s) {i : Nat} {call : TouchCall} (here : s.calls[i]? = some call) {used : Int}
    {missed : Nat} (place : call.pc = .add used missed) : Crowd D (add s i call used missed) := by
  have few : (add s i call used missed).inFlight ≤ D.concurrency :=
    (countP_set_le here (by simp [place, TouchPC.inFlight])).trans crowd.1
  refine ⟨few, fun j bound => ?_⟩
  rw [decisions_add, List.length_append, List.length_singleton] at bound
  rw [decisions_add]
  rcases Nat.lt_or_eq_of_le bound with inside | last
  · have before := crowd.2 j (by omega)
    have late : (add s i call used missed).missedBy j + (if missed ≤ j then 1 else 0) = s.missedBy j := by
      have counts : (add s i call used missed).missedBy j + (if call.pc.missedBy j then 1 else 0) = s.missedBy j +
          if (TouchPC.spawn used s.touches.length).missedBy j then 1 else 0 := countP_set_add here _ _
      rw [place] at counts
      simpa [TouchPC.missedBy] using counts
    rw [List.drop_append_of_le_length (by omega), List.countP_append, List.countP_singleton]
    simp only [decide_eq_true_eq]
    omega
  · rw [List.drop_of_length_le (by simp [last])]
    have all := missedBy_le (add s i call used missed) j
    simp only [List.countP_nil]
    omega

theorem Crowd.step (crowd : Crowd D s) (moved : Moved D s a t) : Crowd D t := by
  cases moved with
  | called key room =>
    refine crowd.congr rfl ?_ fun i _ => ?_
    · rw [TouchState.inFlight, List.countP_append, List.countP_singleton]
      exact room
    · rw [TouchState.missedBy, List.countP_append, List.countP_singleton]
      exact le_rfl
  | hit here place entry young =>
    refine crowd.congr rfl ((countP_set_le here ?_).trans crowd.1) fun j _ => countP_set_le here ?_
    · simp [TouchPC.inFlight]
    · simp [TouchPC.missedBy]
  | missed here place absent =>
    refine crowd.congr rfl ((countP_set_le here ?_).trans crowd.1) fun j inside => countP_set_le here ?_
    · simp [place, TouchPC.inFlight]
    · have beyond : ¬ s.touches.length ≤ j := by simpa [TouchState.decisions] using inside
      simp [TouchPC.missedBy, beyond]
  | added here place => exact crowd.decide here place
  | spawned here place there =>
    refine crowd.congr (decisions_set there .running) ((countP_set_le here ?_).trans crowd.1)
      fun j _ => countP_set_le here ?_
    · simp [TouchPC.inFlight]
    · simp [TouchPC.missedBy]
  | failed there runs => exact crowd.congr (decisions_set there .failed) crowd.1 fun _ _ => le_rfl
  | written there runs => exact crowd.congr (decisions_set there .written) crowd.1 fun _ _ => le_rfl
  | evicted key => exact crowd
  | advanced d => exact crowd

theorem crowd_start (D : Debounce) (now : Int) : Crowd D (start now) :=
  ⟨Nat.zero_le _, fun i _ => by simp [start, TouchState.decisions, TouchState.missedBy]⟩

theorem spaced_run {now : Int} {actions : List TouchAction} (kept : ∀ key, .evict key ∉ actions)
    (taken : Transition.run D.step (start now) actions = some s) : Spaced s ∧ Crowd D s := by
  have both : Recent s ∧ Spaced s ∧ Crowd D s := by
    revert kept
    refine Transition.run_induction (motive := fun actions s => (∀ key, .evict key ∉ actions) →
      Recent s ∧ Spaced s ∧ Crowd D s) (fun _ => ⟨recent_start now, spaced_start now, crowd_start D now⟩) ?_ taken
    intro before s a t _ held stepped kept
    obtain ⟨recent, spaced, crowd⟩ := held fun key member => kept key (List.mem_append_left _ member)
    have moved := moved_of_step stepped
    have stays (key : String) : a ≠ .evict key := fun same => kept key (by simp [same])
    exact ⟨recent.step moved, spaced.step recent moved stays, crowd.step moved⟩
  exact both.2

/-- In any interval as long as the debounce a key is touched at most as often as there
are calls at a time, as long as the table has room for its keys. -/
theorem touches_bounded {now : Int} {actions : List TouchAction} (kept : ∀ key, .evict key ∉ actions)
    (taken : Transition.run D.step (start now) actions = some s) (key : String) (from_ : Int) :
    (s.decisions.filter fun d => d.key = key ∧ from_ ≤ d.time ∧ d.time < from_ + touchDebounce).length ≤
      D.concurrency := by
  obtain ⟨spaced, crowd⟩ := spaced_run kept taken
  set inside : TouchDecision → Bool := fun d => d.key = key ∧ from_ ≤ d.time ∧ d.time < from_ + touchDebounce
  cases found : s.decisions.findIdx? inside with
  | none =>
    have nobody : s.decisions.filter inside = [] := by
      rw [List.filter_eq_nil_iff]
      simpa using List.findIdx?_eq_none_iff.mp found
    simp [nobody]
  | some i =>
    obtain ⟨bound, here, before⟩ := List.findIdx?_eq_some_iff_getElem.mp found
    have early : (s.decisions.take i).countP inside = 0 := by
      rw [List.countP_eq_zero]
      intro d member
      obtain ⟨j, less, rfl⟩ := List.mem_take_iff_getElem.mp member
      exact before j (by omega)
    have late : ∀ d ∈ s.decisions.drop i, inside d = true → decide (d.missed ≤ i) = true := by
      intro d member within
      rw [decide_eq_true_eq]
      by_contra after
      obtain ⟨j, there⟩ := List.mem_iff_getElem?.mp (List.mem_of_mem_drop member)
      have first : s.decisions[i] ∈ s.decisions.take d.missed :=
        List.mem_take_iff_getElem.mpr ⟨i, by omega, rfl⟩
      simp only [inside, decide_eq_true_eq] at here within
      have apart := (spaced.decided j d there).2 _ first (here.1.trans within.1.symm)
      omega
    calc (s.decisions.filter inside).length
        = (s.decisions.take i ++ s.decisions.drop i).countP inside := by
          rw [List.take_append_drop, List.countP_eq_length_filter]
      _ = (s.decisions.drop i).countP inside := by rw [List.countP_append, early, Nat.zero_add]
      _ ≤ (s.decisions.drop i).countP fun d => d.missed ≤ i := List.countP_mono_left late
      _ ≤ D.concurrency := (Nat.le_add_right _ _).trans (crowd.2 i bound.le)

theorem touches_bounded_racing :
    ∃ s, Transition.run twoCalls.step (start 0) racingTouches = some s ∧
      (s.decisions.filter fun d => d.key = "dev" ∧ 0 ≤ d.time ∧ d.time < 0 + touchDebounce).length ≤ 2 := by
  obtain ⟨s, taken⟩ : ∃ s, Transition.run twoCalls.step (start 0) racingTouches = some s := ⟨_, rfl⟩
  exact ⟨s, taken, touches_bounded (by simp [racingTouches]) taken "dev" 0⟩

end Debounce

end LlmGateway
