import LlmGateway.Lib.Transition
import LlmGateway.Provider.Stream

namespace LlmGateway

inductive CallKind where
  | completion
  | stream
deriving DecidableEq

/-- Where the calling goroutine stands in the retry loop. -/
inductive LoopPC where
  | calling
  | waiting
  | recording (r : HealthRecord)
  | returned
deriving DecidableEq

/-- The goroutine of the adapter: it reads the upstream's answer until that is
over or the context is done, and then closes its channel. -/
inductive AdapterPC where
  | idle
  | reading
  | leaving
  | closed
deriving DecidableEq

/-- The goroutine of `trackStreamHealth`. -/
inductive TrackerPC (γ : Type) where
  | idle
  | receiving
  | sending (evt : StreamEvent γ)
  | recording (r : HealthRecord)
  | exited

/-- One call of `ChatCompletion` or `ChatCompletionStream`. `finished` says that
the upstream's answer is over, complete or broken off by an error; `late` lists
what was recorded after the cancellation. -/
structure CallState (γ : Type) where
  attempt : Nat
  loop : LoopPC
  cancelled : Bool
  finished : Bool
  adapter : AdapterPC
  input : List (StreamEvent γ)
  tracker : TrackerPC γ
  lastStreamErr : Option CallError
  output : List (StreamEvent γ)
  received : List (StreamEvent γ)
  late : List HealthRecord

inductive CallAction (γ : Type) where
  | cancel
  | wrappedReturns (res : CallResult Unit)
  | timerFires
  | waitDone
  | loopRecords
  | adapterSends (evt : StreamEvent γ)
  | answerEnds
  | adapterStops
  | adapterCloses
  | trackerReceives
  | trackerSeesClose
  | trackerForwards
  | trackerDone
  | trackerRecords
  | consumerReceives

/-- The call's settings: which of the two it is, its retries, and the capacity
of the adapter's channel, which the tracker's channel shares. -/
structure CallSetup where
  kind : CallKind
  retry : RetryConfig
  capacity : Nat

namespace CallSetup

variable {γ : Type} (C : CallSetup)

/-- With a negative `MaxRetries` the loop is left at once and a failure without
an error is recorded. -/
def start : CallState γ :=
  ⟨0, if C.retry.maxRetries < 0 then .recording (.failure none) else .calling, false, false, .idle, [], .idle,
    none, [], [], []⟩

def record (s : CallState γ) (r : HealthRecord) : CallState γ :=
  if s.cancelled then { s with late := s.late ++ [r] } else s

/-- What the end of the stream is recorded as. -/
def streamRecord (s : CallState γ) : HealthRecord :=
  match s.lastStreamErr with
  | some e => .failure (some e)
  | none => .success

/-- Taking an event off the input: an error is remembered. -/
def take (s : CallState γ) (evt : StreamEvent γ) : CallState γ :=
  { s with
    tracker := .sending evt
    lastStreamErr := match evt with
      | .err e => some e
      | .chunk _ => s.lastStreamErr }

/-- When both channels of a `select` are ready, either is taken. Without a buffer an
event is handed over. -/
def step (s : CallState γ) : CallAction γ → Option (CallState γ)
  | .cancel => if s.cancelled || s.finished then none else some { s with cancelled := true }
  | .wrappedReturns res =>
    if s.loop ≠ .calling then none
    else match afterCall C.retry s.attempt res with
      | .succeed _ =>
        match C.kind with
        | .completion => some { s with finished := true, loop := .recording .success }
        | .stream => some { s with loop := .returned, adapter := .reading, tracker := .receiving }
      | .fail err => some { s with finished := true, loop := .recording (.failure (some err)) }
      | .retry _ => some { s with loop := .waiting, attempt := s.attempt + 1 }
  | .timerFires => if s.loop = .waiting then some { s with loop := .calling } else none
  | .waitDone => if s.loop = .waiting ∧ s.cancelled then some { s with loop := .returned } else none
  | .loopRecords =>
    match s.loop with
    | .recording r => some { record s r with loop := .returned }
    | _ => none
  | .adapterSends evt =>
    if s.adapter ≠ .reading then none
    else if s.input.length < C.capacity then some { s with input := s.input ++ [evt] }
    else match s.tracker with
      | .receiving => if C.capacity = 0 then some (take s evt) else none
      | _ => none
  | .answerEnds => if s.adapter = .reading then some { s with adapter := .leaving, finished := true } else none
  | .adapterStops => if s.adapter = .reading ∧ s.cancelled then some { s with adapter := .leaving } else none
  | .adapterCloses => if s.adapter = .leaving then some { s with adapter := .closed } else none
  | .trackerReceives =>
    match s.tracker, s.input with
    | .receiving, evt :: rest => some (take { s with input := rest } evt)
    | _, _ => none
  | .trackerSeesClose =>
    match s.tracker, s.input with
    | .receiving, [] => if s.adapter = .closed then some { s with tracker := .recording (streamRecord s) } else none
    | _, _ => none
  | .trackerForwards =>
    match s.tracker with
    | .sending evt =>
      if s.output.length < C.capacity then some { s with tracker := .receiving, output := s.output ++ [evt] }
      else if C.capacity = 0 then some { s with tracker := .receiving, received := s.received ++ [evt] }
      else none
    | _ => none
  | .trackerDone =>
    match s.tracker with
    | .sending _ => if s.cancelled then some { s with tracker := .exited } else none
    | _ => none
  | .trackerRecords =>
    match s.tracker with
    | .recording r => some { record s r with tracker := .exited }
    | _ => none
  | .consumerReceives =>
    match s.output with
    | evt :: rest => some { s with output := rest, received := s.received ++ [evt] }
    | [] => none

/-- What the loop does with the result is not recorded. -/
def Unrecorded (attempt : Nat) (res : CallResult Unit) : Prop :=
  match afterCall C.retry attempt res with
  | .succeed _ => C.kind = .stream
  | .fail _ => False
  | .retry _ => True

/-- The loop is entered at all, and after the cancellation the adapter neither
returns a result that ends the loop with a record nor closes its channel under
the tracker. -/
def Undisturbed (s : CallState γ) : CallAction γ → Prop
  | .cancel => 0 ≤ C.retry.maxRetries
  | .wrappedReturns res => s.cancelled = true → C.Unrecorded s.attempt res
  | .adapterCloses => s.cancelled = true → s.tracker = .exited
  | _ => True

/-- Neither goroutine is about to record. -/
def Idle (s : CallState γ) : Prop := (∀ r, s.loop ≠ .recording r) ∧ ∀ r, s.tracker ≠ .recording r

/-- Nothing was recorded late, and nothing is about to be: a cancelled call has
no record pending and keeps the tracker from seeing the end of the channel, and
a call that may still be cancelled has not come that far. -/
structure Unblamed (s : CallState γ) : Prop where
  late : s.late = []
  cancelled : s.cancelled = true → Idle s ∧ (s.adapter = .closed → s.tracker = .exited)
  uncancelled : s.cancelled = false → s.finished = false → 0 ≤ C.retry.maxRetries →
    Idle s ∧ (s.adapter = .idle ∨ s.adapter = .reading)

theorem unblamed_start : C.Unblamed (C.start : CallState γ) where
  late := rfl
  cancelled := by simp [start]
  uncancelled := by
    intro _ _ entered
    simp [start, Idle, not_lt.mpr entered]

variable {C} {s t : CallState γ}

/-- The goroutines may move on as long as neither comes to a record and an
exited tracker stays so. -/
theorem Unblamed.move (held : C.Unblamed s) (late : t.late = s.late) (cancelled : t.cancelled = s.cancelled)
    (finished : t.finished = s.finished) (adapter : t.adapter = s.adapter)
    (loop : ∀ r, t.loop = .recording r → s.loop = .recording r)
    (tracker : ∀ r, t.tracker = .recording r → s.tracker = .recording r)
    (exited : s.tracker = .exited → t.tracker = .exited) : C.Unblamed t := by
  have idle (quiet : Idle s) : Idle t :=
    ⟨fun r pending => quiet.1 r (loop r pending), fun r pending => quiet.2 r (tracker r pending)⟩
  refine ⟨late.trans held.late, ?_, ?_⟩
  · intro cut
    obtain ⟨quiet, seen⟩ := held.cancelled (cancelled ▸ cut)
    exact ⟨idle quiet, fun closed => exited (seen (adapter ▸ closed))⟩
  · intro uncut unfinished entered
    obtain ⟨quiet, reading⟩ := held.uncancelled (cancelled ▸ uncut) (finished ▸ unfinished) entered
    exact ⟨idle quiet, adapter ▸ reading⟩

theorem Unblamed.moveLoop (held : C.Unblamed s) {pc : LoopPC} (quiet : ∀ r, pc ≠ .recording r) (attempt : Nat) :
    C.Unblamed { s with loop := pc, attempt := attempt } :=
  held.move rfl rfl rfl rfl (fun r pending => absurd pending (quiet r)) (fun _ pending => pending) (fun out => out)

/-- A tracker that has not exited goes on without coming to a record. -/
theorem Unblamed.moveTracker (held : C.Unblamed s) (running : s.tracker ≠ .exited) {pc : TrackerPC γ}
    (quiet : ∀ r, pc ≠ .recording r) (output received : List (StreamEvent γ)) :
    C.Unblamed { s with tracker := pc, output := output, received := received } :=
  held.move rfl rfl rfl rfl (fun _ pending => pending) (fun r pending => absurd pending (quiet r))
    (fun out => absurd out running)

theorem Unblamed.take (held : C.Unblamed s) (receiving : s.tracker = .receiving) (rest : List (StreamEvent γ))
    (evt : StreamEvent γ) : C.Unblamed (take { s with input := rest } evt) :=
  held.move rfl rfl rfl rfl (fun _ pending => pending) (by simp [CallSetup.take]) (by simp [receiving])

/-- A call that has not been cancelled has finished once its adapter leaves. -/
theorem Unblamed.cancelled_of_left (held : C.Unblamed s) (left : s.adapter = .leaving ∨ s.adapter = .closed)
    (unfinished : s.finished = false) (entered : 0 ≤ C.retry.maxRetries) : s.cancelled = true := by
  by_contra uncut
  obtain ⟨_, reading⟩ := held.uncancelled (by simpa using uncut) unfinished entered
  rcases left with left | left <;> rcases reading with unread | unread <;> cases left.symm.trans unread

/-- A pending record is executed before the cancellation, so it is not late. -/
theorem Unblamed.record (held : C.Unblamed s) {r : HealthRecord}
    (pending : s.loop = .recording r ∨ s.tracker = .recording r) : record s r = s := by
  refine if_neg fun cut => ?_
  obtain ⟨⟨loop, tracker⟩, _⟩ := held.cancelled cut
  exact pending.elim (loop r) (tracker r)

theorem Unblamed.wrappedReturns (held : C.Unblamed s) {res : CallResult Unit}
    (ok : s.cancelled = true → C.Unrecorded s.attempt res) (taken : C.step s (.wrappedReturns res) = some t) :
    C.Unblamed t := by
  simp only [CallSetup.step, Option.ite_none_left_eq_some] at taken
  obtain ⟨_, taken⟩ := taken
  unfold Unrecorded at ok
  split at taken
  · rename_i ended
    rw [ended] at ok
    cases kind : C.kind with
    | completion =>
      rw [kind] at taken
      cases taken
      have uncut : ¬s.cancelled = true := fun cut => by simpa [kind] using ok cut
      exact ⟨held.late, fun cut => absurd cut uncut, by simp⟩
    | stream =>
      rw [kind] at taken
      cases taken
      exact ⟨held.late, by simp [Idle], by simp [Idle]⟩
  · rename_i ended
    rw [ended] at ok
    cases taken
    exact ⟨held.late, fun cut => (ok cut).elim, by simp⟩
  · cases taken
    exact held.moveLoop (by simp) (s.attempt + 1)

theorem Unblamed.step {a : CallAction γ} (ok : C.Undisturbed s a) (held : C.Unblamed s)
    (taken : C.step s a = some t) : C.Unblamed t := by
  cases a with
  | cancel =>
    simp only [CallSetup.step, Option.ite_none_left_eq_some, Option.some.injEq] at taken
    obtain ⟨early, rfl⟩ := taken
    simp only [Bool.or_eq_true, not_or, Bool.not_eq_true] at early
    obtain ⟨idle, reading⟩ := held.uncancelled early.1 early.2 ok
    refine ⟨held.late, fun _ => ⟨idle, ?_⟩, by simp⟩
    intro closed
    rcases reading with unread | unread <;> cases unread.symm.trans closed
  | wrappedReturns res => exact held.wrappedReturns ok taken
  | timerFires =>
    simp only [CallSetup.step, Option.ite_none_right_eq_some, Option.some.injEq] at taken
    obtain ⟨_, rfl⟩ := taken
    exact held.moveLoop (by simp) s.attempt
  | waitDone =>
    simp only [CallSetup.step, Option.ite_none_right_eq_some, Option.some.injEq] at taken
    obtain ⟨_, rfl⟩ := taken
    exact held.moveLoop (by simp) s.attempt
  | loopRecords =>
    simp only [CallSetup.step] at taken
    split at taken
    · rename_i r pending
      rw [held.record (.inl pending)] at taken
      cases taken
      exact held.moveLoop (by simp) s.attempt
    · cases taken
  | adapterSends evt =>
    simp only [CallSetup.step, Option.ite_none_left_eq_some] at taken
    obtain ⟨_, taken⟩ := taken
    split at taken
    · cases taken
      exact held.move rfl rfl rfl rfl (fun _ pending => pending) (fun _ pending => pending) (fun out => out)
    · split at taken
      · rename_i receiving
        simp only [Option.ite_none_right_eq_some, Option.some.injEq] at taken
        obtain ⟨_, rfl⟩ := taken
        exact held.take receiving s.input evt
      · cases taken
  | answerEnds =>
    simp only [CallSetup.step, Option.ite_none_right_eq_some, Option.some.injEq] at taken
    obtain ⟨_, rfl⟩ := taken
    exact ⟨held.late, fun cut => ⟨(held.cancelled cut).1, by simp⟩, by simp⟩
  | adapterStops =>
    simp only [CallSetup.step, Option.ite_none_right_eq_some, Option.some.injEq] at taken
    obtain ⟨⟨_, done⟩, rfl⟩ := taken
    exact ⟨held.late, fun cut => ⟨(held.cancelled cut).1, by simp⟩, by simp [done]⟩
  | adapterCloses =>
    simp only [CallSetup.step, Option.ite_none_right_eq_some, Option.some.injEq] at taken
    obtain ⟨leaving, rfl⟩ := taken
    refine ⟨held.late, fun cut => ⟨(held.cancelled cut).1, fun _ => ok cut⟩, ?_⟩
    intro uncut unfinished entered
    cases uncut.symm.trans (held.cancelled_of_left (.inl leaving) unfinished entered)
  | trackerReceives =>
    simp only [CallSetup.step] at taken
    split at taken
    · rename_i evt rest receiving _
      cases taken
      exact held.take receiving rest evt
    · cases taken
  | trackerSeesClose =>
    simp only [CallSetup.step] at taken
    split at taken
    · rename_i receiving _
      simp only [Option.ite_none_right_eq_some, Option.some.injEq] at taken
      obtain ⟨closed, rfl⟩ := taken
      refine ⟨held.late, ?_, ?_⟩
      · intro cut
        cases receiving.symm.trans ((held.cancelled cut).2 closed)
      · intro uncut unfinished entered
        cases uncut.symm.trans (held.cancelled_of_left (.inr closed) unfinished entered)
    · cases taken
  | trackerForwards =>
    simp only [CallSetup.step] at taken
    split at taken
    · rename_i evt sending
      split at taken
      · cases taken
        exact held.moveTracker (by simp [sending]) (by simp) _ s.received
      · simp only [Option.ite_none_right_eq_some, Option.some.injEq] at taken
        obtain ⟨_, rfl⟩ := taken
        exact held.moveTracker (by simp [sending]) (by simp) s.output _
    · cases taken
  | trackerDone =>
    simp only [CallSetup.step] at taken
    split at taken
    · rename_i sending
      simp only [Option.ite_none_right_eq_some, Option.some.injEq] at taken
      obtain ⟨_, rfl⟩ := taken
      exact held.moveTracker (by simp [sending]) (by simp) s.output s.received
    · cases taken
  | trackerRecords =>
    simp only [CallSetup.step] at taken
    split at taken
    · rename_i r pending
      rw [held.record (.inr pending)] at taken
      cases taken
      exact held.moveTracker (by simp [pending]) (by simp) s.output s.received
    · cases taken
  | consumerReceives =>
    simp only [CallSetup.step] at taken
    split at taken
    · cases taken
      exact held.move rfl rfl rfl rfl (fun _ pending => pending) (fun _ pending => pending) (fun out => out)
    · cases taken

/-- No outcome is recorded after the cancellation of a call whose adapter keeps
quiet from then on. -/
theorem no_late_record_of_undisturbed (C : CallSetup) {actions : List (CallAction γ)} {final : CallState γ}
    (undisturbed : Transition.Guarded C.step C.Undisturbed C.start actions)
    (taken : Transition.run C.step C.start actions = some final) : final.late = [] :=
  (Transition.guarded_invariant (fun _ _ _ ok held next => Unblamed.step ok held next) C.unblamed_start
    undisturbed taken).late

/-- A stream call through an unbuffered channel, with one attempt. -/
def unbuffered : CallSetup := ⟨.stream, ⟨0, 0⟩, 0⟩

/-- The client leaves while the tracker holds a chunk for it. -/
theorem no_late_record_unbuffered :
    ∃ final : CallState String, Transition.run unbuffered.step unbuffered.start
      [.wrappedReturns ⟨some (), none⟩, .adapterSends (.chunk "a"), .cancel, .trackerDone, .adapterStops,
        .adapterCloses] = some final ∧ final.cancelled = true ∧ final.late = [] := by
  have taken : Transition.run unbuffered.step (unbuffered.start : CallState String)
      [.wrappedReturns ⟨some (), none⟩, .adapterSends (.chunk "a"), .cancel, .trackerDone, .adapterStops,
        .adapterCloses] = some _ := rfl
  refine ⟨_, taken, rfl, no_late_record_of_undisturbed unbuffered ?_ taken⟩
  exact .cons (fun cut => nomatch cut) rfl (.cons trivial rfl (.cons le_rfl rfl (.cons trivial rfl
    (.cons trivial rfl (.cons (fun _ => rfl) rfl trivial)))))

/-- Two ways a cancelled call is recorded: the wrapped call fails with the error
of its context, and the tracker takes the channel that the adapter closes on
`ctx.Done` for a complete answer. -/
theorem cancelled_calls_recorded :
    (Transition.run (step ⟨.completion, ⟨0, 0⟩, 0⟩) (start ⟨.completion, ⟨0, 0⟩, 0⟩ : CallState String)
      [.cancel, .wrappedReturns ⟨none, some (.context "sending request: context canceled")⟩, .loopRecords]).map
        CallState.late = some [.failure (some (.context "sending request: context canceled"))] ∧
    (Transition.run unbuffered.step (unbuffered.start : CallState String)
      [.wrappedReturns ⟨some (), none⟩, .cancel, .adapterStops, .adapterCloses, .trackerSeesClose,
        .trackerRecords]).map CallState.late = some [.success] := by
  decide

end CallSetup

end LlmGateway
