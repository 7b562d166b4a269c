import LlmGateway.Config.Load
import LlmGateway.Lib.Transition
import Mathlib.Algebra.Order.BigOperators.Group.List
import Mathlib.Algebra.Order.Group.Nat

namespace LlmGateway

/-- Where the goroutine of a server stands: in `ListenAndServe`, before the send of its
error, before the close of the channel, or behind it. -/
inductive ListenPC where
  | serving
  | reporting (err : String)
  | closing
  | exited
deriving DecidableEq, Repr

/-- Where the goroutine of `shutdownAll` for a server stands: not started, before its
call of `Shutdown`, in the call, or behind it with what it returned. -/
inductive DrainPC where
  | idle
  | started
  | draining
  | returned (err : Option String)
deriving DecidableEq, Repr

def DrainPC.isReturned : DrainPC → Bool
  | .returned _ => true
  | _ => false

/-- An `http.Server` with its goroutines and the channel for its error. -/
structure HTTPServer where
  listen : ListenPC
  errs : List String
  closed : Bool
  inShutdown : Bool
  busy : Nat
  drain : DrainPC
deriving DecidableEq, Repr

inductive ServerAction where
  | fail (err : String)
  | stopped
  | report
  | close
  | connect
  | settle
  | shutdown
  | drained
  | giveUp
deriving DecidableEq, Repr

namespace HTTPServer

def new : HTTPServer := ⟨.serving, [], false, false, 0, .idle⟩

/-- The capacity of the error channels. -/
def errBuffer : Nat := 1

/-- One step of the goroutines of a server or of its clients, under the context of the
shutdown. The `http.Server` keeps the contract of its package: `ListenAndServe` returns
an error, or `ErrServerClosed` once `Shutdown` has been called; from then on no connection
is taken, and `Shutdown` returns when none is busy, or with the error of its context. -/
def step (expired : Bool) (s : HTTPServer) : ServerAction → Option HTTPServer
  | .fail err => if s.listen = .serving then some { s with listen := .reporting err } else none
  | .stopped => if s.listen = .serving ∧ s.inShutdown then some { s with listen := .closing } else none
  | .report =>
    match s.listen with
    | .reporting err =>
      if s.errs.length < errBuffer then some { s with listen := .closing, errs := s.errs ++ [err] } else none
    | _ => none
  | .close => if s.listen = .closing then some { s with listen := .exited, closed := true } else none
  | .connect => if s.inShutdown then none else some { s with busy := s.busy + 1 }
  | .settle => if s.busy = 0 then none else some { s with busy := s.busy - 1 }
  | .shutdown => if s.drain = .started then some { s with drain := .draining, inShutdown := true } else none
  | .drained => if s.drain = .draining ∧ s.busy = 0 then some { s with drain := .returned none } else none
  | .giveUp =>
    if s.drain = .draining ∧ expired then some { s with drain := .returned (some "context deadline exceeded") }
    else none

end HTTPServer

/-- Where `main` stands: in its `select`, in `shutdownAll` with the code to exit with, or
behind its end, with its deferred calls made or not. -/
inductive MainPC where
  | selecting
  | waiting (exitCode : Nat)
  | exited (exitCode : Nat) (deferred : Bool)
deriving DecidableEq, Repr

structure Process where
  main : MainPC
  servers : List HTTPServer
  signalled : Bool
  expired : Bool
deriving DecidableEq, Repr

inductive ProcessAction where
  | server (i : Nat) (a : ServerAction)
  | signal
  | receive (i : Nat)
  | drain
  | expire
  | exit
deriving DecidableEq, Repr

def buildMetricsServer (cfg : MetricsConfig) : Option HTTPServer := if cfg.enabled then some .new else none

namespace Process

/-- The servers that are started. A server that is nil has no channel either, and a
receive from a nil channel is never ready. -/
def start (cfg : Config) : Process where
  main := .selecting
  servers := .new :: (buildMetricsServer cfg.metrics).toList
  signalled := false
  expired := false

/-- `shutdownAll` up to its wait. -/
def shutdownAll (s : Process) (exitCode : Nat) : Process :=
  { s with main := .waiting exitCode, servers := s.servers.map fun server => { server with drain := .started } }

/-- `main` behind the construction of its parts. A channel yields an error, or nil once it
is closed and empty, and `os.Exit` leaves out the deferred calls. -/
def step (s : Process) (a : ProcessAction) : Option Process :=
  match s.main, a with
  | .exited _ _, _ => none
  | _, .server i a =>
    (s.servers[i]?).bind fun server =>
      (server.step s.expired a).map fun server => { s with servers := s.servers.set i server }
  | _, .signal => some { s with signalled := true }
  | .selecting, .receive i =>
    (s.servers[i]?).bind fun server =>
      match server.errs with
      | _ :: rest => some (shutdownAll { s with servers := s.servers.set i { server with errs := rest } } 1)
      | [] => if server.closed then some (shutdownAll s 0) else none
  | .selecting, .drain => if s.signalled then some (shutdownAll s 0) else none
  | .waiting _, .expire => if s.expired then none else some { s with expired := true }
  | .waiting exitCode, .exit =>
    if s.servers.all fun server => server.drain.isReturned then
      some { s with main := .exited exitCode (exitCode = 0) }
    else none
  | _, _ => none

end Process

/-- The steps of a server, with what each of them finds. -/
inductive HTTPServer.Moved (expired : Bool) (s : HTTPServer) : ServerAction → HTTPServer → Prop
  | fail {err : String} : s.listen = .serving → Moved expired s (.fail err) { s with listen := .reporting err }
  | stopped : s.listen = .serving → s.inShutdown = true → Moved expired s .stopped { s with listen := .closing }
  | report {err : String} : s.listen = .reporting err →
      Moved expired s .report { s with listen := .closing, errs := s.errs ++ [err] }
  | close : s.listen = .closing → Moved expired s .close { s with listen := .exited, closed := true }
  | connect : s.inShutdown = false → Moved expired s .connect { s with busy := s.busy + 1 }
  | settle : Moved expired s .settle { s with busy := s.busy - 1 }
  | shutdown : s.drain = .started → Moved expired s .shutdown { s with drain := .draining, inShutdown := true }
  | drained : s.drain = .draining → s.busy = 0 → Moved expired s .drained { s with drain := .returned none }
  | giveUp : s.drain = .draining → expired = true →
      Moved expired s .giveUp { s with drain := .returned (some "context deadline exceeded") }

theorem HTTPServer.moved_of_step {expired : Bool} {s t : HTTPServer} {a : ServerAction}
    (next : s.step expired a = some t) : Moved expired s a t := by
  cases a with
  | report =>
    simp only [step] at next
    split at next
    · rename_i err listen
      obtain ⟨-, rfl⟩ := Option.ite_none_right_eq_some.mp next |>.imp id Option.some.inj
      exact .report listen
    · cases next
  | connect =>
    obtain ⟨taking, rfl⟩ := Option.ite_none_left_eq_some.mp next |>.imp id Option.some.inj
    exact .connect (Bool.eq_false_iff.mpr taking)
  | settle =>
    obtain ⟨-, rfl⟩ := Option.ite_none_left_eq_some.mp next |>.imp id Option.some.inj
    exact .settle
  | fail | close | shutdown =>
    obtain ⟨here, rfl⟩ := Option.ite_none_right_eq_some.mp next |>.imp id Option.some.inj
    constructor
    exact here
  | stopped | drained | giveUp =>
    obtain ⟨⟨here, ready⟩, rfl⟩ := Option.ite_none_right_eq_some.mp next |>.imp id Option.some.inj
    constructor
    · exact here
    · exact ready

namespace Process

/-- The steps of the process, with what each of them finds. -/
inductive Moved (s : Process) : ProcessAction → Process → Prop
  | server {i : Nat} {a : ServerAction} {server server' : HTTPServer} :
      (∀ exitCode deferred, s.main ≠ .exited exitCode deferred) → s.servers[i]? = some server →
      HTTPServer.Moved s.expired server a server' →
      Moved s (.server i a) { s with servers := s.servers.set i server' }
  | signal : Moved s .signal { s with signalled := true }
  | receive {i : Nat} {server : HTTPServer} {err : String} {rest : List String} : s.main = .selecting →
      s.servers[i]? = some server → server.errs = err :: rest →
      Moved s (.receive i) (shutdownAll { s with servers := s.servers.set i { server with errs := rest } } 1)
  | receiveNil {i : Nat} {server : HTTPServer} : s.main = .selecting → s.servers[i]? = some server →
      server.errs = [] → server.closed = true → Moved s (.receive i) (shutdownAll s 0)
  | drain : s.main = .selecting → s.signalled = true → Moved s .drain (shutdownAll s 0)
  | expire {exitCode : Nat} : s.main = .waiting exitCode → s.expired = false →
      Moved s .expire { s with expired := true }
  | exit {exitCode : Nat} : s.main = .waiting exitCode →
      (∀ server ∈ s.servers, ∃ err, server.drain = .returned err) →
      Moved s .exit { s with main := .exited exitCode (exitCode = 0) }

theorem moved_of_server {s t : Process} {i : Nat} {a : ServerAction}
    (running : ∀ exitCode deferred, s.main ≠ .exited exitCode deferred)
    (next : ((s.servers[i]?).bind fun server =>
      (server.step s.expired a).map fun server => { s with servers := s.servers.set i server }) = some t) :
    Moved s (.server i a) t := by
  obtain ⟨server, at_, moves⟩ := Option.bind_eq_some_iff.mp next
  obtain ⟨server', moved, rfl⟩ := Option.map_eq_some_iff.mp moves
  exact .server running at_ (HTTPServer.moved_of_step moved)

theorem moved_of_step {s t : Process} {a : ProcessAction} (next : s.step a = some t) : Moved s a t := by
  rcases s with ⟨main, servers, signalled, expired⟩
  cases main with
  | exited exitCode deferred => cases a <;> cases next
  | selecting =>
    cases a with
    | server i a => exact moved_of_server nofun next
    | signal =>
      cases next
      exact .signal
    | receive i =>
      obtain ⟨server, at_, found⟩ := Option.bind_eq_some_iff.mp next
      split at found
      · rename_i err rest errs
        cases found
        exact .receive rfl at_ errs
      · rename_i errs
        obtain ⟨closed, rfl⟩ := Option.ite_none_right_eq_some.mp found |>.imp id Option.some.inj
        exact .receiveNil rfl at_ errs closed
    | drain =>
      obtain ⟨signalled, rfl⟩ := Option.ite_none_right_eq_some.mp next |>.imp id Option.some.inj
      exact .drain rfl signalled
    | expire | exit => cases next
  | waiting exitCode =>
    cases a with
    | server i a => exact moved_of_server nofun next
    | signal =>
      cases next
      exact .signal
    | expire =>
      obtain ⟨running, rfl⟩ := Option.ite_none_left_eq_some.mp next |>.imp id Option.some.inj
      exact .expire rfl (Bool.eq_false_iff.mpr running)
    | exit =>
      obtain ⟨done, rfl⟩ := Option.ite_none_right_eq_some.mp next |>.imp id Option.some.inj
      refine .exit rfl fun server member => ?_
      have returned := List.all_eq_true.mp done server member
      cases drain : server.drain with
      | returned err => exact ⟨err, rfl⟩
      | idle | started | draining => simp [drain, DrainPC.isReturned] at returned
    | receive i | drain => cases next

end Process

/-- Who can be where. A channel has room for the one error its server sends, and as long
as `main` listens, a server that has returned has sent one. -/
structure HTTPServer.Sound (main : MainPC) (expired : Bool) (s : HTTPServer) : Prop where
  idle : s.drain = .idle ↔ main = .selecting
  entered : s.inShutdown = true ↔ s.drain ≠ .idle ∧ s.drain ≠ .started
  room : s.listen = .serving ∨ (∃ err, s.listen = .reporting err) → s.errs = []
  closed : s.closed = true ↔ s.listen = .exited
  told : main = .selecting → s.listen = .closing ∨ s.listen = .exited → s.errs ≠ []
  settled : s.drain = .returned none → s.busy = 0
  late : ∀ err, s.drain = .returned (some err) → expired = true

namespace HTTPServer

variable {main : MainPC} {expired : Bool} {s t : HTTPServer} {a : ServerAction}

theorem sound_new : new.Sound .selecting false where
  idle := by simp [new]
  entered := by simp [new]
  room _ := rfl
  closed := by simp [new]
  told := by simp [new]
  settled _ := rfl
  late := by simp [new]

theorem Sound.moved (sound : s.Sound main expired) (moved : Moved expired s a t) : t.Sound main expired := by
  have outside : main = .selecting → s.inShutdown = false := fun selecting =>
    Bool.eq_false_iff.mpr fun entered => (sound.entered.mp entered).1 (sound.idle.mpr selecting)
  cases moved with
  | fail listen =>
    exact { sound with
      room := fun _ => sound.room (.inl listen)
      closed := by simp [sound.closed, listen]
      told := by simp }
  | stopped listen shut =>
    exact { sound with
      room := by simp
      closed := by simp [sound.closed, listen]
      told := fun selecting => by simp [outside selecting] at shut }
  | report listen =>
    exact { sound with
      room := by simp
      closed := by simp [sound.closed, listen]
      told := by simp }
  | close listen =>
    exact { sound with
      room := by simp
      closed := by simp
      told := fun selecting _ => sound.told selecting (.inl listen) }
  | connect taking =>
    have before : s.drain = .idle ∨ s.drain = .started := by
      by_contra neither
      rw [sound.entered.mpr (not_or.mp neither)] at taking
      cases taking
    exact { sound with
      settled := fun done => by
        rw [show s.drain = .returned none from done] at before
        rcases before with early | early <;> cases early }
  | settle =>
    exact { sound with
      settled := fun done => by
        have none : s.busy = 0 := sound.settled done
        simp [none] }
  | shutdown drain =>
    exact { sound with
      idle := by simpa [drain] using sound.idle
      entered := by simp
      settled := by simp
      late := by simp }
  | drained drain busy =>
    exact { sound with
      idle := by simpa [drain] using sound.idle
      entered := by simp [sound.entered, drain]
      settled := fun _ => busy
      late := by simp }
  | giveUp drain expired =>
    exact { sound with
      idle := by simpa [drain] using sound.idle
      entered := by simp [sound.entered, drain]
      settled := by simp
      late := fun _ _ => expired }

/-- `shutdownAll` starts the drain of a server whose channel may have been read. -/
theorem Sound.started (sound : s.Sound .selecting expired) {rest : List String} (left : rest <:+ s.errs)
    (exitCode : Nat) : { s with errs := rest, drain := .started }.Sound (.waiting exitCode) expired where
  idle := by simp
  entered := by simp [sound.entered, sound.idle.mpr]
  room waits := List.suffix_nil.mp (sound.room waits ▸ left)
  closed := sound.closed
  told := by simp
  settled := by simp
  late := by simp

/-- The error is on its way to `main`. -/
def Carries (s : HTTPServer) (err : String) : Prop := s.listen = .reporting err ∨ err ∈ s.errs

theorem Moved.carries {err : String} (moved : Moved expired s a t) (carried : t.Carries err) :
    s.Carries err ∨ a = .fail err := by
  cases moved with
  | fail listen =>
    rcases carried with listen | member
    · cases listen
      exact .inr rfl
    · exact .inl (.inr member)
  | report listen =>
    rcases carried with listen | member
    · cases listen
    · rcases List.mem_append.mp member with before | last
      · exact .inl (.inr before)
      · exact .inl (.inl (List.mem_singleton.mp last ▸ listen))
  | stopped | close =>
    rcases carried with listen | member
    · cases listen
    · exact .inl (.inr member)
  | connect | settle | shutdown | drained | giveUp => exact .inl carried

end HTTPServer

namespace Process

variable {cfg : Config} {actions : List ProcessAction} {a : ProcessAction} {s t : Process} {exitCode : Nat}

/-- Why `main` leaves its `select` for this exit code. -/
def Cause (cfg : Config) (actions : List ProcessAction) (exitCode : Nat) : Prop :=
  exitCode = 0 ∧ .drain ∈ actions ∧ .signal ∈ actions ∨
    exitCode = 1 ∧ ∃ i < (start cfg).servers.length, ∃ err, .receive i ∈ actions ∧ .server i (.fail err) ∈ actions

theorem Cause.append (cause : Cause cfg actions exitCode) (a : ProcessAction) :
    Cause cfg (actions ++ [a]) exitCode := by
  rcases cause with ⟨code, drained, signalled⟩ | ⟨code, i, bound, err, received, failed⟩
  · exact .inl ⟨code, List.mem_append_left _ drained, List.mem_append_left _ signalled⟩
  · exact .inr ⟨code, i, bound, err, List.mem_append_left _ received, List.mem_append_left _ failed⟩

/-- What a state says about the steps that led to it. -/
structure Follows (cfg : Config) (actions : List ProcessAction) (s : Process) : Prop where
  length : s.servers.length = (start cfg).servers.length
  sound : ∀ (i : Nat) (server : HTTPServer), s.servers[i]? = some server → server.Sound s.main s.expired
  failed : ∀ (i : Nat) (server : HTTPServer), s.servers[i]? = some server → ∀ err, server.Carries err →
    .server i (.fail err) ∈ actions
  signal : s.signalled = true → .signal ∈ actions
  expire : s.expired = true → .expire ∈ actions
  waiting : ∀ exitCode, s.main = .waiting exitCode → Cause cfg actions exitCode
  exited : ∀ exitCode deferred, s.main = .exited exitCode deferred → Cause cfg actions exitCode ∧
    deferred = decide (exitCode = 0) ∧ ∀ server ∈ s.servers, ∃ err, server.drain = .returned err

theorem follows_start (cfg : Config) : Follows cfg [] (start cfg) := by
  have fresh : ∀ (i : Nat) (server : HTTPServer), (start cfg).servers[i]? = some server → server = .new := by
    intro i server at_
    have member := List.mem_of_getElem? at_
    simp only [start, buildMetricsServer, List.mem_cons, Option.mem_toList,
      Option.ite_none_right_eq_some, Option.some.injEq] at member
    rcases member with rfl | ⟨-, rfl⟩ <;> rfl
  exact {
    length := rfl
    sound := fun i server at_ => fresh i server at_ ▸ HTTPServer.sound_new
    failed := by
      intro i server at_ err carried
      obtain rfl := fresh i server at_
      rcases carried with listen | member
      · cases listen
      · cases member
    signal := nofun
    expire := nofun
    waiting := nofun
    exited := nofun }

/-- `main` leaves its `select` with every server as it was, or with its channel read. -/
theorem Follows.shutdownAll (follows : Follows cfg actions s) (selecting : s.main = .selecting)
    {servers : List HTTPServer} (length : servers.length = s.servers.length)
    (read : ∀ (j : Nat) (server : HTTPServer), servers[j]? = some server →
      ∃ old : HTTPServer, ∃ rest, s.servers[j]? = some old ∧ rest <:+ old.errs ∧ server = { old with errs := rest })
    (cause : Cause cfg (actions ++ [a]) exitCode) :
    Follows cfg (actions ++ [a]) (Process.shutdownAll { s with servers := servers } exitCode) := by
  have started : ∀ (j : Nat) (server : HTTPServer),
      (Process.shutdownAll { s with servers := servers } exitCode).servers[j]? = some server →
      ∃ old : HTTPServer, ∃ rest, s.servers[j]? = some old ∧ rest <:+ old.errs ∧
        server = { old with errs := rest, drain := .started } := by
    intro j server now
    rw [Process.shutdownAll, List.getElem?_map] at now
    obtain ⟨server, earlier, rfl⟩ := Option.map_eq_some_iff.mp now
    obtain ⟨old, rest, at_, left, rfl⟩ := read j server earlier
    exact ⟨old, rest, at_, left, rfl⟩
  exact {
    length := by
      rw [Process.shutdownAll, List.length_map]
      exact length.trans follows.length
    sound := by
      intro j server now
      obtain ⟨old, rest, at_, left, rfl⟩ := started j server now
      have sound := follows.sound j old at_
      rw [selecting] at sound
      exact sound.started left exitCode
    failed := by
      intro j server now err carried
      obtain ⟨old, rest, at_, left, rfl⟩ := started j server now
      exact List.mem_append_left _ (follows.failed j old at_ err (carried.imp id fun member => left.subset member))
    signal := fun signalled => List.mem_append_left _ (follows.signal signalled)
    expire := fun expired => List.mem_append_left _ (follows.expire expired)
    waiting := by
      rintro _ ⟨⟩
      exact cause
    exited := nofun }

theorem Follows.moved (follows : Follows cfg actions s) (moved : Moved s a t) : Follows cfg (actions ++ [a]) t := by
  have failed := fun i server at_ err carried => List.mem_append_left [a] (follows.failed i server at_ err carried)
  have signal := fun signalled => List.mem_append_left [a] (follows.signal signalled)
  have expire := fun expired => List.mem_append_left [a] (follows.expire expired)
  have waiting := fun exitCode main => (follows.waiting exitCode main).append a
  cases moved with
  | @server i a server server' running at_ moved =>
    have moves := Transition.moves_set (p := server') at_
    exact {
      length := by simpa using follows.length
      sound := moves.all ((follows.sound i server at_).moved moved) fun j q _ => follows.sound j q
      failed := by
        refine moves.all (fun err carried => ?_) fun j q _ => failed j q
        rcases moved.carries carried with before | rfl
        · exact failed i server at_ err before
        · exact List.mem_append_right _ (List.mem_singleton_self _)
      signal := signal
      expire := expire
      waiting := waiting
      exited := fun exitCode deferred main => absurd main (running exitCode deferred) }
  | signal =>
    exact { follows with
      failed := failed
      signal := fun _ => List.mem_append_right _ (List.mem_singleton_self _)
      expire := expire
      waiting := waiting
      exited := fun exitCode deferred main => (follows.exited exitCode deferred main).imp (·.append _) id }
  | @receive i server err rest selecting at_ errs =>
    have moves := Transition.moves_set (p := { server with errs := rest }) at_
    have carried : server.Carries err := .inr (errs ▸ List.mem_cons_self)
    refine follows.shutdownAll selecting (by simp) ?_ (.inr ⟨rfl, i, ?_, err, ?_, failed i server at_ err carried⟩)
    · refine moves.all ⟨server, rest, at_, errs ▸ List.suffix_cons _ _, rfl⟩ fun j old _ at_ => ?_
      exact ⟨old, old.errs, at_, List.suffix_rfl, rfl⟩
    · exact follows.length ▸ (List.getElem?_eq_some_iff.mp at_).1
    · exact List.mem_append_right _ (List.mem_singleton_self _)
  | @receiveNil i server selecting at_ errs closed =>
    have sound := follows.sound i server at_
    exact absurd errs (sound.told selecting (.inr (sound.closed.mp closed)))
  | drain selecting signalled =>
    refine follows.shutdownAll selecting rfl (fun j old at_ => ⟨old, old.errs, at_, List.suffix_rfl, rfl⟩) ?_
    exact .inl ⟨rfl, List.mem_append_right _ (List.mem_singleton_self _), signal signalled⟩
  | expire main running =>
    exact { follows with
      sound := fun i server at_ => { follows.sound i server at_ with late := fun _ _ => rfl }
      failed := failed
      signal := signal
      expire := fun _ => List.mem_append_right _ (List.mem_singleton_self _)
      waiting := waiting
      exited := fun exitCode deferred main => (follows.exited exitCode deferred main).imp (·.append _) id }
  | @exit exitCode main returned =>
    exact { follows with
      sound := fun i server at_ => by
        have sound := follows.sound i server at_
        rw [main] at sound
        exact { sound with
          idle := by simpa using sound.idle
          told := nofun }
      failed := failed
      signal := signal
      expire := expire
      waiting := nofun
      exited := by
        rintro _ _ ⟨⟩
        exact ⟨waiting exitCode main, rfl, returned⟩ }

theorem follows_run (run : Transition.run step (start cfg) actions = some s) : Follows cfg actions s :=
  Transition.run_induction (follows_start cfg) (fun _ _ _ _ _ follows next => follows.moved (moved_of_step next)) run

/-- The process ends with code 0 after a signal, with its deferred calls made, or with
code 1 after a server it runs has failed, with none of them made; a channel that is closed
never ends it. No connection is cut off before the time for the shutdown is over. -/
theorem exit_explained (cfg : Config) (run : Transition.run step (start cfg) actions = some s) {deferred : Bool}
    (exited : s.main = .exited exitCode deferred) :
    (exitCode = 0 ∧ deferred = true ∧ .drain ∈ actions ∧ .signal ∈ actions ∨
      exitCode = 1 ∧ deferred = false ∧
        ∃ i < (start cfg).servers.length, ∃ err, .receive i ∈ actions ∧ .server i (.fail err) ∈ actions) ∧
      ∀ server ∈ s.servers, server.busy = 0 ∨ .expire ∈ actions := by
  have follows := follows_run run
  obtain ⟨cause, rfl, returned⟩ := follows.exited exitCode deferred exited
  refine ⟨?_, fun server member => ?_⟩
  · rcases cause with ⟨rfl, drained, signalled⟩ | ⟨rfl, failed⟩
    · exact .inl ⟨rfl, rfl, drained, signalled⟩
    · exact .inr ⟨rfl, rfl, failed⟩
  · obtain ⟨i, at_⟩ := List.mem_iff_getElem?.mp member
    have sound := follows.sound i server at_
    obtain ⟨err, drain⟩ := returned server member
    cases err with
    | none => exact .inl (sound.settled drain)
    | some err => exact .inr (follows.expire (sound.late err drain))

def meteredConfig : Config := { Config.zero with metrics := ⟨true, 9090⟩ }

/-- The port of the metrics server is taken. -/
def takenPortRun : List ProcessAction :=
  [.server 1 (.fail "address already in use"), .server 1 .report, .receive 1, .server 0 .shutdown,
    .server 1 .shutdown, .server 0 .drained, .server 1 .drained, .exit]

theorem exit_explained_taken_port :
    ∃ s, Transition.run step (start meteredConfig) takenPortRun = some s ∧ s.main = .exited 1 false ∧
      ∃ i < (start meteredConfig).servers.length, ∃ err,
        .receive i ∈ takenPortRun ∧ .server i (.fail err) ∈ takenPortRun := by
  obtain ⟨s, taken⟩ : ∃ s, Transition.run step (start meteredConfig) takenPortRun = some s := ⟨_, rfl⟩
  have exited : s.main = .exited 1 false := by
    cases taken
    rfl
  obtain ⟨⟨code, -⟩ | ⟨-, -, failed⟩, -⟩ := exit_explained meteredConfig taken exited
  · cases code
  · exact ⟨s, taken, exited, failed⟩

end Process

def ListenPC.rank : ListenPC → Nat
  | .serving => 3
  | .reporting _ => 2
  | .closing => 1
  | .exited => 0

def DrainPC.rank : DrainPC → Nat
  | .idle => 3
  | .started => 2
  | .draining => 1
  | .returned _ => 0

def MainPC.rank : MainPC → Nat
  | .selecting => 2
  | .waiting _ => 1
  | .exited _ _ => 0

/-- The steps left to the goroutines of a server. -/
def HTTPServer.rank (s : HTTPServer) : Nat := s.listen.rank + s.drain.rank

/-- The steps of the program itself. The others are up to the network, the clients and
whoever sends the signal. -/
def ServerAction.own : ServerAction → Bool
  | .fail _ | .connect | .settle => false
  | .stopped | .report | .close | .shutdown | .drained | .giveUp => true

def ProcessAction.own : ProcessAction → Bool
  | .server _ a => a.own
  | .signal => false
  | .receive _ | .drain | .expire | .exit => true

theorem HTTPServer.rank_moved {expired : Bool} {s t : HTTPServer} {a : ServerAction} (moved : Moved expired s a t) :
    t.rank + (if a.own then 1 else 0) ≤ s.rank := by
  cases moved with
  | fail listen | stopped listen | report listen | close listen =>
    simp only [HTTPServer.rank, listen, ListenPC.rank, ServerAction.own, Bool.false_eq_true, if_true, if_false]
    omega
  | connect | settle => exact Nat.le_refl _
  | shutdown drain | drained drain | giveUp drain =>
    simp only [HTTPServer.rank, drain, DrainPC.rank, ServerAction.own, if_true]
    omega

namespace Process

def rank (s : Process) : Nat :=
  s.main.rank + (s.servers.map HTTPServer.rank).sum + if s.expired then 0 else 1

theorem rank_start (cfg : Config) : (start cfg).rank = 6 * (start cfg).servers.length + 3 := by
  cases enabled : cfg.metrics.enabled <;> simp [rank, start, buildMetricsServer, enabled, MainPC.rank,
    HTTPServer.rank, HTTPServer.new, ListenPC.rank, DrainPC.rank]

/-- To start the drains lowers the rank of every server. -/
theorem rank_shutdownAll (s : Process) (selecting : s.main = .selecting)
    (idle : ∀ server ∈ s.servers, server.drain = .idle) : (shutdownAll s exitCode).rank + 1 ≤ s.rank := by
  have servers : ((shutdownAll s exitCode).servers.map HTTPServer.rank).sum ≤ (s.servers.map HTTPServer.rank).sum := by
    rw [shutdownAll, List.map_map]
    refine List.sum_le_sum fun server member => ?_
    simp only [Function.comp_apply, HTTPServer.rank, idle server member, DrainPC.rank]
    omega
  have after : (shutdownAll s exitCode).rank = 1 + ((shutdownAll s exitCode).servers.map HTTPServer.rank).sum +
      if s.expired then 0 else 1 := rfl
  have before : s.rank = 2 + (s.servers.map HTTPServer.rank).sum + if s.expired then 0 else 1 := by
    rw [rank, selecting, MainPC.rank]
  omega

theorem Follows.idle (follows : Follows cfg actions s) (selecting : s.main = .selecting) :
    ∀ server ∈ s.servers, server.drain = .idle := by
  intro server member
  obtain ⟨i, at_⟩ := List.mem_iff_getElem?.mp member
  exact (follows.sound i server at_).idle.mpr selecting

theorem Follows.rank_moved (follows : Follows cfg actions s) (moved : Moved s a t) :
    t.rank + (if a.own then 1 else 0) ≤ s.rank := by
  cases moved with
  | @server i a server server' running at_ moved =>
    have lower := HTTPServer.rank_moved moved
    have changed := Transition.sum_rank_set (p := server') HTTPServer.rank at_
    change _ + (if a.own then 1 else 0) ≤ _
    simp only [rank]
    omega
  | signal => exact Nat.le_refl _
  | @receive i server err rest selecting at_ errs =>
    have same := Transition.sum_rank_set (p := { server with errs := rest }) HTTPServer.rank at_
    have moves := Transition.moves_set (p := { server with errs := rest }) at_
    have idle : ∀ other ∈ s.servers.set i { server with errs := rest }, other.drain = .idle := by
      intro other member
      obtain ⟨j, now⟩ := List.mem_iff_getElem?.mp member
      exact moves.all (follows.idle selecting server (List.mem_of_getElem? at_))
        (fun _ q _ at_ => follows.idle selecting q (List.mem_of_getElem? at_)) j other now
    refine (rank_shutdownAll { s with servers := s.servers.set i { server with errs := rest } } selecting idle).trans ?_
    have rank_eq : HTTPServer.rank { server with errs := rest } = server.rank := rfl
    simp only [rank]
    omega
  | receiveNil selecting => exact rank_shutdownAll s selecting (follows.idle selecting)
  | drain selecting => exact rank_shutdownAll s selecting (follows.idle selecting)
  | expire main running => simp [rank, running, ProcessAction.own]
  | exit main =>
    simp only [rank, main, MainPC.rank, ProcessAction.own, if_true]
    omega

/-- Nothing moves by itself until the time for the shutdown is over. -/
def Quiet (s : Process) : Prop := ∀ a, a.own = true → a ≠ .expire → s.step a = none

theorem Quiet.server (quiet : Quiet s) (running : ∀ exitCode deferred, s.main ≠ .exited exitCode deferred) {i : Nat}
    {server : HTTPServer} (at_ : s.servers[i]? = some server) : ∀ a, a.own = true → server.step s.expired a = none := by
  intro a own
  have none := quiet (.server i a) own nofun
  cases main : s.main with
  | exited exitCode deferred => exact absurd main (running exitCode deferred)
  | selecting | waiting => simpa [step, main, at_] using none

end Process

namespace HTTPServer

variable {main : MainPC} {expired : Bool} {s : HTTPServer}

end HTTPServer

namespace Process

variable {cfg : Config} {actions : List ProcessAction} {s : Process}

end Process

end LlmGateway
