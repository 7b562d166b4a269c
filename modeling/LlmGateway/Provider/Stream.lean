import Mathlib.Data.List.Induction
import LlmGateway.Lib.Lines
import LlmGateway.Model.Chat
import LlmGateway.Provider.Decorator

namespace LlmGateway

open Lines

/-- `provider.StreamEvent`: a chunk or an error. -/
inductive StreamEvent (γ : Type) where
  | chunk (c : γ)
  | err (e : CallError)
deriving DecidableEq, Repr

abbrev ChunkEvent := StreamEvent ChatCompletionChunk

@[simp] theorem isOk_ok {ε α : Type} (a : α) : (Except.ok a : Except ε α).isOk = true := rfl

@[simp] theorem isOk_error {ε α : Type} (e : ε) : (Except.error e : Except ε α).isOk = false := rfl

section Events

variable {γ : Type} {events : List (StreamEvent γ)} {c : γ} {e : CallError}

/-- Some event carries an error. -/
def Failed (events : List (StreamEvent γ)) : Prop := ∃ e, .err e ∈ events

@[simp] theorem failed_nil : ¬ Failed ([] : List (StreamEvent γ)) := nofun

@[simp] theorem failed_chunk : Failed (.chunk c :: events) ↔ Failed events := by simp [Failed]

@[simp] theorem failed_err : Failed (.err e :: events) := ⟨e, List.mem_cons_self⟩

/-- `lastStreamErr` after the loop of `trackStreamHealth` has seen the events. -/
def lastStreamErr (events : List (StreamEvent γ)) : Option CallError :=
  events.foldl (fun last evt => match evt with
    | .err e => some e
    | .chunk _ => last) none

/-- What `trackStreamHealth` records when the input is closed. -/
def streamHealth (events : List (StreamEvent γ)) : HealthRecord :=
  match lastStreamErr events with
  | some e => .failure (some e)
  | none => .success

theorem lastStreamErr_concat (events : List (StreamEvent γ)) (evt : StreamEvent γ) :
    lastStreamErr (events ++ [evt]) = match evt with
      | .err e => some e
      | .chunk _ => lastStreamErr events := by
  rw [lastStreamErr, List.foldl_append]
  rfl

theorem lastStreamErr_isSome : (lastStreamErr events).isSome ↔ Failed events := by
  induction events using List.reverseRecOn with
  | nil => simp [lastStreamErr]
  | append_singleton events evt ih =>
    rw [lastStreamErr_concat]
    cases evt with
    | err e => simp [Failed]
    | chunk c => simpa [Failed] using ih

/-- The error remembered is the last one. -/
theorem lastStreamErr_eq_some (last : lastStreamErr events = some e) :
    ∃ before after, events = before ++ .err e :: after ∧ ¬ Failed after := by
  induction events using List.reverseRecOn with
  | nil => cases last
  | append_singleton events evt ih =>
    rw [lastStreamErr_concat] at last
    cases evt with
    | err e' =>
      cases last
      exact ⟨events, [], rfl, failed_nil⟩
    | chunk c =>
      obtain ⟨before, after, rfl, clean⟩ := ih last
      refine ⟨before, after ++ [.chunk c], by simp, ?_⟩
      simpa [Failed] using clean

/-- A failure is recorded iff some event carries an error. -/
theorem streamHealth_failure_iff : (∃ err, streamHealth events = .failure err) ↔ Failed events := by
  rw [← lastStreamErr_isSome, streamHealth]
  cases lastStreamErr events <;> simp

end Events

/-- The size of the buffer the adapters give to the scanner. -/
def streamLineLimit : Nat := 1024 * 1024

def dataField : List UInt8 := bytes "data: "

def eventField : List UInt8 := bytes "event: "

def scanBody (body : List UInt8) (fault : Option String) : Scanned String :=
  scan streamLineLimit "bufio.Scanner: token too long" fault body

def readingStream (err : String) : CallError := .other ("reading stream: " ++ err)

def decoding (what err : String) : CallError := .other ("decoding " ++ what ++ ": " ++ err)

theorem dropPrefix_eq_some {line field data : List UInt8} :
    line.dropPrefix? field = some data ↔ line = field ++ data := by
  simp [List.dropPrefix?_eq_some_iff]

/-- The data lines, without their field name. -/
def dataFrames (lines : List (List UInt8)) : List (List UInt8) := lines.filterMap (·.dropPrefix? dataField)

section Frames

variable {line data : List UInt8} {lines : List (List UInt8)}

theorem dataFrames_skip (other : line.dropPrefix? dataField = none) : dataFrames (line :: lines) = dataFrames lines :=
  List.filterMap_cons_none other

theorem dataFrames_data (field : line.dropPrefix? dataField = some data) :
    dataFrames (line :: lines) = data :: dataFrames lines :=
  List.filterMap_cons_some field

end Frames

/-- Some frame is what is looked for, and those before it let the search pass. -/
def Reaches {φ : Type} (target passes : φ → Prop) (frames : List φ) : Prop :=
  ∃ before f rest, frames = before ++ f :: rest ∧ target f ∧ ∀ g ∈ before, passes g

section Reaches

variable {φ : Type} {target passes : φ → Prop} {f : φ} {frames : List φ}

@[simp] theorem reaches_nil : ¬ Reaches target passes [] := by
  rintro ⟨before, f, rest, split, -⟩
  simp at split

theorem reaches_cons :
    Reaches target passes (f :: frames) ↔ target f ∨ passes f ∧ Reaches target passes frames := by
  constructor
  · rintro ⟨before, g, rest, split, found, passed⟩
    cases before with
    | nil =>
      obtain ⟨rfl, -⟩ := List.cons.inj split
      exact .inl found
    | cons first before =>
      obtain ⟨rfl, tail⟩ := List.cons.inj split
      obtain ⟨ok, others⟩ := List.forall_mem_cons.mp passed
      exact .inr ⟨ok, before, g, rest, tail, found, others⟩
  · rintro (found | ⟨ok, before, g, rest, rfl, found, passed⟩)
    · exact ⟨[], f, frames, rfl, found, nofun⟩
    · exact ⟨f :: before, g, rest, rfl, found, List.forall_mem_cons.mpr ⟨ok, passed⟩⟩

end Reaches

end LlmGateway
