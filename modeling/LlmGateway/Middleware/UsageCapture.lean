import Mathlib.Data.List.Basic

namespace LlmGateway

/-- The `http.ResponseWriter` of the server, as far as it delivers a response.
It never fails; it may lack `http.Flusher`. -/
structure ResponseWriter where
  contentType : String
  flusher : Bool
  informational : List Int
  status : Option Int
  body : List UInt8

namespace ResponseWriter

/-- The first header wins. An informational one leaves the header open. -/
def writeHeader (w : ResponseWriter) (code : Int) : ResponseWriter :=
  if w.status.isSome then w
  else if 100 ≤ code ∧ code ≤ 199 ∧ code ≠ 101 then { w with informational := w.informational ++ [code] }
  else { w with status := some code }

def write (w : ResponseWriter) (b : List UInt8) : ResponseWriter :=
  { w.writeHeader 200 with body := w.body ++ b }

def flush (w : ResponseWriter) : ResponseWriter := if w.flusher then w.writeHeader 200 else w

variable {w : ResponseWriter}

theorem writeHeader_of_written (written : w.status.isSome) (code : Int) : w.writeHeader code = w := if_pos written

theorem written_writeHeader (w : ResponseWriter) {code : Int} (final : 200 ≤ code) :
    (w.writeHeader code).status.isSome := by
  unfold writeHeader
  split
  · assumption
  · rw [if_neg (by omega)]
    rfl

theorem body_writeHeader (w : ResponseWriter) (code : Int) : (w.writeHeader code).body = w.body := by
  unfold writeHeader
  split
  · rfl
  · split <;> rfl

theorem write_of_written (written : w.status.isSome) (b : List UInt8) :
    w.write b = { w with body := w.body ++ b } := by
  rw [write, writeHeader_of_written written]

theorem written_write (w : ResponseWriter) (b : List UInt8) : (w.write b).status.isSome :=
  w.written_writeHeader (by decide)

theorem write_nil_of_written (written : w.status.isSome) : w.write [] = w := by
  rw [write_of_written written, List.append_nil]

/-- Two writes in a row deliver what one write of both parts delivers. -/
theorem write_write (w : ResponseWriter) (a b : List UInt8) : (w.write a).write b = w.write (a ++ b) := by
  rw [write_of_written (w.written_write a)]
  simp only [write, List.append_assoc]

/-- The header that a write implies may as well be written before it. -/
theorem writeHeader_write (w : ResponseWriter) (b : List UInt8) : (w.writeHeader 200).write b = w.write b := by
  rw [write_of_written (w.written_writeHeader (by decide)), body_writeHeader, write]

theorem flush_of_written (written : w.status.isSome) : w.flush = w := by
  unfold flush
  split
  · exact writeHeader_of_written written 200
  · rfl

theorem written_flush (written : w.status.isSome) : w.flush.status.isSome := by
  rw [flush_of_written written]
  exact written

end ResponseWriter

inductive CaptureMode where
  | undecided
  | buffer
  | stream
  | passthrough
deriving DecidableEq, Repr

structure UsageCaptureWriter where
  writer : ResponseWriter
  status : Int
  wroteHeader : Bool
  mode : CaptureMode
  buf : List UInt8
  exceededLimit : Bool

def captureBodyLimit : Nat := 1 <<< 20

/-- What `finish` leaves behind: the response, the tokens handed to
`RecordTokens` if it is called, and the error it logs if that fails. -/
structure Finished where
  writer : ResponseWriter
  recorded : Option Int
  logged : Option String

namespace UsageCaptureWriter

def wrap (w : ResponseWriter) : UsageCaptureWriter := ⟨w, 0, false, .undecided, [], false⟩

def decideMode (contentType : String) : CaptureMode :=
  if "text/event-stream".toList.isPrefixOf contentType.toList then .stream
  else if "application/json".toList.isPrefixOf contentType.toList then .buffer
  else .passthrough

def writeHeader (cw : UsageCaptureWriter) (status : Int) : UsageCaptureWriter :=
  if cw.wroteHeader then cw
  else
    let cw := { cw with status := status, wroteHeader := true, mode := decideMode cw.writer.contentType }
    match cw.mode with
    | .stream | .passthrough => { cw with writer := cw.writer.writeHeader status }
    | .buffer | .undecided => cw

/-- `Write` once the header is decided. -/
def writeBody (cw : UsageCaptureWriter) (b : List UInt8) : UsageCaptureWriter :=
  match cw.mode with
  | .buffer =>
    if cw.exceededLimit then { cw with writer := cw.writer.write b }
    else if captureBodyLimit < cw.buf.length + b.length then
      if 0 < cw.buf.length then
        { cw with
          exceededLimit := true, buf := [], writer := ((cw.writer.writeHeader cw.status).write cw.buf).write b }
      else { cw with exceededLimit := true, writer := (cw.writer.writeHeader cw.status).write b }
    else { cw with buf := cw.buf ++ b }
  | _ => { cw with writer := cw.writer.write b }

def write (cw : UsageCaptureWriter) (b : List UInt8) : UsageCaptureWriter :=
  writeBody (if cw.wroteHeader then cw else cw.writeHeader 200) b

def flush (cw : UsageCaptureWriter) : UsageCaptureWriter :=
  if cw.mode = .buffer then cw else { cw with writer := cw.writer.flush }

/-- The accounting in `finish`. `usage` decodes the body and gives its total
tokens; `recordTokens` is the limiter's method. -/
def recordUsage (cw : UsageCaptureWriter) (usage : List UInt8 → Option Int)
    (recordTokens : Int → Except String Unit) : Option Int × Option String :=
  if 200 ≤ cw.status ∧ cw.status < 300 ∧ !cw.exceededLimit ∧ 0 < cw.buf.length then
    match usage cw.buf with
    | none => (none, none)
    | some total =>
      if 0 < total then
        match recordTokens total with
        | .ok () => (some total, none)
        | .error e => (some total, some e)
      else (none, none)
  else (none, none)

def finish (cw : UsageCaptureWriter) (usage : List UInt8 → Option Int) (recordTokens : Int → Except String Unit) :
    Finished :=
  if !cw.wroteHeader then ⟨cw.writer, none, none⟩
  else if cw.mode ≠ .buffer then ⟨cw.writer, none, none⟩
  else
    let (recorded, logged) := cw.recordUsage usage recordTokens
    if cw.exceededLimit then ⟨cw.writer, recorded, logged⟩
    else
      let w := cw.writer.writeHeader cw.status
      ⟨if 0 < cw.buf.length then w.write cw.buf else w, recorded, logged⟩

end UsageCaptureWriter

inductive HandlerCall where
  | writeHeader (status : Int)
  | write (b : List UInt8)
  | flush

/-- The call does not write an informational header. -/
def HandlerCall.Final : HandlerCall → Prop
  | .writeHeader status => 200 ≤ status
  | _ => True

def ResponseWriter.call (w : ResponseWriter) : HandlerCall → ResponseWriter
  | .writeHeader status => w.writeHeader status
  | .write b => w.write b
  | .flush => w.flush

def UsageCaptureWriter.call (cw : UsageCaptureWriter) : HandlerCall → UsageCaptureWriter
  | .writeHeader status => cw.writeHeader status
  | .write b => cw.write b
  | .flush => cw.flush

namespace UsageCaptureWriter

/-- The header is held back, and the body with it. -/
def Buffering (cw : UsageCaptureWriter) : Prop :=
  cw.wroteHeader = true ∧ cw.mode = .buffer ∧ cw.exceededLimit = false

instance (cw : UsageCaptureWriter) : Decidable cw.Buffering :=
  inferInstanceAs (Decidable (_ ∧ _ ∧ _))

/-- The response as it stands once everything held back is written. -/
def settled (cw : UsageCaptureWriter) : ResponseWriter :=
  if cw.Buffering then (cw.writer.writeHeader cw.status).write cw.buf else cw.writer

/-- Before the header nothing is decided or held back; after it the header is
final, and it is written unless it is held back. -/
structure Consistent (cw : UsageCaptureWriter) : Prop where
  fresh : cw.wroteHeader = false → cw.mode = .undecided ∧ cw.buf = [] ∧ cw.exceededLimit = false
  final : cw.wroteHeader = true → 200 ≤ cw.status
  written : cw.wroteHeader = true → ¬cw.Buffering → cw.writer.status.isSome

variable {cw : UsageCaptureWriter}

theorem decideMode_ne_undecided (contentType : String) : decideMode contentType ≠ .undecided := by
  unfold decideMode
  split
  · nofun
  · split <;> nofun

theorem settled_of_buffering (buffering : cw.Buffering) :
    cw.settled = (cw.writer.writeHeader cw.status).write cw.buf := if_pos buffering

theorem settled_of_not_buffering (passing : ¬cw.Buffering) : cw.settled = cw.writer := if_neg passing

theorem Consistent.written_settled (valid : cw.Consistent) (wrote : cw.wroteHeader = true) :
    cw.settled.status.isSome := by
  by_cases buffering : cw.Buffering
  · rw [settled_of_buffering buffering]
    exact ResponseWriter.written_write _ _
  · rw [settled_of_not_buffering buffering]
    exact valid.written wrote buffering

theorem consistent_wrap (w : ResponseWriter) : (wrap w).Consistent := ⟨fun _ => ⟨rfl, rfl, rfl⟩, nofun, nofun⟩

/-- The first header decides the mode, and is passed on unless the response is
to be buffered. -/
theorem writeHeader_of_fresh (unwritten : cw.wroteHeader = false) (status : Int) :
    cw.writeHeader status = { cw with
      status := status
      wroteHeader := true
      mode := decideMode cw.writer.contentType
      writer := if decideMode cw.writer.contentType = .buffer then cw.writer else cw.writer.writeHeader status } := by
  rw [UsageCaptureWriter.writeHeader, if_neg (by simp [unwritten])]
  dsimp only
  cases mode : decideMode cw.writer.contentType with
  | buffer => rfl
  | stream => rfl
  | passthrough => rfl
  | undecided => exact absurd mode (decideMode_ne_undecided _)

/-- The three ways through `Write` once the header is decided: the part is
buffered, makes the buffer overflow, or is passed on. -/
theorem writeBody_cases (wrote : cw.wroteHeader = true) (b : List UInt8) :
    (cw.Buffering ∧ cw.buf.length + b.length ≤ captureBodyLimit ∧ cw.writeBody b = { cw with buf := cw.buf ++ b }) ∨
    (cw.Buffering ∧ captureBodyLimit < cw.buf.length + b.length ∧ ∃ buf, cw.writeBody b = { cw with
      writer := (cw.writer.writeHeader cw.status).write (cw.buf ++ b), buf := buf, exceededLimit := true }) ∨
    (¬cw.Buffering ∧ cw.writeBody b = { cw with writer := cw.writer.write b }) := by
  unfold writeBody
  split
  · rename_i buffer
    split
    · rename_i exceeded
      exact Or.inr (Or.inr ⟨fun held => by simp [held.2.2] at exceeded, rfl⟩)
    · rename_i small
      have held : cw.Buffering := ⟨wrote, buffer, by simpa using small⟩
      split
      · rename_i overflow
        refine Or.inr (Or.inl ⟨held, overflow, ?_⟩)
        split
        · exact ⟨[], by rw [ResponseWriter.write_write]⟩
        · rename_i none
          have empty : cw.buf = [] := List.eq_nil_of_length_eq_zero (by omega)
          exact ⟨cw.buf, by rw [empty, List.nil_append]⟩
      · rename_i fits
        exact Or.inl ⟨held, by omega, rfl⟩
  · rename_i other
    exact Or.inr (Or.inr ⟨fun held => other held.2.1, rfl⟩)

/-- The first header is passed on at once or held back; a later one is dropped,
as the server drops it. -/
theorem Consistent.writeHeader (valid : cw.Consistent) {status : Int} (final : 200 ≤ status) :
    (cw.writeHeader status).Consistent ∧ (cw.writeHeader status).wroteHeader = true ∧
      (cw.writeHeader status).settled = cw.settled.writeHeader status := by
  cases wrote : cw.wroteHeader with
  | true =>
    have same : cw.writeHeader status = cw := if_pos wrote
    rw [same, ResponseWriter.writeHeader_of_written (valid.written_settled wrote)]
    exact ⟨valid, wrote, rfl⟩
  | false =>
    obtain ⟨undecided, empty, within⟩ := valid.fresh wrote
    have before : cw.settled = cw.writer := settled_of_not_buffering fun held => by simpa [wrote] using held.1
    rw [before, writeHeader_of_fresh wrote]
    by_cases buffer : decideMode cw.writer.contentType = .buffer
    · rw [if_pos buffer]
      have held : Buffering { cw with
          status := status, wroteHeader := true, mode := decideMode cw.writer.contentType } :=
        ⟨rfl, buffer, within⟩
      refine ⟨⟨nofun, fun _ => final, fun _ passing => absurd held passing⟩, rfl, ?_⟩
      rw [settled_of_buffering held]
      dsimp only
      rw [empty, ResponseWriter.write_nil_of_written (ResponseWriter.written_writeHeader _ final)]
    · rw [if_neg buffer]
      exact ⟨⟨nofun, fun _ => final, fun _ _ => ResponseWriter.written_writeHeader _ final⟩, rfl,
        settled_of_not_buffering fun held => buffer held.2.1⟩

/-- A write that is passed on. -/
theorem Consistent.pass (valid : cw.Consistent) (wrote : cw.wroteHeader = true) (passing : ¬cw.Buffering)
    (b : List UInt8) : Consistent { cw with writer := cw.writer.write b } ∧
      settled { cw with writer := cw.writer.write b } = cw.settled.write b := by
  refine ⟨⟨fun unwritten => ?_, valid.final, fun _ _ => ResponseWriter.written_write _ _⟩, ?_⟩
  · rw [wrote] at unwritten
    cases unwritten
  · rw [settled_of_not_buffering passing]
    exact settled_of_not_buffering passing

/-- Once the header is decided, a write adds to what the response stands at,
whether it is buffered, passed on, or makes the buffer overflow. -/
theorem Consistent.writeBody (valid : cw.Consistent) (wrote : cw.wroteHeader = true) (b : List UInt8) :
    (cw.writeBody b).Consistent ∧ (cw.writeBody b).settled = cw.settled.write b := by
  have decided (unwritten : cw.wroteHeader = false) {P : Prop} : P := by
    rw [wrote] at unwritten
    cases unwritten
  rcases writeBody_cases wrote b with ⟨held, _, after⟩ | ⟨held, _, buf, after⟩ | ⟨passing, after⟩
  · rw [after, settled_of_buffering held, ResponseWriter.write_write]
    exact ⟨⟨fun unwritten => decided unwritten, valid.final, fun _ passing => absurd held passing⟩,
      settled_of_buffering held⟩
  · rw [after, settled_of_buffering held, ResponseWriter.write_write]
    exact ⟨⟨fun unwritten => decided unwritten, valid.final, fun _ _ => ResponseWriter.written_write _ _⟩,
      settled_of_not_buffering fun still => Bool.noConfusion still.2.2⟩
  · rw [after]
    exact valid.pass wrote passing b

theorem Consistent.flush (valid : cw.Consistent) : cw.flush.Consistent ∧ cw.flush.settled = cw.settled.flush := by
  unfold UsageCaptureWriter.flush
  split
  · rename_i buffer
    have wrote : cw.wroteHeader = true := by
      by_contra unwritten
      simp [(valid.fresh (by simpa using unwritten)).1] at buffer
    rw [ResponseWriter.flush_of_written (valid.written_settled wrote)]
    exact ⟨valid, rfl⟩
  · rename_i other
    have passing : ¬cw.Buffering := fun held => other held.2.1
    rw [settled_of_not_buffering passing]
    refine ⟨⟨valid.fresh, valid.final, fun wrote _ => ?_⟩, settled_of_not_buffering passing⟩
    exact ResponseWriter.written_flush (valid.written wrote passing)

/-- Every call of the handler changes what the response stands at as it changes
a response without capture. -/
theorem Consistent.call (valid : cw.Consistent) {c : HandlerCall} (final : c.Final) :
    (cw.call c).Consistent ∧ (cw.call c).settled = cw.settled.call c := by
  cases c with
  | writeHeader status =>
    obtain ⟨kept, _, same⟩ := valid.writeHeader final
    exact ⟨kept, same⟩
  | write b =>
    simp only [UsageCaptureWriter.call, ResponseWriter.call, UsageCaptureWriter.write]
    cases wrote : cw.wroteHeader with
    | true => exact valid.writeBody wrote b
    | false =>
      obtain ⟨kept, decided, same⟩ := valid.writeHeader (show (200 : Int) ≤ 200 by decide)
      obtain ⟨kept', same'⟩ := kept.writeBody decided b
      refine ⟨kept', ?_⟩
      rw [if_neg (by simp), same', same, ResponseWriter.writeHeader_write]
  | flush => exact valid.flush

theorem Consistent.calls (valid : cw.Consistent) {calls : List HandlerCall} (final : ∀ c ∈ calls, c.Final) :
    (calls.foldl UsageCaptureWriter.call cw).Consistent ∧
      (calls.foldl UsageCaptureWriter.call cw).settled = calls.foldl ResponseWriter.call cw.settled := by
  induction calls generalizing cw with
  | nil => exact ⟨valid, rfl⟩
  | cons c rest ih =>
    obtain ⟨kept, same⟩ := valid.call (final c List.mem_cons_self)
    rw [List.foldl_cons, List.foldl_cons, ← same]
    exact ih kept fun d later => final d (List.mem_cons_of_mem c later)

/-- `finish` writes what is held back. -/
theorem Consistent.finish (valid : cw.Consistent) (usage : List UInt8 → Option Int)
    (recordTokens : Int → Except String Unit) : (cw.finish usage recordTokens).writer = cw.settled := by
  unfold UsageCaptureWriter.finish
  split
  · rename_i unwritten
    exact (settled_of_not_buffering fun held => by simp [held.1] at unwritten).symm
  · rename_i wrote
    split
    · rename_i other
      exact (settled_of_not_buffering fun held => other held.2.1).symm
    · rename_i buffer
      dsimp only
      split
      · rename_i exceeded
        exact (settled_of_not_buffering fun held => by simp [held.2.2] at exceeded).symm
      · rename_i within
        have held : cw.Buffering := ⟨by simpa using wrote, by simpa using buffer, by simpa using within⟩
        rw [settled_of_buffering held]
        split
        · rfl
        · rename_i none
          have empty : cw.buf = [] := List.eq_nil_of_length_eq_zero (by omega)
          rw [empty, ResponseWriter.write_nil_of_written (ResponseWriter.written_writeHeader _ (valid.final held.1))]

end UsageCaptureWriter

/-- The capturing writer delivers what the handler would deliver without it. -/
theorem capture_transparent (w : ResponseWriter) {calls : List HandlerCall} (final : ∀ c ∈ calls, c.Final)
    (usage : List UInt8 → Option Int) (recordTokens : Int → Except String Unit) :
    ((calls.foldl UsageCaptureWriter.call (.wrap w)).finish usage recordTokens).writer =
      calls.foldl ResponseWriter.call w := by
  obtain ⟨kept, same⟩ := (UsageCaptureWriter.consistent_wrap w).calls final
  rw [kept.finish usage recordTokens, same]
  rfl

/-- A JSON body in two parts, with a flush and a late header between them. -/
theorem capture_transparent_json :
    (([.write [123], .flush, .writeHeader 500, .write [125]].foldl UsageCaptureWriter.call
      (.wrap ⟨"application/json", true, [], none, []⟩)).finish (fun _ => some 7) fun _ => .error "timeout").writer =
        ⟨"application/json", true, [], some 200, [123, 125]⟩ :=
  capture_transparent ⟨"application/json", true, [], none, []⟩ (by simp [HandlerCall.Final]) (fun _ => some 7)
    fun _ => .error "timeout"

end LlmGateway
