import LlmGateway.Middleware.RateLimit
import LlmGateway.Lib.Lines
import Mathlib.Data.List.Induction

namespace LlmGateway

/-- A call of the limiter, or one of the underlying `http.ResponseWriter`. -/
inductive ServeEffect where
  | recordTokens (total : Int)
  | forward (c : HandlerCall)

namespace ServeEffect

def tokens : ServeEffect → Option Int
  | .recordTokens total => some total
  | .forward _ => none

def forwarded : ServeEffect → Option HandlerCall
  | .recordTokens _ => none
  | .forward c => some c

@[simp] theorem tokens_forward (calls : List HandlerCall) : (calls.map forward).filterMap tokens = [] := by
  rw [List.filterMap_map]
  exact List.filterMap_eq_nil_iff.mpr fun _ _ => rfl

@[simp] theorem forwarded_forward (calls : List HandlerCall) : (calls.map forward).filterMap forwarded = calls := by
  rw [List.filterMap_map]
  exact List.filterMap_some

end ServeEffect

theorem ResponseWriter.contentType_writeHeader (w : ResponseWriter) (code : Int) :
    (w.writeHeader code).contentType = w.contentType := by
  unfold writeHeader
  split
  · rfl
  · split <;> rfl

theorem ResponseWriter.contentType_write (w : ResponseWriter) (b : List UInt8) :
    (w.write b).contentType = w.contentType := w.contentType_writeHeader 200

theorem ResponseWriter.contentType_flush (w : ResponseWriter) : w.flush.contentType = w.contentType := by
  unfold flush
  split
  · exact w.contentType_writeHeader 200
  · rfl

namespace UsageCaptureWriter

/-- What `WriteHeader` passes on. -/
def forwardHeader (cw : UsageCaptureWriter) (status : Int) : List HandlerCall :=
  if cw.wroteHeader then []
  else match decideMode cw.writer.contentType with
    | .stream | .passthrough => [.writeHeader status]
    | .buffer | .undecided => []

/-- What `Write` passes on once the header is decided. -/
def forwardBody (cw : UsageCaptureWriter) (b : List UInt8) : List HandlerCall :=
  match cw.mode with
  | .buffer =>
    if cw.exceededLimit then [.write b]
    else if captureBodyLimit < cw.buf.length + b.length then
      if 0 < cw.buf.length then [.writeHeader cw.status, .write cw.buf, .write b]
      else [.writeHeader cw.status, .write b]
    else []
  | _ => [.write b]

/-- What a call of the handler passes on. -/
def forward (cw : UsageCaptureWriter) : HandlerCall → List HandlerCall
  | .writeHeader status => cw.forwardHeader status
  | .write b =>
    if cw.wroteHeader then cw.forwardBody b else cw.forwardHeader 200 ++ (cw.writeHeader 200).forwardBody b
  | .flush => if cw.mode = .buffer then [] else [.flush]

/-- What the calls of the handler pass on. -/
def forwardAll : UsageCaptureWriter → List HandlerCall → List HandlerCall
  | _, [] => []
  | cw, c :: rest => cw.forward c ++ forwardAll (cw.call c) rest

/-- The response that `finish` writes in buffer mode. -/
def release (cw : UsageCaptureWriter) : List HandlerCall :=
  if cw.exceededLimit then []
  else .writeHeader cw.status :: if 0 < cw.buf.length then [.write cw.buf] else []

/-- What `finish` does: the tokens are recorded before the response goes out. -/
def finishEffects (cw : UsageCaptureWriter) (usage : List UInt8 → Option Int)
    (recordTokens : Int → Except String Unit) : List ServeEffect :=
  if !cw.wroteHeader then []
  else if cw.mode ≠ .buffer then []
  else (cw.recordUsage usage recordTokens).1.toList.map .recordTokens ++ cw.release.map .forward

end UsageCaptureWriter

/-- What `serve` does after it has allowed the request. -/
def serveEffects (parts : Serving) (key : KeyInfo) (handler : List HandlerCall) (w : ResponseWriter) :
    List ServeEffect :=
  ((UsageCaptureWriter.wrap w).forwardAll handler).map .forward ++
    (handler.foldl UsageCaptureWriter.call (.wrap w)).finishEffects parts.usage (parts.recordTokens key)

namespace UsageCaptureWriter

variable {cw : UsageCaptureWriter}

theorem replay_forwardHeader (cw : UsageCaptureWriter) (status : Int) :
    (cw.forwardHeader status).foldl ResponseWriter.call cw.writer = (cw.writeHeader status).writer := by
  unfold forwardHeader writeHeader
  split
  · rfl
  · dsimp only
    cases decideMode cw.writer.contentType <;> rfl

theorem replay_forwardBody (cw : UsageCaptureWriter) (b : List UInt8) :
    (cw.forwardBody b).foldl ResponseWriter.call cw.writer = (cw.writeBody b).writer := by
  unfold forwardBody writeBody
  cases cw.mode with
  | buffer =>
    dsimp only
    split
    · rfl
    · split
      · split <;> rfl
      · rfl
  | undecided => rfl
  | stream => rfl
  | passthrough => rfl

theorem replay_forward (cw : UsageCaptureWriter) (c : HandlerCall) :
    (cw.forward c).foldl ResponseWriter.call cw.writer = (cw.call c).writer := by
  cases c with
  | writeHeader status => exact cw.replay_forwardHeader status
  | write b =>
    simp only [forward, call, write]
    split
    · exact cw.replay_forwardBody b
    · rw [List.foldl_append, replay_forwardHeader, replay_forwardBody]
  | flush =>
    simp only [forward, call, flush]
    split <;> rfl

theorem replay_forwardAll (cw : UsageCaptureWriter) (calls : List HandlerCall) :
    (cw.forwardAll calls).foldl ResponseWriter.call cw.writer = (calls.foldl call cw).writer := by
  induction calls generalizing cw with
  | nil => rfl
  | cons c rest ih => rw [forwardAll, List.foldl_append, replay_forward, ih, List.foldl_cons]

theorem forwardAll_append (cw : UsageCaptureWriter) (calls : List HandlerCall) (c : HandlerCall) :
    cw.forwardAll (calls ++ [c]) = cw.forwardAll calls ++ (calls.foldl call cw).forward c := by
  induction calls generalizing cw with
  | nil => simp [forwardAll]
  | cons first rest ih =>
    rw [List.cons_append, forwardAll, ih, forwardAll, List.append_assoc]
    rfl

section Finish

variable (usage : List UInt8 → Option Int) (recordTokens : Int → Except String Unit)

theorem tokens_finishEffects (cw : UsageCaptureWriter) :
    (cw.finishEffects usage recordTokens).filterMap ServeEffect.tokens =
      (cw.finish usage recordTokens).recorded.toList := by
  unfold finishEffects finish
  split
  · rfl
  · split
    · rfl
    · rw [List.filterMap_append, ServeEffect.tokens_forward, List.append_nil]
      dsimp only
      cases (cw.recordUsage usage recordTokens).1 with
      | none => split <;> rfl
      | some total => split <;> rfl

theorem replay_finishEffects (cw : UsageCaptureWriter) :
    ((cw.finishEffects usage recordTokens).filterMap ServeEffect.forwarded).foldl ResponseWriter.call cw.writer =
      (cw.finish usage recordTokens).writer := by
  unfold finishEffects finish
  split
  · rfl
  · split
    · rfl
    · have silent (recorded : Option Int) :
          (recorded.toList.map ServeEffect.recordTokens).filterMap ServeEffect.forwarded = [] := by
        cases recorded <;> rfl
      rw [List.filterMap_append, silent, ServeEffect.forwarded_forward, List.nil_append, release]
      dsimp only
      split
      · rfl
      · split <;> rfl

/-- The tokens are recorded first. -/
theorem head_finishEffects {total : Int} (recorded : (cw.finish usage recordTokens).recorded = some total) :
    (cw.finishEffects usage recordTokens).head? = some (.recordTokens total) := by
  unfold finish at recorded
  unfold finishEffects
  split at recorded
  · cases recorded
  · rename_i wrote
    split at recorded
    · cases recorded
    · rename_i buffer
      have first : (cw.recordUsage usage recordTokens).1 = some total := by
        dsimp only at recorded
        split at recorded <;> exact recorded
      rw [if_neg wrote, if_neg buffer, first]
      rfl

/-- When tokens are recorded, in terms of what the writer holds. -/
theorem recorded_finish_iff {total : Int} :
    (cw.finish usage recordTokens).recorded = some total ↔
      cw.Buffering ∧ (200 ≤ cw.status ∧ cw.status < 300) ∧ 0 < cw.buf.length ∧ usage cw.buf = some total ∧
        0 < total := by
  have recorded : (cw.recordUsage usage recordTokens).1 = some total ↔
      (200 ≤ cw.status ∧ cw.status < 300) ∧ cw.exceededLimit = false ∧ 0 < cw.buf.length ∧
        usage cw.buf = some total ∧ 0 < total := by
    unfold recordUsage
    split
    · rename_i counted
      cases usage cw.buf with
      | none => simp
      | some n =>
        dsimp only
        split
        · cases recordTokens n <;> grind
        · grind
    · grind
  unfold finish Buffering
  split
  · simp_all
  · split
    · simp_all
    · dsimp only
      split <;> simp_all

end Finish

theorem forwardHeader_of_buffering {status : Int} (after : (cw.writeHeader status).Buffering) :
    cw.forwardHeader status = [] := by
  unfold forwardHeader
  split
  · rfl
  · rename_i unwritten
    rw [writeHeader_of_fresh (by simpa using unwritten)] at after
    have buffer : decideMode cw.writer.contentType = .buffer := after.2.1
    rw [buffer]

theorem forwardBody_of_buffering {b : List UInt8} (after : (cw.writeBody b).Buffering) :
    cw.Buffering ∧ cw.forwardBody b = [] := by
  unfold writeBody at after
  split at after
  · rename_i buffer
    rw [forwardBody, buffer]
    dsimp only
    split at after
    · rename_i exceeded
      exact absurd after.2.2 (by simp [exceeded])
    · rename_i small
      rw [if_neg small]
      split at after
      · split at after <;> exact Bool.noConfusion after.2.2
      · rename_i fits
        exact ⟨after, if_neg fits⟩
  · rename_i other
    exact absurd after.2.1 other

theorem forward_of_buffering {c : HandlerCall} (after : (cw.call c).Buffering) :
    cw.forward c = [] ∧ (cw.Buffering ∨ cw.wroteHeader = false) := by
  have earlier {status : Int} (held : (cw.writeHeader status).Buffering) :
      cw.Buffering ∨ cw.wroteHeader = false := by
    cases wrote : cw.wroteHeader with
    | false => exact Or.inr rfl
    | true =>
      rw [writeHeader, if_pos wrote] at held
      exact Or.inl held
  cases c with
  | writeHeader status => exact ⟨forwardHeader_of_buffering after, earlier after⟩
  | write b =>
    simp only [call, write] at after
    simp only [forward]
    split at after
    · rename_i wrote
      obtain ⟨before, nothing⟩ := forwardBody_of_buffering after
      rw [if_pos wrote]
      exact ⟨nothing, Or.inl before⟩
    · rename_i unwritten
      obtain ⟨before, nothing⟩ := forwardBody_of_buffering after
      rw [if_neg unwritten, forwardHeader_of_buffering before, nothing]
      exact ⟨rfl, earlier before⟩
  | flush =>
    simp only [call, flush] at after
    simp only [forward]
    split at after
    · rename_i buffer
      rw [if_pos buffer]
      exact ⟨rfl, Or.inl after⟩
    · rename_i other
      exact absurd after.2.1 other

/-- The writer after calls with the given first header and body. Before the
header nothing is decided or held. A buffered body is held whole until it
exceeds the limit. -/
structure Captured (contentType : String) (header : Option Int) (body : List UInt8) (cw : UsageCaptureWriter) :
    Prop where
  typed : cw.writer.contentType = contentType
  wrote : cw.wroteHeader = header.isSome
  fresh : header = none → cw.mode = .undecided ∧ cw.buf = [] ∧ cw.exceededLimit = false ∧ body = []
  decided : ∀ status, header = some status → cw.status = status ∧ cw.mode = decideMode contentType
  within : cw.mode = .buffer → cw.exceededLimit = false → cw.buf = body ∧ body.length ≤ captureBodyLimit
  beyond : cw.mode = .buffer → cw.exceededLimit = true → captureBodyLimit < body.length

variable {contentType : String} {header : Option Int} {body : List UInt8}

theorem captured_wrap (w : ResponseWriter) : Captured w.contentType none [] (wrap w) where
  typed := rfl
  wrote := rfl
  fresh := fun _ => ⟨rfl, rfl, rfl, rfl⟩
  decided := by
    rintro status ⟨⟩
  within := by
    rintro ⟨⟩
  beyond := by
    rintro ⟨⟩

theorem Captured.writeHeader (held : Captured contentType header body cw) (status : Int) :
    Captured contentType (header.or (some status)) body (cw.writeHeader status) := by
  cases header with
  | some first =>
    have same : cw.writeHeader status = cw := if_pos held.wrote
    rw [same]
    exact held
  | none =>
    obtain ⟨_, empty, small, nothing⟩ := held.fresh rfl
    have typed : (if decideMode cw.writer.contentType = .buffer then cw.writer
        else cw.writer.writeHeader status).contentType = contentType := by
      split
      · exact held.typed
      · exact (ResponseWriter.contentType_writeHeader _ _).trans held.typed
    rw [writeHeader_of_fresh held.wrote]
    refine ⟨typed, rfl, fun none => absurd none (Option.some_ne_none _), ?_, fun _ _ => ?_, ?_⟩
    · rintro _ ⟨⟩
      exact ⟨rfl, congrArg decideMode held.typed⟩
    · exact ⟨empty.trans nothing.symm, by simp [nothing]⟩
    · intro _ exceeded
      cases small.symm.trans exceeded

theorem Captured.writeBody {status : Int} (held : Captured contentType (some status) body cw) (b : List UInt8) :
    Captured contentType (some status) (body ++ b) (cw.writeBody b) := by
  have written {P : Prop} (unwritten : some status = none) : P := absurd unwritten (Option.some_ne_none _)
  rcases writeBody_cases held.wrote b with
    ⟨⟨_, buffer, small⟩, fits, after⟩ | ⟨⟨_, buffer, small⟩, overflow, buf, after⟩ | ⟨passing, after⟩
  · obtain ⟨same, _⟩ := held.within buffer small
    rw [after]
    refine ⟨held.typed, held.wrote, written, held.decided, fun _ _ => ⟨by rw [same], ?_⟩, fun _ exceeded => ?_⟩
    · rwa [List.length_append, ← same]
    · cases small.symm.trans exceeded
  · obtain ⟨same, _⟩ := held.within buffer small
    rw [after]
    have typed : ((cw.writer.writeHeader cw.status).write (cw.buf ++ b)).contentType = contentType := by
      rw [ResponseWriter.contentType_write, ResponseWriter.contentType_writeHeader, held.typed]
    refine ⟨typed, held.wrote, written, held.decided, fun _ within => Bool.noConfusion within, fun _ _ => ?_⟩
    rwa [List.length_append, ← same]
  · rw [after]
    refine ⟨(ResponseWriter.contentType_write _ _).trans held.typed, held.wrote, written, held.decided,
      fun buffer within => absurd ⟨held.wrote, buffer, within⟩ passing, fun buffer exceeded => ?_⟩
    have longer := held.beyond buffer exceeded
    rw [List.length_append]
    omega

theorem Captured.write (held : Captured contentType header body cw) (b : List UInt8) :
    Captured contentType (header.or (some 200)) (body ++ b) (cw.write b) := by
  unfold UsageCaptureWriter.write
  cases header with
  | some status =>
    rw [if_pos (show cw.wroteHeader = true from held.wrote)]
    exact held.writeBody b
  | none =>
    rw [if_neg (by rw [held.wrote]; decide)]
    exact (held.writeHeader 200).writeBody b

theorem Captured.flush (held : Captured contentType header body cw) : Captured contentType header body cw.flush := by
  unfold UsageCaptureWriter.flush
  split
  · exact held
  · exact ⟨(ResponseWriter.contentType_flush _).trans held.typed, held.wrote, held.fresh, held.decided, held.within,
      held.beyond⟩

end UsageCaptureWriter

/-- The status that a call asks for. A write asks for 200. -/
def HandlerCall.status : HandlerCall → Option Int
  | .writeHeader status => some status
  | .write _ => some 200
  | .flush => none

def HandlerCall.bytes : HandlerCall → List UInt8
  | .writeHeader _ => []
  | .write b => b
  | .flush => []

/-- The status of the response, decided by the first call that asks for one. -/
def responseStatus (calls : List HandlerCall) : Option Int := (calls.filterMap HandlerCall.status).head?

/-- The whole body, whatever the writes it comes in. -/
def responseBody (calls : List HandlerCall) : List UInt8 := calls.flatMap HandlerCall.bytes

theorem responseStatus_append (calls : List HandlerCall) (c : HandlerCall) :
    responseStatus (calls ++ [c]) = (responseStatus calls).or c.status := by
  unfold responseStatus
  rw [List.filterMap_append, List.head?_append]
  cases c <;> rfl

theorem responseBody_append (calls : List HandlerCall) (c : HandlerCall) :
    responseBody (calls ++ [c]) = responseBody calls ++ c.bytes := by
  simp [responseBody]

namespace UsageCaptureWriter

theorem captured_calls (w : ResponseWriter) (calls : List HandlerCall) :
    Captured w.contentType (responseStatus calls) (responseBody calls) (calls.foldl call (wrap w)) := by
  induction calls using List.reverseRecOn with
  | nil => exact captured_wrap w
  | append_singleton calls c ih =>
    rw [List.foldl_append, responseStatus_append, responseBody_append]
    cases c with
    | writeHeader status =>
      rw [HandlerCall.bytes, List.append_nil]
      exact ih.writeHeader status
    | write b => exact ih.write b
    | flush =>
      rw [HandlerCall.status, Option.or_none, HandlerCall.bytes, List.append_nil]
      exact ih.flush

/-- A handler that does not start with a flush passes nothing on while its
response is held back. -/
theorem forwardAll_of_buffering {w : ResponseWriter} {calls : List HandlerCall}
    (first : calls.head? ≠ some .flush) (held : (calls.foldl call (wrap w)).Buffering) :
    (wrap w).forwardAll calls = [] := by
  induction calls using List.reverseRecOn with
  | nil => rfl
  | append_singleton calls c ih =>
    rw [List.foldl_append] at held
    obtain ⟨nothing, before⟩ := forward_of_buffering held
    rw [forwardAll_append, nothing, List.append_nil]
    cases calls with
    | nil => rfl
    | cons d rest =>
      refine ih first (before.resolve_right fun unwritten => first ?_)
      have wrote := (captured_calls w (d :: rest)).wrote
      rw [unwritten] at wrote
      cases d with
      | writeHeader status => cases wrote
      | write b => cases wrote
      | flush => rfl

end UsageCaptureWriter

/-- The response counts towards the token limit with the given total. -/
def Counts (usage : List UInt8 → Option Int) (contentType : String) (calls : List HandlerCall) (total : Int) :
    Prop :=
  "application/json".toList <+: contentType.toList ∧
    (∃ status, responseStatus calls = some status ∧ 200 ≤ status ∧ status < 300) ∧
    (responseBody calls).length ≤ captureBodyLimit ∧ usage (responseBody calls) = some total ∧ 0 < total

namespace UsageCaptureWriter

theorem decideMode_eq_buffer {contentType : String} :
    decideMode contentType = .buffer ↔ "application/json".toList <+: contentType.toList := by
  unfold decideMode
  rw [← List.isPrefixOf_iff_prefix]
  split
  · rename_i events
    refine ⟨fun other => CaptureMode.noConfusion other, fun json => ?_⟩
    exact absurd (List.prefix_of_prefix_length_le (List.isPrefixOf_iff_prefix.mp json)
      (List.isPrefixOf_iff_prefix.mp events) (by decide)) (by decide)
  · split
    · rename_i json
      exact ⟨fun _ => json, fun _ => rfl⟩
    · rename_i other
      exact ⟨fun buffer => CaptureMode.noConfusion buffer, fun json => absurd json other⟩

/-- The response is held back to the end exactly when it is JSON within the
limit. -/
theorem Captured.buffering_iff {contentType : String} {status : Int} {body : List UInt8} {cw : UsageCaptureWriter}
    (held : Captured contentType (some status) body cw) :
    cw.Buffering ↔ "application/json".toList <+: contentType.toList ∧ body.length ≤ captureBodyLimit := by
  have mode := (held.decided status rfl).2
  rw [← decideMode_eq_buffer, ← mode]
  constructor
  · rintro ⟨_, buffer, small⟩
    exact ⟨buffer, (held.within buffer small).2⟩
  · rintro ⟨buffer, short⟩
    refine ⟨held.wrote, buffer, ?_⟩
    by_contra exceeded
    have longer := held.beyond buffer (by simpa using exceeded)
    omega

theorem Captured.buf_eq {contentType : String} {header : Option Int} {body : List UInt8} {cw : UsageCaptureWriter}
    (held : Captured contentType header body cw) (buffering : cw.Buffering) : cw.buf = body :=
  (held.within buffering.2.1 buffering.2.2).1

/-- What `finish` records depends on the response as a whole. -/
theorem recorded_iff_counts {usage : List UInt8 → Option Int} (empty : usage [] = none)
    (recordTokens : Int → Except String Unit) (w : ResponseWriter) (calls : List HandlerCall) {total : Int} :
    ((calls.foldl call (wrap w)).finish usage recordTokens).recorded = some total ↔
      Counts usage w.contentType calls total := by
  have held := captured_calls w calls
  rw [recorded_finish_iff, Counts]
  cases header : responseStatus calls with
  | none =>
    rw [header] at held
    have unwritten : (calls.foldl call (wrap w)).wroteHeader = false := held.wrote
    simp [Buffering, unwritten]
  | some status =>
    rw [header] at held
    have same := (held.decided status rfl).1
    rw [held.buffering_iff, same]
    constructor
    · rintro ⟨⟨json, short⟩, success, _, decodes, positive⟩
      rw [held.buf_eq (held.buffering_iff.mpr ⟨json, short⟩)] at decodes
      exact ⟨json, ⟨status, rfl, success⟩, short, decodes, positive⟩
    · rintro ⟨json, ⟨_, ⟨⟩, success⟩, short, decodes, positive⟩
      rw [held.buf_eq (held.buffering_iff.mpr ⟨json, short⟩)]
      refine ⟨⟨json, short⟩, success, List.length_pos_iff.mpr fun none => ?_, decodes, positive⟩
      rw [none, empty] at decodes
      cases decodes

end UsageCaptureWriter

theorem serve_allowed {parts : Serving} {key : KeyInfo} {res : Reservation}
    (reserved : parts.reserve key = .ok res) (allowed : res.allowed = true) (handler : List HandlerCall)
    (w : ResponseWriter) :
    serve parts (some key) handler w = .allowed (setRateLimitHeaders res)
      ((handler.foldl UsageCaptureWriter.call (.wrap w)).finish parts.usage (parts.recordTokens key)) := by
  simp only [serve, reserved, allowed, Bool.not_true, Bool.false_eq_true, if_false]

/-- Token accounting is exact and does not depend on how the body is written:
the tokens are recorded at most once, exactly when the response counts, and
before any of the response goes out unless the handler starts with a flush. -/
theorem token_accounting_exact (parts : Serving) (key : KeyInfo) {res : Reservation}
    (reserved : parts.reserve key = .ok res) (allowed : res.allowed = true) (empty : parts.usage [] = none)
    (handler : List HandlerCall) (w : ResponseWriter) :
    ∃ finished, serve parts (some key) handler w = .allowed (setRateLimitHeaders res) finished ∧
      ((serveEffects parts key handler w).filterMap ServeEffect.forwarded).foldl ResponseWriter.call w =
        finished.writer ∧
      (serveEffects parts key handler w).filterMap ServeEffect.tokens = finished.recorded.toList ∧
      (∀ total, finished.recorded = some total ↔ Counts parts.usage w.contentType handler total) ∧
      (handler.head? ≠ some .flush → ∀ total, finished.recorded = some total →
        (serveEffects parts key handler w).head? = some (.recordTokens total)) := by
  refine ⟨_, serve_allowed reserved allowed handler w, ?_, ?_,
    fun total => UsageCaptureWriter.recorded_iff_counts empty _ w handler, fun first total recorded => ?_⟩
  · rw [serveEffects, List.filterMap_append, ServeEffect.forwarded_forward, List.foldl_append]
    have sent := (UsageCaptureWriter.wrap w).replay_forwardAll handler
    rw [show (UsageCaptureWriter.wrap w).writer = w from rfl] at sent
    rw [sent]
    exact UsageCaptureWriter.replay_finishEffects _ _ _
  · rw [serveEffects, List.filterMap_append, ServeEffect.tokens_forward, List.nil_append]
    exact UsageCaptureWriter.tokens_finishEffects _ _ _
  · have held := (UsageCaptureWriter.recorded_finish_iff _ _).mp recorded
    rw [serveEffects, UsageCaptureWriter.forwardAll_of_buffering first held.1]
    exact UsageCaptureWriter.head_finishEffects _ _ recorded

/-- A JSON body in two writes is counted once, before it goes out. -/
theorem token_accounting_exact_split :
    let text := Lines.bytes "\x7b\"usage\":\x7b\"total_tokens\":7\x7d\x7d"
    let parts : Serving := ⟨fun _ => [], fun body => if body = text then some 7 else none,
      fun _ => .ok { allowed := true }, fun _ _ => .ok ()⟩
    let key : KeyInfo := ⟨"k", "o", "", 0, 0, [], none⟩
    let handler : List HandlerCall := [.write (text.take 10), .write (text.drop 10)]
    let w : ResponseWriter := ⟨"application/json", true, [], none, []⟩
    ∃ finished, serve parts (some key) handler w = .allowed [] finished ∧ finished.recorded = some 7 ∧
      (serveEffects parts key handler w).head? = some (.recordTokens 7) := by
  intro text parts key handler w
  obtain ⟨finished, served, _, _, counts, order⟩ :=
    token_accounting_exact parts key rfl rfl rfl handler w
  have recorded : finished.recorded = some 7 :=
    (counts 7).mpr ⟨by decide, ⟨200, rfl, by decide, by decide⟩, by decide, rfl, by decide⟩
  exact ⟨finished, served, recorded, order (by simp [handler]) 7 recorded⟩

end LlmGateway
