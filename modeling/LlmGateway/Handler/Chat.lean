import LlmGateway.Lib.Decoder
import LlmGateway.Lib.Lines
import LlmGateway.Middleware.DebugBodies
import LlmGateway.Middleware.RateLimit
import LlmGateway.Provider.Translate
import LlmGateway.Router.Exact

namespace LlmGateway

open Reader Lines

/-- The error of a read of the body, or that of `http.MaxBytesReader`. -/
inductive LimitedBodyError where
  | body (err : BodyError)
  | maxBytes
deriving DecidableEq, Repr

def maxRequestBodySize : Nat := 10 <<< 20

/-- `encoding/json` as `Decode` uses it: the scanner finds the bytes of the first value
or an error in them, some values are complete only at the end of the input, and the
buffer always has room for a read. -/
structure RequestCodec where
  scanner : ValueScanner UInt8 (Except String (List UInt8))
  complete : List UInt8 → Bool
  unmarshal : List UInt8 → Except String ChatRequest
  room : Nat → Nat
  space : ∀ n, 0 < room n

inductive DecodeError where
  | maxBytes
  | text (err : String)
deriving DecidableEq, Repr

/-- `nonSpace` of `encoding/json`. -/
def nonSpace (buf : List UInt8) : Bool := buf.any fun b => !([32, 9, 13, 10] : List UInt8).contains b

namespace RequestCodec

variable (codec : RequestCodec)

def unmarshalled (value : List UInt8) : Except DecodeError ChatRequest := (codec.unmarshal value).mapError .text

/-- What `Decode` returns after its loop. -/
def result : Except (LimitedBodyError × List UInt8) (Except String (List UInt8)) → Except DecodeError ChatRequest
  | .ok (.ok value) => codec.unmarshalled value
  | .ok (.error err) => .error (.text err)
  | .error (.maxBytes, _) => .error .maxBytes
  | .error (.body .eof, buf) =>
    if codec.complete buf then codec.unmarshalled buf
    else .error (.text (if nonSpace buf then BodyError.unexpectedEOF.error else BodyError.eof.error))
  | .error (.body err, _) => .error (.text err.error)

/-- `json.NewDecoder(r.Body).Decode(&req)` on the limited body; `fuel` bounds the reads. -/
def decode {σ : Type} (read : Read σ UInt8 BodyError) (fuel : Nat) (s : σ) : Option (Except DecodeError ChatRequest) :=
  (valueLoop (limitedRead .maxBytes (mapError .body read)) codec.room codec.scanner fuel
    ⟨maxRequestBodySize, none, s⟩ []).map codec.result

/-- The request in a body, however it is read: the one in its first ten megabytes. -/
def request (data : List UInt8) (err : BodyError) : Except DecodeError ChatRequest :=
  codec.result (codec.scanner.outcome (if data.length ≤ maxRequestBodySize then .body err else .maxBytes)
    (data.take maxRequestBodySize))

variable {codec} {σ : Type} {read : Read σ UInt8 BodyError} {err : BodyError} {s : σ} {data : List UInt8}

theorem decode_delivers (ends : Delivers read err s data) :
    ∃ enough, ∀ fuel ≥ enough, codec.decode read fuel s = some (codec.request data err) := by
  have limited : Delivers (limitedRead .maxBytes (mapError LimitedBodyError.body read)) _ _ _ :=
    (ends.mapError LimitedBodyError.body).limited maxRequestBodySize
  obtain ⟨enough, loop⟩ := valueLoop_delivers codec.scanner codec.space limited []
  refine ⟨enough, fun fuel bound => ?_⟩
  rw [decode, loop fuel bound]
  rfl

theorem result_ok_ne (verdict : Except String (List UInt8)) : codec.result (.ok verdict) ≠ .error .maxBytes := by
  cases verdict with
  | error err => nofun
  | ok value =>
    rw [result, unmarshalled]
    cases codec.unmarshal value <;> nofun

theorem result_body_ne (err : BodyError) (buf : List UInt8) :
    codec.result (.error (.body err, buf)) ≠ .error .maxBytes := by
  cases err with
  | eof =>
    rw [result, unmarshalled]
    split
    · cases codec.unmarshal buf <;> nofun
    · nofun
  | unexpectedEOF => nofun
  | other text => nofun

/-- A body is too large iff it is longer than the limit and its first value does not end
within it. -/
theorem request_eq_maxBytes :
    codec.request data err = .error .maxBytes ↔
      maxRequestBodySize < data.length ∧ codec.scanner.verdict (data.take maxRequestBodySize) = none := by
  rw [request, ValueScanner.outcome]
  cases codec.scanner.verdict (data.take maxRequestBodySize) with
  | some verdict => simpa using codec.result_ok_ne verdict
  | none =>
    by_cases within : data.length ≤ maxRequestBodySize
    · simp only [if_pos within]
      exact iff_of_false (codec.result_body_ne err _) (by omega)
    · simp only [if_neg within]
      exact iff_of_true rfl ⟨by omega, trivial⟩

/-- What follows a value is not looked at. -/
theorem request_of_verdict {value : List UInt8} (first : value <+: data) (within : value.length ≤ maxRequestBodySize)
    {verdict : Except String (List UInt8)} (found : codec.scanner.verdict value = some verdict) :
    codec.request data err = codec.result (.ok verdict) := by
  obtain ⟨rest, seen⟩ := List.prefix_take_iff.mpr ⟨first, within⟩
  rw [request, ← seen, ValueScanner.outcome, codec.scanner.stable found rest]

end RequestCodec

def RouteError.error : RouteError → String
  | .nilRequest => "router: nil request"
  | .unknownModel => "unknown model"
  | .noHealthyProviders => "no healthy providers"
  | .strategy name err => "router: strategy " ++ name.quote ++ ": " ++ err

def invalidRequest (message : String) : APIErr := ⟨400, "invalid_request_error", "invalid_request", message⟩

/-- The answer to a body that `Decode` has failed on. -/
def DecodeError.answer : DecodeError → APIErr
  | .maxBytes => ⟨413, "invalid_request_error", "request_too_large", "request body exceeds 10MB limit"⟩
  | .text err => invalidRequest ("invalid request body: " ++ err)

def writeRouterError (modelName : String) : RouteError → APIErr
  | .unknownModel => ⟨400, "invalid_request_error", "invalid_model", "unknown model " ++ modelName.quote⟩
  | .noHealthyProviders =>
    ⟨503, "service_unavailable", "all_providers_down", "all candidate providers are unavailable"⟩
  | err => ⟨500, "internal_error", "internal_error", "routing failed: " ++ err.error⟩

/-- The call of a provider, with the routing decision behind it. -/
structure Dispatch where
  provider : Provider
  decision : Decision
  request : ChatRequest

/-- What `Route` reads besides the request: the breakers, the clock, the counters of the
strategies and a random number. -/
structure RouteEnv where
  router : Router
  breakers : Breakers
  now : Int
  strategies : StrategyState
  draw : ℚ

/-- `HandleChatCompletion` once `Decode` has returned, up to the call of the provider. The
strategies move on with the request. -/
def dispatch (env : RouteEnv) : Except DecodeError ChatRequest → Except APIErr Dispatch × StrategyState
  | .error err => (.error err.answer, env.strategies)
  | .ok req =>
    if req.model = "" then (.error (invalidRequest "model is required"), env.strategies)
    else if req.messages.length = 0 then (.error (invalidRequest "messages must not be empty"), env.strategies)
    else match env.router.route env.breakers env.now env.strategies env.draw (some req.routed) with
      | (.error err, strategies) => (.error (writeRouterError req.model err), strategies)
      | (.ok (p, decision), strategies) => (.ok ⟨p, decision, { req with model := decision.model }⟩, strategies)

def handleChatCompletion {σ : Type} (codec : RequestCodec) (env : RouteEnv) (read : Read σ UInt8 BodyError)
    (fuel : Nat) (body : σ) : Option (Except APIErr Dispatch × StrategyState) :=
  (codec.decode read fuel body).map (dispatch env)

theorem handleChatCompletion_delivers {σ : Type} (codec : RequestCodec) (env : RouteEnv)
    {read : Read σ UInt8 BodyError} {err : BodyError} {s : σ} {data : List UInt8} (ends : Delivers read err s data) :
    ∃ enough, ∀ fuel ≥ enough,
      handleChatCompletion codec env read fuel s = some (dispatch env (codec.request data err)) := by
  obtain ⟨enough, decoded⟩ := codec.decode_delivers ends
  exact ⟨enough, fun fuel bound => by rw [handleChatCompletion, decoded fuel bound, Option.map_some]⟩

section Body

variable {σ : Type} {read : Read σ UInt8 BodyError} {err : BodyError} {s : σ} {data : List UInt8}

/-- Only a body that is too large is answered with 413. -/
theorem dispatch_eq_tooLarge (codec : RequestCodec) (env : RouteEnv) :
    (dispatch env (codec.request data err)).1 = .error DecodeError.maxBytes.answer ↔
      codec.request data err = .error .maxBytes := by
  refine ⟨fun refused => ?_, fun large => by rw [large, dispatch]⟩
  cases decoded : codec.request data err with
  | error failure =>
    rw [decoded, dispatch] at refused
    cases failure with
    | maxBytes => rfl
    | text err => simp [DecodeError.answer, invalidRequest] at refused
  | ok req =>
    rw [decoded, dispatch] at refused
    split at refused
    · simp [DecodeError.answer, invalidRequest] at refused
    · split at refused
      · simp [DecodeError.answer, invalidRequest] at refused
      · split at refused
        · rename_i failure _ _
          cases failure <;> simp [DecodeError.answer, writeRouterError] at refused
        · cases refused

/-- In whatever pieces a body arrives, it is refused as too large iff more than ten
megabytes come and no value ends within them; and once a value has ended there, what
follows it makes no difference. -/
theorem chat_body_bounded (codec : RequestCodec) (env : RouteEnv) (ends : Delivers read err s data) :
    ∃ enough, ∀ fuel ≥ enough, ∃ out, handleChatCompletion codec env read fuel s = some out ∧
      (out.1 = .error ⟨413, "invalid_request_error", "request_too_large", "request body exceeds 10MB limit"⟩ ↔
        maxRequestBodySize < data.length ∧ codec.scanner.verdict (data.take maxRequestBodySize) = none) ∧
      ∀ value verdict, value <+: data → value.length ≤ maxRequestBodySize →
        codec.scanner.verdict value = some verdict → out = dispatch env (codec.result (.ok verdict)) := by
  obtain ⟨enough, handled⟩ := handleChatCompletion_delivers codec env ends
  refine ⟨enough, fun fuel bound => ⟨_, handled fuel bound, ?_, ?_⟩⟩
  · exact (dispatch_eq_tooLarge codec env).trans RequestCodec.request_eq_maxBytes
  · intro value verdict first within found
    rw [RequestCodec.request_of_verdict first within found]

end Body

/-- A request for the group and its JSON. -/
def fastRequest : ChatRequest := { model := "fast", messages := [⟨"user", "hi", ""⟩] }

def fastText : List UInt8 :=
  bytes "\x7b\"model\":\"fast\",\"messages\":[\x7b\"role\":\"user\",\"content\":\"hi\"\x7d]\x7d"

/-- What `encoding/json` makes of this text, and of what begins with it. -/
def fastCodec : RequestCodec where
  scanner :=
    { verdict := fun buf => if fastText <+: buf then some (.ok fastText) else none
      stable := by
        intro a v found b
        rw [Option.ite_none_right_eq_some] at found
        rw [if_pos (found.1.trans (List.prefix_append a b)), found.2] }
  complete := fun _ => false
  unmarshal := fun value => if value = fastText then .ok fastRequest else .error "invalid character"
  room := fun _ => 512
  space := fun _ => by decide

theorem verdict_fastText : fastCodec.scanner.verdict fastText = some (.ok fastText) := by
  simp [fastCodec]

theorem result_fastText : fastCodec.result (.ok (.ok fastText)) = .ok fastRequest := by
  simp [RequestCodec.result, RequestCodec.unmarshalled, fastCodec, Except.mapError]

theorem request_fastText : fastCodec.request fastText .eof = .ok fastRequest :=
  (RequestCodec.request_of_verdict List.prefix_rfl (by decide) verdict_fastText).trans result_fastText

def soloEnv (r : Router) : RouteEnv := ⟨r, fun _ => newProviderHealth ⟨0, 0⟩, 0, .fresh, 0⟩

/-- What follows the request is ignored. -/
theorem chat_body_bounded_trailing :
    ∃ r, newRouter (Registry.empty.register soloProvider ["gpt-4o"]) (soloRouting "fast") soloProviders = .ok r ∧
      ∃ enough, ∀ fuel ≥ enough,
        handleChatCompletion fastCodec (soloEnv r) (bytesRead .eof) fuel (fastText ++ bytes ",\x7d") =
          some (dispatch (soloEnv r) (.ok fastRequest)) := by
  refine ⟨_, rfl, ?_⟩
  obtain ⟨enough, bounded⟩ :=
    chat_body_bounded fastCodec (soloEnv _) (delivers_bytes BodyError.eof (fastText ++ bytes ",\x7d"))
  refine ⟨enough, fun fuel bound => ?_⟩
  obtain ⟨out, handled, _, ended⟩ := bounded fuel bound
  rw [handled, ended fastText (.ok fastText) (List.prefix_append _ _) (by decide) verdict_fastText, result_fastText]

section Answers

variable {registry : Registry} {cfg : RoutingConfig} {env : RouteEnv} {req : ChatRequest}

/-- A request that is not routed leaves the strategies as they are. -/
theorem route_error_state {r : Router} {hs : Breakers} {now : Int} {st : StrategyState} {draw : ℚ}
    {req : ChatCompletionRequest} {err : RouteError} (failed : (r.route hs now st draw (some req)).1 = .error err) :
    (r.route hs now st draw (some req)).2 = st := by
  cases resolved : r.resolveCandidates req.model with
  | error err => simp only [Router.route, resolved]
  | ok found =>
    obtain ⟨group, cs⟩ := found
    by_cases empty : (cs.filter fun c => hs.admits now c.provider) = []
    · simp [Router.route, resolved, filterHealthy_eq, empty]
    · obtain ⟨_, _, _, _, out⟩ := route_of_admitted hs now st draw req resolved empty
      cases out.symm.trans failed

/-- The request names a model and holds a message. -/
def ChatRequest.Filled (req : ChatRequest) : Prop := req.model ≠ "" ∧ req.messages ≠ []

theorem dispatch_of_filled (filled : req.Filled) :
    dispatch env (.ok req) =
      match env.router.route env.breakers env.now env.strategies env.draw (some req.routed) with
      | (.error err, strategies) => (.error (writeRouterError req.model err), strategies)
      | (.ok (p, decision), strategies) => (.ok ⟨p, decision, { req with model := decision.model }⟩, strategies) := by
  rw [dispatch, if_neg filled.1, if_neg (by simpa using filled.2)]

theorem dispatch_of_not_filled (blank : ¬ req.Filled) :
    ∃ message, dispatch env (.ok req) = (.error (invalidRequest message), env.strategies) := by
  rw [dispatch]
  by_cases unnamed : req.model = ""
  · exact ⟨_, if_pos unnamed⟩
  · have empty : req.messages.length = 0 := by simpa [ChatRequest.Filled, unnamed] using blank
    rw [if_neg unnamed, if_pos empty]
    exact ⟨_, rfl⟩

theorem dispatch_of_route_error (filled : req.Filled) {err : RouteError}
    (failed : (env.router.route env.breakers env.now env.strategies env.draw (some req.routed)).1 = .error err) :
    dispatch env (.ok req) = (.error (writeRouterError req.model err), env.strategies) := by
  have kept := route_error_state failed
  rw [dispatch_of_filled filled]
  generalize env.router.route env.breakers env.now env.strategies env.draw (some req.routed) = routed at failed kept
  obtain ⟨out, strategies⟩ := routed
  cases failed
  cases kept
  rfl

theorem dispatch_of_route_ok (filled : req.Filled) {p : Provider} {d : Decision}
    (found : (env.router.route env.breakers env.now env.strategies env.draw (some req.routed)).1 = .ok (p, d)) :
    (dispatch env (.ok req)).1 = .ok ⟨p, d, { req with model := d.model }⟩ := by
  rw [dispatch_of_filled filled]
  generalize env.router.route env.breakers env.now env.strategies env.draw (some req.routed) = routed at found
  obtain ⟨out, strategies⟩ := routed
  cases found
  rfl

/-- The four answers to a request. -/
theorem dispatch_outcome (holds : env.router.Holds registry cfg) (req : ChatRequest) :
    (¬ req.Filled ∧ ∃ message, dispatch env (.ok req) = (.error (invalidRequest message), env.strategies)) ∨
    (req.Filled ∧ resolution registry cfg req.model = none ∧
      dispatch env (.ok req) = (.error (writeRouterError req.model .unknownModel), env.strategies)) ∨
    (req.Filled ∧ (∃ pairs, resolution registry cfg req.model = some pairs ∧
        ∀ x ∈ pairs, env.breakers.admits env.now x.1 = false) ∧
      dispatch env (.ok req) = (.error (writeRouterError req.model .noHealthyProviders), env.strategies)) ∨
    (req.Filled ∧ ∃ pairs p model, resolution registry cfg req.model = some pairs ∧ (p, model) ∈ pairs ∧
      env.breakers.admits env.now p = true ∧
      (dispatch env (.ok req)).1 = .ok ⟨p, ⟨p.name, model, strategyName cfg req.model,
        if req.model ∈ cfg.modelGroups then req.model else ""⟩, { req with model := model }⟩) := by
  by_cases filled : req.Filled
  · rcases route_outcome env.breakers env.now env.strategies env.draw req.routed holds with
      ⟨unknown, out⟩ | ⟨pairs, found, down, out⟩ | ⟨pairs, p, model, found, member, admitted, out⟩
    · exact Or.inr (Or.inl ⟨filled, unknown, dispatch_of_route_error filled out⟩)
    · exact Or.inr (Or.inr (Or.inl ⟨filled, ⟨pairs, found, down⟩, dispatch_of_route_error filled out⟩))
    · exact Or.inr (Or.inr (Or.inr
        ⟨filled, pairs, p, model, found, member, admitted, dispatch_of_route_ok filled out⟩))
  · exact Or.inl ⟨filled, dispatch_of_not_filled filled⟩

theorem dispatch_ok_iff (holds : env.router.Holds registry cfg) (req : ChatRequest) :
    (∃ d, (dispatch env (.ok req)).1 = .ok d) ↔ req.Filled ∧ ∃ pairs,
      resolution registry cfg req.model = some pairs ∧ ∃ x ∈ pairs, env.breakers.admits env.now x.1 = true := by
  rcases dispatch_outcome holds req with
    ⟨blank, _, out⟩ | ⟨_, unknown, out⟩ | ⟨_, ⟨pairs, found, down⟩, out⟩ |
      ⟨filled, pairs, p, model, found, member, admitted, out⟩
  · simp [out, blank]
  · simp [out, unknown]
  · rw [out]
    refine iff_of_false (by simp) ?_
    rintro ⟨_, others, same, x, member, up⟩
    cases found.symm.trans same
    cases (down x member).symm.trans up
  · exact iff_of_true ⟨_, out⟩ ⟨filled, pairs, found, _, member, admitted⟩

/-- A request goes to an admitted provider of a pair that its name stands for, with the
model of that pair and otherwise as it came. -/
theorem dispatch_ok (holds : env.router.Holds registry cfg) {d : Dispatch}
    (sent : (dispatch env (.ok req)).1 = .ok d) :
    (∃ pairs, resolution registry cfg req.model = some pairs ∧ (d.provider, d.request.model) ∈ pairs) ∧
      env.breakers.admits env.now d.provider = true ∧ d.request = { req with model := d.request.model } := by
  rcases dispatch_outcome holds req with
    ⟨_, _, out⟩ | ⟨_, _, out⟩ | ⟨_, _, out⟩ | ⟨_, pairs, p, model, found, member, admitted, out⟩
  · cases (congrArg Prod.fst out).symm.trans sent
  · cases (congrArg Prod.fst out).symm.trans sent
  · cases (congrArg Prod.fst out).symm.trans sent
  · cases out.symm.trans sent
    exact ⟨⟨pairs, found, member⟩, admitted, rfl⟩

/-- Which answers a request gets from a router with an accepted configuration: it is
never an internal error, and a refused request leaves no trace in the strategies. -/
theorem chat_answers_exact (env : RouteEnv) {providers : StringMap ProviderConfig}
    (accepted : newRouter registry cfg providers = .ok env.router) {σ : Type} (codec : RequestCodec)
    {read : Read σ UInt8 BodyError} {err : BodyError} {s : σ} {data : List UInt8} (ends : Delivers read err s data)
    (decoded : codec.request data err = .ok req) :
    ∃ enough, ∀ fuel ≥ enough, ∃ out, handleChatCompletion codec env read fuel s = some out ∧
      (∀ e, out.1 = .error e → (e.status = 400 ∨ e.status = 503) ∧ out.2 = env.strategies) ∧
      (out.1 = .error ⟨400, "invalid_request_error", "invalid_model", "unknown model " ++ req.model.quote⟩ ↔
        req.Filled ∧ req.model ∉ cfg.modelGroups ∧ req.model ∉ registry.models) ∧
      ((∃ e, out.1 = .error e ∧ e.status = 503) ↔ req.Filled ∧ ∃ pairs,
        resolution registry cfg req.model = some pairs ∧ ∀ x ∈ pairs, env.breakers.admits env.now x.1 = false) ∧
      ((∃ d, out.1 = .ok d) ↔ req.Filled ∧ ∃ pairs,
        resolution registry cfg req.model = some pairs ∧ ∃ x ∈ pairs, env.breakers.admits env.now x.1 = true) ∧
      ∀ d, out.1 = .ok d →
        (∃ pairs, resolution registry cfg req.model = some pairs ∧ (d.provider, d.request.model) ∈ pairs) ∧
          env.breakers.admits env.now d.provider = true ∧ d.request = { req with model := d.request.model } := by
  have holds := Router.holds_of_newRouter accepted
  obtain ⟨enough, handled⟩ := handleChatCompletion_delivers codec env ends
  rw [decoded] at handled
  refine ⟨enough, fun fuel bound => ⟨_, handled fuel bound, ?_, ?_, ?_, dispatch_ok_iff holds req,
    fun d sent => dispatch_ok holds sent⟩⟩
  · intro e refused
    rcases dispatch_outcome holds req with
      ⟨_, _, out⟩ | ⟨_, _, out⟩ | ⟨_, _, out⟩ | ⟨_, _, _, _, _, _, _, out⟩
    · rw [out] at refused ⊢
      cases refused
      exact ⟨Or.inl rfl, rfl⟩
    · rw [out] at refused ⊢
      cases refused
      exact ⟨Or.inl rfl, rfl⟩
    · rw [out] at refused ⊢
      cases refused
      exact ⟨Or.inr rfl, rfl⟩
    · cases out.symm.trans refused
  · rw [← resolution_eq_none]
    rcases dispatch_outcome holds req with
      ⟨blank, _, out⟩ | ⟨filled, unknown, out⟩ | ⟨_, ⟨_, found, _⟩, out⟩ | ⟨_, _, _, _, found, _, _, out⟩
    · simp [out, blank, invalidRequest]
    · exact iff_of_true (congrArg Prod.fst out) ⟨filled, unknown⟩
    · simp [out, found, writeRouterError]
    · simp [out, found]
  · rcases dispatch_outcome holds req with
      ⟨blank, _, out⟩ | ⟨filled, unknown, out⟩ | ⟨filled, all, out⟩ |
        ⟨_, pairs, p, model, found, member, admitted, out⟩
    · simp [out, blank, invalidRequest]
    · simp [out, unknown, writeRouterError]
    · exact iff_of_true ⟨_, congrArg Prod.fst out, rfl⟩ ⟨filled, all⟩
    · rw [out]
      refine iff_of_false (by simp) ?_
      rintro ⟨_, others, same, down⟩
      cases found.symm.trans same
      cases (down _ member).symm.trans admitted

end Answers

theorem chat_answers_exact_group :
    ∃ r, newRouter (Registry.empty.register soloProvider ["gpt-4o"]) (soloRouting "fast") soloProviders = .ok r ∧
      ∃ enough, ∀ fuel ≥ enough, ∃ d st,
        handleChatCompletion fastCodec (soloEnv r) (bytesRead .eof) fuel fastText = some (.ok d, st) ∧
          d.request = { fastRequest with model := "gpt-4o" } := by
  have accepted : newRouter (Registry.empty.register soloProvider ["gpt-4o"]) (soloRouting "fast") soloProviders =
      .ok _ := rfl
  refine ⟨_, accepted, ?_⟩
  obtain ⟨enough, answers⟩ := chat_answers_exact (soloEnv _) accepted fastCodec
    (delivers_bytes BodyError.eof fastText) request_fastText
  refine ⟨enough, fun fuel bound => ?_⟩
  obtain ⟨⟨out, st⟩, handled, _, _, _, sent, pairs⟩ := answers fuel bound
  obtain ⟨d, rfl⟩ := sent.mpr ⟨⟨by decide, by decide⟩, [(soloProvider, "gpt-4o")], rfl, _,
    List.mem_singleton_self _, rfl⟩
  obtain ⟨⟨_, found, member⟩, _, request⟩ := pairs d rfl
  cases found
  obtain ⟨_, model⟩ := Prod.mk.inj (List.mem_singleton.mp member)
  exact ⟨d, st, handled, by rw [request, model]⟩

end LlmGateway
