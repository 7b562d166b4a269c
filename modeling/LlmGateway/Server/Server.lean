import LlmGateway.Handler.Chat
import LlmGateway.Middleware.Auth

namespace LlmGateway

open Reader Lines

/-- `ratelimit.Reserver`. -/
structure Reserver where
  reserve : KeyInfo → Except String Reservation
  recordTokens : KeyInfo → Int → Except String Unit

/-- `Options`, as far as the route reads them, and whether the logger is at DEBUG. -/
structure Options where
  authenticator : Option (String → Except AuthError KeyInfo)
  rateLimiter : Option Reserver
  debugBodies : Bool
  debugLevel : Bool

/-- What a handler does to the response: the content type it sets and the calls it makes. -/
structure Handled where
  contentType : String
  calls : List HandlerCall

/-- The encoders, what becomes of the response of a provider, and the routing. -/
structure Server where
  encode : APIErr → List UInt8
  usage : List UInt8 → Option Int
  codec : RequestCodec
  respond : Dispatch → Handled
  env : RouteEnv

/-- The calls of `apierr.Write`. -/
def APIErr.handled (encode : APIErr → List UInt8) (err : APIErr) : Handled :=
  ⟨"application/json", [.writeHeader err.status, .write (encode err)]⟩

def Handled.run (handled : Handled) (w : ResponseWriter) : ResponseWriter :=
  handled.calls.foldl ResponseWriter.call { w with contentType := handled.contentType }

/-- The headers that `serve` has set, and what has been written behind them. -/
def Served.response : Served → Headers × ResponseWriter
  | .passed w | .failOpen _ w => ([], w)
  | .throttled headers w => (headers, w)
  | .allowed headers finished => (headers, finished.writer)

/-- What became of a request: the headers of the rate limiter and the response, the call
of a provider, the debug log and the strategies. -/
structure Answered where
  headers : Headers
  writer : ResponseWriter
  dispatched : Option Dispatch
  logged : List DebugLine
  strategies : StrategyState

namespace Options

/-- `RequireAPIKey`, if it is mounted: the key that is put into the context. -/
def identify (opts : Options) (header : String) : Except Rejection (Option KeyInfo) :=
  match opts.authenticator with
  | none => .ok none
  | some authenticate => (requireAPIKey authenticate header).map some

/-- The limiter is mounted, the key is known, and `Reserve` says no. -/
def throttles (opts : Options) (info : Option KeyInfo) : Bool :=
  match opts.rateLimiter, info with
  | some limiter, some key =>
    match limiter.reserve key with
    | .ok res => !res.allowed
    | .error _ => false
  | _, _ => false

/-- The headers of the reservation, if the limiter is mounted, the key is known and
`Reserve` answers. -/
def limitHeaders (opts : Options) (info : Option KeyInfo) : Headers :=
  match opts.rateLimiter, info with
  | some limiter, some key =>
    match limiter.reserve key with
    | .ok res => setRateLimitHeaders res
    | .error _ => []
  | _, _ => []

end Options

namespace Server

variable (srv : Server) (opts : Options)

/-- The middleware of `RateLimit`, if it is mounted, around a handler. -/
def rateLimited (info : Option KeyInfo) (handled : Handled) (w : ResponseWriter) : Headers × ResponseWriter :=
  match opts.rateLimiter with
  | none => ([], handled.run w)
  | some limiter =>
    (serve ⟨srv.encode, srv.usage, limiter.reserve, limiter.recordTokens⟩ info handled.calls
      { w with contentType := handled.contentType }).response

/-- The response of `HandleChatCompletion`. -/
def chat : Except APIErr Dispatch → Handled
  | .error err => err.handled srv.encode
  | .ok d => srv.respond d

/-- A request for the route. A body that is none is `http.NoBody`, which is at its end;
a panic is answered by `Recoverer`, behind the headers that are set by then. -/
def serveHTTP {σ : Type} (header : String) (read : Read σ UInt8 BodyError) (fuel : Nat) (body : Option σ)
    (w : ResponseWriter) : Option Answered :=
  match opts.identify header with
  | .error rejection => some ⟨[], (rejection.err.handled srv.encode).run w, none, [], srv.env.strategies⟩
  | .ok info =>
    if opts.throttles info then
      let (headers, writer) := srv.rateLimited opts info ⟨w.contentType, []⟩ w
      some ⟨headers, writer, none, [], srv.env.strategies⟩
    else
      match debugRequestBodies 0 (opts.debugBodies && opts.debugLevel) "/v1/chat/completions" read fuel body with
      | .reading => none
      | .panicked _ =>
        let (headers, _) := srv.rateLimited opts info ⟨w.contentType, []⟩ w
        some ⟨headers, w.writeHeader 500, none, [], srv.env.strategies⟩
      | .served logged body =>
        (handleChatCompletion srv.codec srv.env (HandlerBody.read read) fuel (body.getD (.buffered []))).map
          fun (out, strategies) =>
            let (headers, writer) := srv.rateLimited opts info (srv.chat out) w
            ⟨headers, writer, out.toOption, logged, strategies⟩

end Server

section Gates

variable {opts : Options} {header : String} {info : Option KeyInfo}

/-- The first gate lets a request in as one of this key, or of none. -/
def Options.Admits (opts : Options) (header : String) (info : Option KeyInfo) : Prop :=
  match opts.authenticator with
  | none => info = none
  | some authenticate => ∃ token key, Bearer header token ∧ authenticate token = .ok key ∧ info = some key

theorem identify_eq_ok : opts.identify header = .ok info ↔ opts.Admits header info := by
  unfold Options.identify Options.Admits
  split
  · exact ⟨fun same => (Except.ok.inj same).symm, congrArg _ ∘ Eq.symm⟩
  · rename_i authenticate _
    constructor
    · intro opened
      cases gate : requireAPIKey authenticate header with
      | error rejection =>
        rw [gate] at opened
        cases opened
      | ok key =>
        rw [gate] at opened
        cases opened
        obtain ⟨token, bearer, accepted⟩ := requireAPIKey_eq_ok gate
        exact ⟨token, key, bearer, accepted, rfl⟩
    · rintro ⟨token, key, bearer, accepted, rfl⟩
      rw [requireAPIKey_of_bearer bearer, accepted]
      rfl

/-- A request that is not throttled is answered as its handler answers it, behind the
headers of its reservation. -/
theorem Server.rateLimited_eq (srv : Server) (unthrottled : opts.throttles info = false) {handled : Handled}
    (final : ∀ c ∈ handled.calls, c.Final) (w : ResponseWriter) :
    srv.rateLimited opts info handled w = (opts.limitHeaders info, handled.run w) := by
  unfold Server.rateLimited
  split
  · rename_i unmounted
    simp only [Options.limitHeaders, unmounted]
  · rename_i limiter mounted
    cases info with
    | none => simp only [Options.limitHeaders, mounted, serve, Served.response, Handled.run]
    | some key =>
      cases reserved : limiter.reserve key with
      | error err => simp only [Options.limitHeaders, mounted, reserved, serve, Served.response, Handled.run]
      | ok res =>
        have allowed : res.allowed = true := by simpa [Options.throttles, mounted, reserved] using unthrottled
        obtain ⟨kept, same⟩ := (UsageCaptureWriter.consistent_wrap
          { w with contentType := handled.contentType }).calls final
        simp only [Options.limitHeaders, mounted, serve, reserved, allowed, Bool.not_true, Bool.false_eq_true, if_false,
          Served.response]
        rw [kept.finish, same]
        rfl

end Gates

section Body

variable {σ : Type} {read : Read σ UInt8 BodyError} {data : List UInt8}

/-- The body is complete and holds this. -/
def Complete (read : Read σ UInt8 BodyError) (data : List UInt8) : Option σ → Prop
  | none => data = []
  | some s => Delivers read .eof s data

/-- Whether or not bodies are logged, the handler reads the body that came. -/
theorem debugRequestBodies_complete (again : Repeats read .eof) {body : Option σ} (complete : Complete read data body)
    (enabled : Bool) (path : String) :
    ∃ enough logged body', (∀ fuel ≥ enough, debugRequestBodies 0 enabled path read fuel body = .served logged body') ∧
      Delivers (HandlerBody.read read) .eof (body'.getD (.buffered [])) data := by
  cases body with
  | none =>
    cases complete
    refine ⟨0, [], none, fun fuel _ => ?_, delivers_buffered []⟩
    cases enabled <;> rfl
  | some s =>
    have ends : Delivers read .eof s data := complete
    cases enabled with
    | false => exact ⟨0, [], some (.original s), fun fuel _ => rfl, delivers_original.mpr ends⟩
    | true =>
      have fits : debugLimit 0 < maxInt := debugLimit_lt (by decide)
      by_cases long : (debugLimit 0).toNat < data.length
      · obtain ⟨enough, e, rest, taken, left⟩ := readLoop_repeats again ends ((debugLimit 0).toNat + 1)
        have whole := (delivers_bytes BodyError.eof (data.take ((debugLimit 0).toNat + 1))).joined left
        rw [List.take_append_drop] at whole
        exact ⟨enough, _, _, fun fuel more => debugRequestBodies_full fits long (readLoop_mono more taken),
          delivers_restored.mpr whole⟩
      · obtain ⟨enough, e, rest, taken, outcome⟩ := readLoop_delivers ends ((debugLimit 0).toNat + 1)
        have failed : e = some .eof := by
          rcases outcome with ⟨enough, _, _⟩ | ⟨_, failed, _⟩
          · omega
          · exact failed
        rw [List.take_of_length_le (by omega), failed] at taken
        exact ⟨enough, _, _, fun fuel more => debugRequestBodies_short fits (by omega) (readLoop_mono more taken),
          delivers_buffered data⟩

/-- A request that has passed the gates is handled by what its body says. -/
theorem Server.serveHTTP_admitted (srv : Server) {opts : Options} {header : String} {info : Option KeyInfo}
    (admitted : opts.Admits header info) (unthrottled : opts.throttles info = false) (again : Repeats read .eof)
    {body : Option σ} (complete : Complete read data body) (w : ResponseWriter) :
    ∃ enough logged, ∀ fuel ≥ enough, srv.serveHTTP opts header read fuel body w =
      some ⟨(srv.rateLimited opts info (srv.chat (dispatch srv.env (srv.codec.request data .eof)).1) w).1,
        (srv.rateLimited opts info (srv.chat (dispatch srv.env (srv.codec.request data .eof)).1) w).2,
        (dispatch srv.env (srv.codec.request data .eof)).1.toOption, logged,
        (dispatch srv.env (srv.codec.request data .eof)).2⟩ := by
  obtain ⟨enough, logged, body', read', ends⟩ := debugRequestBodies_complete again complete
    (opts.debugBodies && opts.debugLevel) "/v1/chat/completions"
  obtain ⟨enough', handled⟩ := handleChatCompletion_delivers srv.codec srv.env ends
  refine ⟨enough + enough', logged, fun fuel more => ?_⟩
  simp only [serveHTTP, identify_eq_ok.mpr admitted, unthrottled, read' fuel (by omega), handled fuel (by omega)]
  rfl

theorem Server.serveHTTP_throttled (srv : Server) {opts : Options} {header : String} {info : Option KeyInfo}
    (admitted : opts.Admits header info) (closed : opts.throttles info = true) (fuel : Nat) (body : Option σ)
    (w : ResponseWriter) :
    ∃ headers w', srv.serveHTTP opts header read fuel body w = some ⟨headers, w', none, [], srv.env.strategies⟩ := by
  simp only [serveHTTP, identify_eq_ok.mpr admitted, closed, if_true]
  exact ⟨_, _, rfl⟩

theorem Server.serveHTTP_rejected (srv : Server) {opts : Options} {header : String}
    (rejected : ∀ info, ¬ opts.Admits header info) (fuel : Nat) (body : Option σ) (w : ResponseWriter) :
    ∃ headers w', srv.serveHTTP opts header read fuel body w = some ⟨headers, w', none, [], srv.env.strategies⟩ := by
  cases gate : opts.identify header with
  | ok info => exact absurd (identify_eq_ok.mp gate) (rejected info)
  | error rejection =>
    simp only [serveHTTP, gate]
    exact ⟨_, _, rfl⟩

end Body

section Route

variable {registry : Registry} {cfg : RoutingConfig} {env : RouteEnv} {d : Dispatch}

theorem dispatch_request_ok_iff (holds : env.router.Holds registry cfg) (decoded : Except DecodeError ChatRequest) :
    (∃ d, (dispatch env decoded).1.toOption = some d) ↔ ∃ req, decoded = .ok req ∧ req.Filled ∧ ∃ pairs,
      resolution registry cfg req.model = some pairs ∧ ∃ x ∈ pairs, env.breakers.admits env.now x.1 = true := by
  cases decoded with
  | error err => simp [dispatch, Except.toOption]
  | ok req =>
    simp only [Except.ok.injEq, exists_eq_left']
    rw [← dispatch_ok_iff holds]
    cases (dispatch env (.ok req)).1 <;> simp [Except.toOption]

/-- A request that is refused leaves the strategies as they are. -/
theorem dispatch_refused (holds : env.router.Holds registry cfg) {decoded : Except DecodeError ChatRequest}
    (refused : (dispatch env decoded).1.toOption = none) : (dispatch env decoded).2 = env.strategies := by
  cases decoded with
  | error err => rfl
  | ok req =>
    rcases dispatch_outcome holds req with
      ⟨_, _, out⟩ | ⟨_, _, out⟩ | ⟨_, _, out⟩ | ⟨_, _, _, _, _, _, _, out⟩
    · rw [out]
    · rw [out]
    · rw [out]
    · rw [out] at refused
      cases refused

/-- A provider is called iff the request passes both gates, its body holds a request with
a model and a message, and a provider of that name is admitted; it is called with that
request, under the model of a pair of that name. Otherwise the strategies stay as they
are, and what a gate has turned away is not logged. -/
theorem Server.provider_called_iff (srv : Server) {providers : StringMap ProviderConfig}
    (accepted : newRouter registry cfg providers = .ok srv.env.router) (opts : Options) (header : String) {σ : Type}
    {read : Read σ UInt8 BodyError} (again : Repeats read .eof) {body : Option σ} {data : List UInt8}
    (complete : Complete read data body) (w : ResponseWriter) :
    ∃ enough, ∀ fuel ≥ enough, ∃ ans, srv.serveHTTP opts header read fuel body w = some ans ∧
      ((∃ d, ans.dispatched = some d) ↔
        (∃ info, opts.Admits header info ∧ opts.throttles info = false) ∧
          ∃ req, srv.codec.request data .eof = .ok req ∧ req.Filled ∧
            ∃ pairs, resolution registry cfg req.model = some pairs ∧
              ∃ x ∈ pairs, srv.env.breakers.admits srv.env.now x.1 = true) ∧
      (∀ d, ans.dispatched = some d → ∃ req, srv.codec.request data .eof = .ok req ∧
        d.request = { req with model := d.request.model } ∧
          (∃ pairs, resolution registry cfg req.model = some pairs ∧ (d.provider, d.request.model) ∈ pairs) ∧
            srv.env.breakers.admits srv.env.now d.provider = true) ∧
      (ans.dispatched = none → ans.strategies = srv.env.strategies) ∧
      ((∀ info, opts.Admits header info → opts.throttles info = true) → ans.logged = []) := by
  have holds := Router.holds_of_newRouter accepted
  by_cases passed : ∃ info, opts.Admits header info ∧ opts.throttles info = false
  · obtain ⟨info, admitted, unthrottled⟩ := passed
    obtain ⟨enough, logged, served⟩ := srv.serveHTTP_admitted admitted unthrottled again complete w
    refine ⟨enough, fun fuel more => ⟨_, served fuel more, ?_, ?_, dispatch_refused holds, ?_⟩⟩
    · rw [dispatch_request_ok_iff holds]
      exact (and_iff_right ⟨info, admitted, unthrottled⟩).symm
    · intro d sent
      cases decoded : srv.codec.request data .eof with
      | error err => simp [decoded, dispatch, Except.toOption] at sent
      | ok req =>
        rw [decoded] at sent
        have forwarded : (dispatch srv.env (.ok req)).1 = .ok d := by
          cases out : (dispatch srv.env (.ok req)).1 with
          | error err => simp [out, Except.toOption] at sent
          | ok d' => simpa [out, Except.toOption] using sent
        obtain ⟨pair, up, same⟩ := dispatch_ok holds forwarded
        exact ⟨req, rfl, same, pair, up⟩
    · intro closed
      cases (closed info admitted).symm.trans unthrottled
  · have refused (fuel : Nat) :
        ∃ headers w', srv.serveHTTP opts header read fuel body w =
          some ⟨headers, w', none, [], srv.env.strategies⟩ := by
      by_cases known : ∃ info, opts.Admits header info
      · obtain ⟨info, admitted⟩ := known
        have closed : opts.throttles info = true := by
          by_contra unthrottled
          exact passed ⟨info, admitted, by simpa using unthrottled⟩
        exact srv.serveHTTP_throttled admitted closed fuel body w
      · exact srv.serveHTTP_rejected (not_exists.mp known) fuel body w
    refine ⟨0, fun fuel _ => ?_⟩
    obtain ⟨headers, w', served⟩ := refused fuel
    refine ⟨_, served, ?_, ?_, fun _ => rfl, fun _ => rfl⟩
    · simp [passed]
    · intro d sent
      cases sent

def soloKey : KeyInfo := ⟨"k", "org", "dev", 60, 0, [], none⟩

def mountedOptions : Options where
  authenticator := some fun token => if token = "sk-1" then .ok soloKey else .error .invalidKey
  rateLimiter := some ⟨fun _ => .ok { allowed := true, limit := 60, remaining := 59 }, fun _ _ => .ok ()⟩
  debugBodies := true
  debugLevel := true

/-- An empty object decodes to a usage of no tokens. -/
def soloServer (r : Router) : Server where
  encode := fun err => bytes ("\x7b\"error\":\x7b\"message\":" ++ err.message.quote ++ "\x7d\x7d")
  usage := fun body => if body = bytes "\x7b\x7d" then some 0 else none
  codec := fastCodec
  respond := fun _ => ⟨"application/json", [.write (bytes "\x7b\x7d")]⟩
  env := soloEnv r

theorem mountedOptions_admits : mountedOptions.Admits "Bearer sk-1" (some soloKey) :=
  ⟨"sk-1", soloKey, .of_bearerToken (by decide), rfl, rfl⟩

theorem fastText_complete : Complete (bytesRead BodyError.eof) fastText (some fastText) :=
  delivers_bytes BodyError.eof fastText

theorem provider_called_iff_mounted :
    ∃ r, newRouter (Registry.empty.register soloProvider ["gpt-4o"]) (soloRouting "fast") soloProviders = .ok r ∧
      ∃ enough, ∀ fuel ≥ enough, ∃ ans,
        (soloServer r).serveHTTP mountedOptions "Bearer sk-1" (bytesRead .eof) fuel (some fastText)
          ⟨"", true, [], none, []⟩ = some ans ∧ ∃ d, ans.dispatched = some d := by
  have accepted : newRouter (Registry.empty.register soloProvider ["gpt-4o"]) (soloRouting "fast") soloProviders =
      .ok _ := rfl
  refine ⟨_, accepted, ?_⟩
  obtain ⟨enough, called⟩ := (soloServer _).provider_called_iff accepted mountedOptions "Bearer sk-1"
    (repeats_bytes BodyError.eof) fastText_complete ⟨"", true, [], none, []⟩
  refine ⟨enough, fun fuel more => ?_⟩
  obtain ⟨ans, served, sent, _⟩ := called fuel more
  exact ⟨ans, served, sent.mpr ⟨⟨_, mountedOptions_admits, rfl⟩, _, request_fastText, ⟨by decide, by decide⟩,
    [(soloProvider, "gpt-4o")], rfl, _, List.mem_singleton_self _, rfl⟩⟩

theorem DecodeError.answer_final (err : DecodeError) : 200 ≤ err.answer.status := by
  cases err <;> simp [answer, invalidRequest]

theorem writeRouterError_final (modelName : String) (err : RouteError) :
    200 ≤ (writeRouterError modelName err).status := by
  cases err <;> simp [writeRouterError]

/-- What `HandleChatCompletion` answers itself is a final status. -/
theorem dispatch_error_final {decoded : Except DecodeError ChatRequest} {err : APIErr}
    (refused : (dispatch env decoded).1 = .error err) : 200 ≤ err.status := by
  cases decoded with
  | error failure =>
    cases refused
    exact failure.answer_final
  | ok req =>
    by_cases filled : req.Filled
    · rw [dispatch_of_filled filled] at refused
      split at refused
      · cases refused
        exact writeRouterError_final _ _
      · cases refused
    · obtain ⟨message, out⟩ := dispatch_of_not_filled filled
      cases (congrArg Prod.fst out).symm.trans refused
      simp [invalidRequest]

theorem Server.chat_final (srv : Server) (final : ∀ d, ∀ c ∈ (srv.respond d).calls, c.Final)
    (decoded : Except DecodeError ChatRequest) : ∀ c ∈ (srv.chat (dispatch srv.env decoded).1).calls, c.Final := by
  cases out : (dispatch srv.env decoded).1 with
  | ok d => exact final d
  | error err =>
    have status := dispatch_error_final out
    intro c member
    simp only [chat, APIErr.handled, List.mem_cons, List.not_mem_nil, or_false] at member
    rcases member with rfl | rfl
    · exact Int.ofNat_le.mpr status
    · trivial

/-- Whatever is mounted in front of the handler, a request that it lets through is
answered, forwarded and counted as without it, but for the headers of its reservation. -/
theorem Server.options_invisible (srv : Server) (final : ∀ d, ∀ c ∈ (srv.respond d).calls, c.Final) {opts : Options}
    {header : String} {info : Option KeyInfo} (admitted : opts.Admits header info)
    (unthrottled : opts.throttles info = false) {σ : Type} {read : Read σ UInt8 BodyError}
    (again : Repeats read .eof) {body : Option σ} {data : List UInt8} (complete : Complete read data body)
    (w : ResponseWriter) :
    ∃ enough, ∀ fuel ≥ enough, ∃ ans bare, srv.serveHTTP opts header read fuel body w = some ans ∧
      srv.serveHTTP ⟨none, none, false, false⟩ header read fuel body w = some bare ∧
        ans.headers = opts.limitHeaders info ∧ bare.headers = [] ∧ ans.writer = bare.writer ∧
        ans.dispatched = bare.dispatched ∧ ans.strategies = bare.strategies := by
  obtain ⟨enough, _, served⟩ := srv.serveHTTP_admitted admitted unthrottled again complete w
  have bare : Options.Admits ⟨none, none, false, false⟩ header none := rfl
  obtain ⟨enough', _, served'⟩ := srv.serveHTTP_admitted bare rfl again complete w
  have final' := srv.chat_final final (srv.codec.request data .eof)
  have limited := srv.rateLimited_eq unthrottled final' w
  refine ⟨enough + enough', fun fuel more => ⟨_, _, served fuel (by omega), served' fuel (by omega), ?_, rfl, ?_, rfl,
    rfl⟩⟩
  · rw [limited]
  · rw [limited]
    rfl

/-- The answer of the provider as it is without the gates, with the limit of the key. -/
theorem options_invisible_mounted :
    ∃ r, newRouter (Registry.empty.register soloProvider ["gpt-4o"]) (soloRouting "fast") soloProviders = .ok r ∧
      ∃ enough, ∀ fuel ≥ enough, ∃ ans bare,
        (soloServer r).serveHTTP mountedOptions "Bearer sk-1" (bytesRead .eof) fuel (some fastText)
          ⟨"", true, [], none, []⟩ = some ans ∧
        (soloServer r).serveHTTP ⟨none, none, false, false⟩ "Bearer sk-1" (bytesRead .eof) fuel (some fastText)
          ⟨"", true, [], none, []⟩ = some bare ∧
        ans.headers = [("X-RateLimit-Limit-Requests", "60"), ("X-RateLimit-Remaining-Requests", "59"),
          ("X-RateLimit-Reset-Requests", "0s")] ∧ bare.headers = [] ∧ ans.writer = bare.writer := by
  refine ⟨_, rfl, ?_⟩
  have final (r : Router) : ∀ d, ∀ c ∈ ((soloServer r).respond d).calls, c.Final := by
    simp [soloServer, HandlerCall.Final]
  obtain ⟨enough, same⟩ := (soloServer _).options_invisible (final _) mountedOptions_admits rfl
    (repeats_bytes BodyError.eof) fastText_complete ⟨"", true, [], none, []⟩
  refine ⟨enough, fun fuel more => ?_⟩
  obtain ⟨ans, bare, served, served', limited, unlimited, response, _⟩ := same fuel more
  exact ⟨ans, bare, served, served', limited.trans (by decide), unlimited, response⟩

end Route

end LlmGateway
