import PqcGateway.Machinery.Protocol
import PqcGateway.Proxy.Outcome

/-!
# Proxy/Pipeline — where a request stands

    fresh ─▸ configured ─▸ routed ─▸ passed ─▸ picked ─▸ admitted ─▸ ready ─▸ sent ─▸ told ─▸ …
                 ▾           ▾                   ▾          ▾
                404         429                 502        500

`proxyHandler` takes a request through phases, in one order: `Pipeline` says which call may be made
in a phase, with which arguments, and where its answer leads.  The handler never leaves it, whatever
it is answered (`follows_proxyHandler`), so a request that is still under way, or was dropped,
stands in a phase, and the phase says what the request has asked and told those it shares the
gateway with.

* `Pipeline` — one step: the phase, the call with its answer, and the next phase.
* `follows_proxyHandler` — the handler keeps to it, whatever it is answered.
-/

namespace PqcGateway

open Program

/-! ## Phases -/

/-- A request on its way: the configuration it is handled under, its route, the path it has there
and the upstream it was given. -/
structure Handling where
  config : GatewayConfig
  route : Route
  path : String
  upstream : String

/-- Where a request stands. -/
inductive HandlerPhase
  | fresh
  | configured (config : GatewayConfig)
  | unrouted
  | routed (config : GatewayConfig) (route : Route) (path : String)
  | throttled
  | throttledCounted
  | passed (config : GatewayConfig) (route : Route) (path : String)
  | picked (h : Handling)
  | refused (h : Handling)
  | refusedCounted (h : Handling)
  | admitted (h : Handling)
  | ready (h : Handling)
  | sent (h : Handling) (outcome : SendOutcome)
  | told (h : Handling) (outcome : SendOutcome)
  | failed (h : Handling) (outcome : SendOutcome)
  | timed (h : Handling) (outcome : SendOutcome) (durationMs : ℕ)
  | counted (h : Handling) (outcome : SendOutcome)
  | unread (h : Handling) (outcome : SendOutcome) (error : String)
  | unreadCounted (h : Handling) (outcome : SendOutcome) (error : String)
  | read (h : Handling) (outcome : SendOutcome) (body : List UInt8)
  | signed (h : Handling) (outcome : SendOutcome) (body : List UInt8)
  | answered (h : Handling) (outcome : SendOutcome) (body : List UInt8)

/-- What a request counts as with the rate limiter. -/
def ProxyRequest.limitKey (route : Route) (req : ProxyRequest) : RateLimitKey where
  routeId := route.id
  clientIp := (req.header "x-forwarded-for").getD "unknown"

/-- The upstream answered. -/
def SendOutcome.isResponse : SendOutcome → Bool
  | .response _ _ => true
  | _ => false

/-- The status that a request is counted with. -/
def SendOutcome.status : SendOutcome → ℕ
  | .response status _ => status
  | .failed _ => 502
  | .timedOut => 504

section

variable (X : HandlerCrates) (settings : SigningSettings) (req : ProxyRequest)

/-- **What the handler may do next.** -/
inductive Pipeline : Protocol (@HandlerCall.Answer X) HandlerPhase
  | loadConfig (config : GatewayConfig) : Pipeline .fresh ⟨.loadConfig, config⟩ (.configured config)
  | noRoute {config : GatewayConfig} (matcher : RouteMatcher)
    (hmatch : matcher.matchRoute X.unicode req.path req.method = none) :
    Pipeline (.configured config) ⟨.loadMatcher, matcher⟩ .unrouted
  | route {config : GatewayConfig} (matcher : RouteMatcher) {route : Route} {path : String}
    (hmatch : matcher.matchRoute X.unicode req.path req.method = some (route, path)) :
    Pipeline (.configured config) ⟨.loadMatcher, matcher⟩
      (if config.rateLimit.enabled then .routed config route path else .passed config route path)
  | allow {config : GatewayConfig} {route : Route} {path : String} :
    Pipeline (.routed config route path)
      ⟨.checkLimit (req.limitKey route) route.rateLimit, RateLimitResult.allowed⟩
      (.passed config route path)
  | throttle {config : GatewayConfig} {route : Route} {path : String} (after : F64) :
    Pipeline (.routed config route path)
      ⟨.checkLimit (req.limitKey route) route.rateLimit, RateLimitResult.limited after⟩ .throttled
  | countThrottled : Pipeline .throttled ⟨.metrics .rateLimitRejection, ()⟩ .throttledCounted
  | pick {config : GatewayConfig} {route : Route} {path : String} (upstream : String) :
    Pipeline (.passed config route path) ⟨.nextUpstream route.upstreams, upstream⟩
      (if config.circuitBreaker.enabled then .picked ⟨config, route, path, upstream⟩
        else .admitted ⟨config, route, path, upstream⟩)
  | letIn {h : Handling} (checked : Except CircuitState Unit) (hadmits : checked ≠ .error .opened) :
    Pipeline (.picked h) ⟨.checkRequest h.upstream, checked⟩ (.admitted h)
  | refuse {h : Handling} : Pipeline (.picked h)
      ⟨.checkRequest h.upstream, (.error .opened : Except CircuitState Unit)⟩ (.refused h)
  | countRefused {h : Handling} :
    Pipeline (.refused h) ⟨.metrics .circuitBreakerRejection, ()⟩ (.refusedCounted h)
  | client {h : Handling} (found : Option (HttpsConnector X.tls)) :
    Pipeline (.admitted h) ⟨.mtlsClient h.route.id, found⟩ (.ready h)
  | send {h : Handling} {uri : X.Uri} (client : UpstreamClient X.tls)
    (huri : X.parseUri (upstreamUri h.upstream h.path req.query) = .ok uri)
    (outcome : SendOutcome) :
    Pipeline (.ready h)
      ⟨.send client h.route.timeoutMs (upstreamRequest X h.route uri req), outcome⟩
      (if h.config.circuitBreaker.enabled then .sent h outcome else .told h outcome)
  | tellSuccess {h : Handling} {outcome : SendOutcome} (hverdict : outcome.verdict = .success) :
    Pipeline (.sent h outcome) ⟨.recordSuccess h.upstream, ()⟩ (.told h outcome)
  | tellFailure {h : Handling} {outcome : SendOutcome} (hverdict : outcome.verdict = .failure) :
    Pipeline (.sent h outcome) ⟨.recordFailure h.upstream, ()⟩ (.told h outcome)
  | countFailure {h : Handling} {outcome : SendOutcome} (hfailed : outcome.isResponse = false) :
    Pipeline (.told h outcome) ⟨.metrics .upstreamFailure, ()⟩ (.failed h outcome)
  | timeResponse {h : Handling} {outcome : SendOutcome} (durationMs : ℕ)
    (hresponse : outcome.isResponse = true) :
    Pipeline (.told h outcome) ⟨.elapsedMs, durationMs⟩ (.timed h outcome durationMs)
  | timeFailure {h : Handling} {outcome : SendOutcome} (durationMs : ℕ) :
    Pipeline (.failed h outcome) ⟨.elapsedMs, durationMs⟩ (.timed h outcome durationMs)
  | count {h : Handling} {outcome : SendOutcome} {durationMs : ℕ} :
    Pipeline (.timed h outcome durationMs)
      ⟨.metrics (.request h.route.id req.method outcome.status durationMs), ()⟩ (.counted h outcome)
  | readError {h : Handling} {outcome : SendOutcome} (error : String)
    (hresponse : outcome.isResponse = true) :
    Pipeline (.counted h outcome)
      ⟨.readBody, (.error error : Except String (List UInt8))⟩ (.unread h outcome error)
  | read {h : Handling} {outcome : SendOutcome} (body : List UInt8)
    (hresponse : outcome.isResponse = true) :
    Pipeline (.counted h outcome)
      ⟨.readBody, (.ok body : Except String (List UInt8))⟩ (.read h outcome body)
  | countUnread {h : Handling} {outcome : SendOutcome} {error : String} :
    Pipeline (.unread h outcome error)
      ⟨.metrics .upstreamFailure, ()⟩ (.unreadCounted h outcome error)
  | sign {h : Handling} {outcome : SendOutcome} {body : List UInt8}
    (output : Option SignatureOutput) :
    Pipeline (.read h outcome body)
      ⟨.sign (SignatureMode.resolve X.unicode settings.envSignatureMode h.route.signatureMode
        settings.defaultSignatureMode) body, output⟩ (.signed h outcome body)
  | signBody {h : Handling} {outcome : SendOutcome} {body : List UInt8}
    (headers signed : HeaderMap) :
    Pipeline (.signed h outcome body) ⟨.signBody body headers, signed⟩ (.answered h outcome body)

/-- **The answer a request gets where it stands.** -/
def HandlerPhase.Answers : HandlerPhase → HandlerAnswer → Prop
  | .unrouted, answer => answer = .error .noRouteMatch none
  | .routed .., answer => ∃ max, answer = .error (.bodyTooLarge max) none
  | .passed .., answer => ∃ max, answer = .error (.bodyTooLarge max) none
  | .throttledCounted, answer => ∃ retryAfter, answer = .error .rateLimited retryAfter
  | .refusedCounted _, answer => answer = .error (.upstreamConnection
      "circuit breaker open: upstream temporarily unavailable") none
  | .admitted h, answer => ∃ e, X.parseUri (upstreamUri h.upstream h.path req.query) = .error e ∧
      answer = .error (.internal ("bad upstream URI: " ++ e)) none
  | .counted _ (.failed e), answer => answer = .error (.upstreamConnection e) none
  | .counted h .timedOut, answer => answer = .error (.upstreamTimeout
      ("timeout after " ++ toString h.route.timeoutMs ++ "ms")) none
  | .unreadCounted _ _ e, answer => answer = .error (.upstreamConnection e) none
  | .answered _ outcome body, answer =>
    ∃ headers, answer = .response ⟨outcome.status, headers, body⟩
  | _, _ => False

end

/-! ## The handler keeps to them

One case for each stage, where the phase says what its calls may be. -/

section

variable {X : HandlerCrates} {settings : SigningSettings} {req : ProxyRequest}
  {config : GatewayConfig} {route : Route} {path : String} {h : Handling} {outcome : SendOutcome}

theorem follows_answerResponse {status : ℕ} {headers : HeaderMap}
    (houtcome : outcome = .response status headers) :
    (answerResponse X (SignatureMode.resolve X.unicode settings.envSignatureMode
      h.route.signatureMode settings.defaultSignatureMode) status headers).Follows
      (Pipeline X settings req) (HandlerPhase.Answers X req) (.counted h outcome) := by
  subst houtcome
  intro body
  cases body with
  | error e => exact ⟨_, .readError e rfl, fun _ => ⟨_, .countUnread, rfl⟩⟩
  | ok body =>
    exact ⟨_, .read body rfl, fun output => ⟨_, .sign output, fun signed =>
      ⟨_, .signBody _ signed, ⟨signed, rfl⟩⟩⟩⟩

theorem follows_recordFailure (hverdict : outcome.verdict = .failure) :
    (recordFailure X h.config h.upstream).Follows (Pipeline X settings req)
      (fun phase _ => phase = .told h outcome)
      (if h.config.circuitBreaker.enabled then .sent h outcome else .told h outcome) := by
  unfold recordFailure
  split
  · exact fun _ => ⟨_, .tellFailure hverdict, rfl⟩
  · exact rfl

theorem follows_recordStatus {status : ℕ} {headers : HeaderMap}
    (houtcome : outcome = .response status headers) :
    (recordStatus X h.config h.upstream status).Follows (Pipeline X settings req)
      (fun phase _ => phase = .told h outcome)
      (if h.config.circuitBreaker.enabled then .sent h outcome else .told h outcome) := by
  subst houtcome
  unfold recordStatus
  split
  · exact follows_recordFailure (by simp_all [SendOutcome.verdict])
  · unfold recordSuccess
    split
    · exact fun _ => ⟨_, .tellSuccess (by simp_all [SendOutcome.verdict]), rfl⟩
    · exact rfl

theorem follows_answerFailure (outcome : SendOutcome) {error : GatewayError}
    (hverdict : outcome.verdict = .failure) (hfailed : outcome.isResponse = false)
    (hanswer : HandlerPhase.Answers X req (.counted h outcome) (.error error none)) :
    (answerFailure X h.config h.route h.upstream req.method outcome.status error).Follows
      (Pipeline X settings req) (HandlerPhase.Answers X req)
      (if h.config.circuitBreaker.enabled then .sent h outcome else .told h outcome) := by
  refine (follows_recordFailure hverdict).bind ?_
  rintro _ _ rfl
  exact fun _ => ⟨_, .countFailure hfailed, fun durationMs => ⟨_, .timeFailure durationMs,
    fun _ => ⟨_, .count, hanswer⟩⟩⟩

theorem follows_settle :
    (settle X (SignatureMode.resolve X.unicode settings.envSignatureMode h.route.signatureMode
      settings.defaultSignatureMode) h.config h.route h.upstream req.method outcome).Follows
      (Pipeline X settings req) (HandlerPhase.Answers X req)
      (if h.config.circuitBreaker.enabled then .sent h outcome else .told h outcome) := by
  cases outcome with
  | response status headers =>
    refine (follows_recordStatus rfl).bind ?_
    rintro _ _ rfl
    exact fun durationMs => ⟨_, .timeResponse durationMs rfl, fun _ => ⟨_, .count,
      follows_answerResponse rfl⟩⟩
  | failed e => exact follows_answerFailure (.failed e) rfl rfl rfl
  | timedOut => exact follows_answerFailure .timedOut rfl rfl rfl

theorem follows_forward :
    (forward X settings h.config h.route h.upstream h.path req).Follows (Pipeline X settings req)
      (HandlerPhase.Answers X req) (.admitted h) := by
  unfold forward
  cases hparse : X.parseUri (upstreamUri h.upstream h.path req.query) with
  | error e => exact ⟨e, hparse, rfl⟩
  | ok uri =>
    exact fun found => ⟨_, .client found, fun outcome =>
      ⟨_, .send _ hparse outcome, follows_settle⟩⟩

theorem follows_limitRequest (path : String) :
    (limitRequest X config route req).Follows (Pipeline X settings req)
      (fun phase limited => match limited with
        | .error refused => HandlerPhase.Answers X req phase refused
        | .ok () => phase = .passed config route path)
      (if config.rateLimit.enabled then .routed config route path
        else .passed config route path) := by
  unfold limitRequest
  split
  · intro result
    cases result with
    | allowed => exact ⟨_, .allow, rfl⟩
    | limited after => exact ⟨_, .throttle after, fun _ => ⟨_, .countThrottled, ⟨_, rfl⟩⟩⟩
  · exact rfl

theorem follows_admitRequest (path : String) :
    (admitRequest X config route).Follows (Pipeline X settings req)
      (fun phase result => match result with
        | .error refused => HandlerPhase.Answers X req phase refused
        | .ok upstream => phase = .admitted ⟨config, route, path, upstream⟩)
      (.passed config route path) := by
  refine follows_call_bind_iff.mpr fun upstream => ⟨_, .pick upstream, ?_⟩
  split
  · refine follows_call_bind_iff.mpr fun checked => ?_
    split
    · exact ⟨_, .refuse, fun _ => ⟨_, .countRefused, rfl⟩⟩
    · rename_i hadmits
      exact ⟨_, .letIn checked hadmits, rfl⟩
  · exact rfl

/-- **A matched request goes through the phases.** -/
theorem follows_handleMatched :
    (handleMatched X settings config route path req).Follows (Pipeline X settings req)
      (HandlerPhase.Answers X req)
      (if config.rateLimit.enabled then .routed config route path
        else .passed config route path) := by
  unfold handleMatched
  dsimp only
  split
  · split <;> exact ⟨_, rfl⟩
  · refine (follows_limitRequest path).bind fun phase limited hlimited => ?_
    match limited with
    | .error refused => exact hlimited
    | .ok () =>
      obtain rfl := hlimited
      refine (follows_admitRequest path).bind fun phase result hresult => ?_
      match result with
      | .error refused => exact hresult
      | .ok upstream =>
        obtain rfl := hresult
        exact follows_forward (h := ⟨config, route, path, upstream⟩)

/-- **Every request goes through the phases**, whatever its calls are answered. -/
theorem follows_proxyHandler :
    (proxyHandler X settings req).Follows (Pipeline X settings req) (HandlerPhase.Answers X req)
      .fresh := by
  refine follows_call_bind_iff.mpr fun config => ⟨_, .loadConfig config, ?_⟩
  refine follows_call_bind_iff.mpr fun matcher => ?_
  split
  · exact ⟨_, .noRoute matcher ‹_›, rfl⟩
  · exact ⟨_, .route matcher ‹_›, follows_handleMatched⟩

end

end PqcGateway
