import PqcGateway.Auth.Middleware
import PqcGateway.Machinery.Program
import PqcGateway.Proxy.State
import PqcGateway.Response.Coherence

/-!
# Proxy/Handler — what becomes of a request

    route ─▸ body size ─▸ rate limit ─▸ load balancer ─▸ circuit breaker ─▸ upstream ─▸ signatures

`proxyHandler` is the handler of a request as a program: what it reads from the state that requests
share, what it tells the circuit breaker and the metrics, and what it sends upstream are its calls.
Whoever answers them, other requests and reloads in between included, a run of the handler is a run
of this program; a request that is dropped before it is answered is none.

* `handleMatched_cases`, `forward_cases` — what a request goes through before it is forwarded, and
  from then on.
* `forward_of_admitted`, `sent_cases` — a request goes to the upstream that admitted it, with the
  client looked up for its route; `sent_of_select` — as the state selects.
* `response_of_answerResponse` — its response is the one that `signResponse` signs.
-/

namespace PqcGateway

open Program

/-! ## Requests and answers -/

/-- What the handler takes from crates.  An error of the URI parser is the text it displays as. -/
structure HandlerCrates extends ResponseCrates where
  tls : TlsCrates
  unicode : CaseMap
  Uri : Type
  parseUri : String → Except String Uri

/-- A request to the gateway. -/
structure ProxyRequest where
  method : String
  path : String
  query : Option String
  headers : HeaderMap
  body : List UInt8

/-- A request to an upstream. -/
structure UpstreamRequest (X : HandlerCrates) where
  method : String
  uri : X.Uri
  headers : HeaderMap
  body : List UInt8

/-- What a request that is sent comes to within its timeout. -/
inductive SendOutcome
  | response (status : ℕ) (headers : HeaderMap)
  | failed (error : String)
  | timedOut

inductive GatewayError
  | upstreamConnection (message : String)
  | upstreamTimeout (message : String)
  | noRouteMatch
  | methodNotAllowed
  | internal (message : String)
  | rateLimited
  | bodyTooLarge (max : ℕ)
  | unauthorized (message : String)
deriving DecidableEq, Repr

/-- `GatewayError::into_response`: the status, and the message in the body. -/
def GatewayError.intoResponse : GatewayError → ℕ × String
  | .upstreamConnection message => (502, message)
  | .upstreamTimeout message => (504, message)
  | .noRouteMatch => (404, "not found")
  | .methodNotAllowed => (405, "method not allowed")
  | .internal message => (500, message)
  | .rateLimited => (429, "rate limit exceeded")
  | .bodyTooLarge max => (413, "request body exceeds " ++ toString max ++ " byte limit")
  | .unauthorized message => (401, message)

/-- What the client is answered: a response that came from upstream, or an error and the
`retry-after` header. -/
inductive HandlerAnswer
  | response (response : HttpResponse)
  | error (error : GatewayError) (retryAfter : Option String)

/-! ## The calls -/

/-- What the handler counts. -/
inductive MetricsRecord
  | rateLimitRejection
  | circuitBreakerRejection
  | upstreamFailure
  | request (routeId method : String) (status durationMs : ℕ)
deriving DecidableEq, Repr

/-- A call of the handler to what requests share, to its timer or to the upstream. -/
inductive HandlerCall (X : HandlerCrates)
  | loadConfig
  | loadMatcher
  | checkLimit (key : RateLimitKey) (routeLimit : Option (ℕ × ℕ))
  | nextUpstream (upstreams : List String)
  | checkRequest (upstream : String)
  | mtlsClient (routeId : String)
  | send (client : UpstreamClient X.tls) (timeoutMs : ℕ) (req : UpstreamRequest X)
  | recordSuccess (upstream : String)
  | recordFailure (upstream : String)
  | elapsedMs
  | metrics (record : MetricsRecord)
  | readBody
  | sign (mode : SignatureMode) (body : List UInt8)
  | signBody (body : List UInt8) (headers : HeaderMap)

/-- What the call is answered with. -/
abbrev HandlerCall.Answer {X : HandlerCrates} : HandlerCall X → Type
  | .loadConfig => GatewayConfig
  | .loadMatcher => RouteMatcher
  | .checkLimit _ _ => RateLimitResult
  | .nextUpstream _ => String
  | .checkRequest _ => Except CircuitState Unit
  | .mtlsClient _ => Option (HttpsConnector X.tls)
  | .send _ _ _ => SendOutcome
  | .recordSuccess _ => Unit
  | .recordFailure _ => Unit
  | .elapsedMs => ℕ
  | .metrics _ => Unit
  | .readBody => Except String (List UInt8)
  | .sign _ _ => Option SignatureOutput
  | .signBody _ _ => HeaderMap

/-- A program of the handler. -/
abbrev Handler (X : HandlerCrates) : Type → Type := Program (@HandlerCall.Answer X)

/-- The exchanges of a handler. -/
abbrev HandlerTrace (X : HandlerCrates) : Type := List (Exchange (@HandlerCall.Answer X))

/-- A call of the handler. -/
abbrev ask {X : HandlerCrates} (c : HandlerCall X) : Handler X c.Answer := Program.call c

/-- The fields of `ProxyState` that are set once and decide how responses are signed. -/
structure SigningSettings where
  envSignatureMode : Option String
  defaultSignatureMode : SignatureMode

/-! ## The handler -/

/-- `StatusCode::is_server_error`. -/
def isServerError (status : ℕ) : Bool := 500 ≤ status && status < 600

/-- A header that is there, as text. -/
def ProxyRequest.header (name : String) (req : ProxyRequest) : Option String :=
  (req.headers.first name).bind headerToStr

section

variable (X : HandlerCrates)

/-- Record a success with the circuit breaker, if that is on. -/
def recordSuccess (config : GatewayConfig) (upstream : String) : Handler X Unit :=
  if config.circuitBreaker.enabled then ask (.recordSuccess upstream) else pure ()

/-- Record a failure with the circuit breaker, if that is on. -/
def recordFailure (config : GatewayConfig) (upstream : String) : Handler X Unit :=
  if config.circuitBreaker.enabled then ask (.recordFailure upstream) else pure ()

/-- Record circuit breaker success/failure based on status. -/
def recordStatus (config : GatewayConfig) (upstream : String) (status : ℕ) : Handler X Unit :=
  if isServerError status then recordFailure X config upstream
  else recordSuccess X config upstream

/-- Read the body of the upstream's response and sign it. -/
def answerResponse (mode : SignatureMode) (status : ℕ) (headers : HeaderMap) :
    Handler X HandlerAnswer := do
  match ← ask .readBody with
  | .error e =>
    ask (.metrics .upstreamFailure)
    pure (.error (.upstreamConnection e) none)
  | .ok body =>
    let sigOutput ← ask (.sign mode body)
    let headers := match sigOutput with
      | some output => setSignatureHeaders X.toResponseCrates output headers
      | none => headers
    -- Also sign with versioned key manager (ML-DSA-65 only)
    let headers ← ask (.signBody body headers)
    pure (.response { status, headers, body })

/-- Record a failure and answer with it; it counts with the status it is answered with. -/
def answerFailure (config : GatewayConfig) (route : Route) (upstreamBase method : String)
    (status : ℕ) (error : GatewayError) : Handler X HandlerAnswer := do
  recordFailure X config upstreamBase
  ask (.metrics .upstreamFailure)
  let durationMs ← ask .elapsedMs
  ask (.metrics (.request route.id method status durationMs))
  pure (.error error none)

/-- What is made of the outcome of a request that was sent. -/
def settle (mode : SignatureMode) (config : GatewayConfig) (route : Route)
    (upstreamBase method : String) : SendOutcome → Handler X HandlerAnswer
  | .response status headers => do
    recordStatus X config upstreamBase status
    let durationMs ← ask .elapsedMs
    ask (.metrics (.request route.id method status durationMs))
    answerResponse X mode status headers
  | .failed e => answerFailure X config route upstreamBase method 502 (.upstreamConnection e)
  | .timedOut => answerFailure X config route upstreamBase method 504
      (.upstreamTimeout ("timeout after " ++ toString route.timeoutMs ++ "ms"))

/-- The URI a request is sent to. -/
def upstreamUri (upstreamBase upstreamPath : String) (query : Option String) : String :=
  upstreamBase ++ upstreamPath ++ (query.map fun q => "?" ++ q).getD ""

/-- The request as it is sent, with the forwarding headers. -/
def upstreamRequest (route : Route) (uri : X.Uri) (req : ProxyRequest) : UpstreamRequest X :=
  let requestId := (req.header "x-request-id").getD "-"
  let headers := setHeader X.isHeaderValue "x-request-id" requestId req.headers
  let proto := if route.upstreamTls then "https" else "http"
  let headers := setHeader X.isHeaderValue "x-forwarded-proto" proto headers
  { method := req.method
    uri
    headers := headers.remove "host"
    body := req.body }

/-- Use mTLS client if configured for this route, otherwise standard client. -/
def upstreamClient (route : Route) (mtlsClient : Option (HttpsConnector X.tls)) :
    UpstreamClient X.tls :=
  match mtlsClient with
  | some connector => .mtls connector
  | none => if route.upstreamTls then .https else .http

/-- Send an admitted request to its upstream. -/
def forward (settings : SigningSettings) (config : GatewayConfig) (route : Route)
    (upstreamBase upstreamPath : String) (req : ProxyRequest) : Handler X HandlerAnswer :=
  let mode := SignatureMode.resolve X.unicode settings.envSignatureMode route.signatureMode
    settings.defaultSignatureMode
  match X.parseUri (upstreamUri upstreamBase upstreamPath req.query) with
  | .error e => pure (.error (.internal ("bad upstream URI: " ++ e)) none)
  | .ok uri => do
    let mtlsClient ← ask (.mtlsClient route.id)
    let outcome ← ask (.send (upstreamClient X route mtlsClient) route.timeoutMs
      (upstreamRequest X route uri req))
    settle X mode config route upstreamBase req.method outcome

/-- The `retry-after` header. -/
def retryAfterHeader (retryAfterSecs : F64) : Option String :=
  let value := toString retryAfterSecs.ceilU64
  if X.isHeaderValue value then some value else none

/-- Rate limiting: the answer to a request that is refused. -/
def limitRequest (config : GatewayConfig) (route : Route) (req : ProxyRequest) :
    Handler X (Except HandlerAnswer Unit) :=
  if config.rateLimit.enabled then do
    let key : RateLimitKey :=
      { routeId := route.id
        clientIp := (req.header "x-forwarded-for").getD "unknown" }
    match ← ask (.checkLimit key route.rateLimit) with
    | .allowed => pure (.ok ())
    | .limited retryAfterSecs =>
      ask (.metrics .rateLimitRejection)
      pure (.error (.error .rateLimited (retryAfterHeader X retryAfterSecs)))
  else pure (.ok ())

/-- Load-balance and ask the circuit breaker: the upstream, or the answer to a request that is
refused. -/
def admitRequest (config : GatewayConfig) (route : Route) :
    Handler X (Except HandlerAnswer String) := do
  let upstreamBase ← ask (.nextUpstream route.upstreams)
  if config.circuitBreaker.enabled then
    match ← ask (.checkRequest upstreamBase) with
    | .error .opened =>
      ask (.metrics .circuitBreakerRejection)
      pure (.error (.error (.upstreamConnection
        "circuit breaker open: upstream temporarily unavailable") none))
    | _ => pure (.ok upstreamBase)
  else pure (.ok upstreamBase)

/-- Handle a request that a route matches. -/
def handleMatched (settings : SigningSettings) (config : GatewayConfig) (route : Route)
    (upstreamPath : String) (req : ProxyRequest) : Handler X HandlerAnswer := do
  let maxBody := route.maxRequestBodyBytes.getD config.server.maxRequestBodyBytes
  if ((req.header "content-length").bind Text.parseU64).any (maxBody < ·) then
    pure (.error (.bodyTooLarge maxBody) none)
  else
    match ← limitRequest X config route req with
    | .error refused => pure refused
    | .ok () =>
      match ← admitRequest X config route with
      | .error refused => pure refused
      | .ok upstreamBase => forward X settings config route upstreamBase upstreamPath req

/-- Standard proxy handler for non-WebSocket requests. -/
def proxyHandler (settings : SigningSettings) (req : ProxyRequest) : Handler X HandlerAnswer := do
  let config ← ask .loadConfig
  let matcher ← ask .loadMatcher
  match matcher.matchRoute X.unicode req.path req.method with
  | none => pure (.error .noRouteMatch none)
  | some (route, upstreamPath) => handleMatched X settings config route upstreamPath req

end

/-! ## The stages

A stage makes some kinds of calls only, so what a run of it cannot contain is decided by the kind.
-/

/-- A stage of the handler that makes calls. -/
inductive HandlerStage
  | routing
  | limiting
  | admission
  | forwarding
  | settling
deriving DecidableEq, Repr

/-- The stages that make the call. -/
@[simp] def HandlerCall.stages {X : HandlerCrates} : HandlerCall X → List HandlerStage
  | .loadConfig | .loadMatcher => [.routing]
  | .checkLimit _ _ => [.limiting]
  | .nextUpstream _ | .checkRequest _ => [.admission]
  | .metrics _ => [.limiting, .admission, .settling]
  | .mtlsClient _ | .send _ _ _ => [.forwarding]
  | .recordSuccess _ | .recordFailure _ | .elapsedMs | .readBody | .sign _ _ | .signBody _ _ =>
    [.settling]

/-- The calls of a stage. -/
def HandlerStage.calls (X : HandlerCrates) (stage : HandlerStage) : Set (HandlerCall X) :=
  { c | stage ∈ c.stages }

section

variable {X : HandlerCrates} {settings : SigningSettings} {config : GatewayConfig} {route : Route}
  {upstreamBase upstreamPath : String} {req : ProxyRequest}

@[simp] theorem mem_calls {stage : HandlerStage} {c : HandlerCall X} :
    c ∈ stage.calls X ↔ stage ∈ c.stages := Iff.rfl

theorem makes_limitRequest :
    (limitRequest X config route req).Makes (HandlerStage.limiting.calls X) := by
  unfold limitRequest
  split
  · refine makes_call_bind_iff.mpr ⟨by simp, ?_⟩
    rintro (_ | retryAfterSecs) <;> simp
  · exact makes_pure _

theorem makes_recordFailure :
    (recordFailure X config upstreamBase).Makes (HandlerStage.settling.calls X) := by
  unfold recordFailure
  split <;> simp

theorem makes_recordStatus {status : ℕ} :
    (recordStatus X config upstreamBase status).Makes (HandlerStage.settling.calls X) := by
  unfold recordStatus recordSuccess
  split_ifs <;> simp [makes_recordFailure]

theorem makes_answerResponse {mode : SignatureMode} {status : ℕ} {headers : HeaderMap} :
    (answerResponse X mode status headers).Makes (HandlerStage.settling.calls X) := by
  refine makes_call_bind_iff.mpr ⟨by simp, ?_⟩
  rintro (e | body) <;> simp

theorem makes_answerFailure {method : String} {status : ℕ} {error : GatewayError} :
    (answerFailure X config route upstreamBase method status error).Makes
      (HandlerStage.settling.calls X) :=
  makes_recordFailure.bind fun _ => by simp

theorem makes_settle {mode : SignatureMode} {method : String} (outcome : SendOutcome) :
    (settle X mode config route upstreamBase method outcome).Makes
      (HandlerStage.settling.calls X) := by
  cases outcome with
  | response status headers =>
    refine makes_recordStatus.bind fun _ => ?_
    simp [makes_answerResponse]
  | failed e => exact makes_answerFailure
  | timedOut => exact makes_answerFailure

theorem makes_forward : (forward X settings config route upstreamBase upstreamPath req).Makes
    (HandlerStage.forwarding.calls X ∪ HandlerStage.settling.calls X) := by
  dsimp only [forward]
  split
  · exact makes_pure _
  · refine makes_call_bind_iff.mpr ⟨.inl (by simp), fun mtlsClient => ?_⟩
    refine makes_call_bind_iff.mpr ⟨.inl (by simp), fun outcome => ?_⟩
    exact (makes_settle outcome).mono Set.subset_union_right

theorem makes_admitRequest :
    (admitRequest X config route).Makes (HandlerStage.admission.calls X) := by
  refine makes_call_bind_iff.mpr ⟨by simp, fun upstreamBase => ?_⟩
  split
  · refine makes_call_bind_iff.mpr ⟨by simp, fun result => ?_⟩
    split <;> simp
  · exact makes_pure _

/-! ## Admitted requests -/

variable {tr : HandlerTrace X} {answer : HandlerAnswer}

/-- **The upstream is the one that admitted the request.** -/
theorem admits_of_checkRequest {result : Except HandlerAnswer String} {upstream : String}
    {checked : Except CircuitState Unit} (hrun : (admitRequest X config route).Runs tr result)
    (hcheck : ⟨.checkRequest upstream, checked⟩ ∈ tr) (hopen : checked ≠ .error .opened) :
    config.circuitBreaker.enabled = true ∧ result = .ok upstream := by
  obtain ⟨upstreamBase, tr, rfl, hrest⟩ := runs_call_bind_iff.mp hrun
  replace hcheck := (List.mem_cons.mp hcheck).resolve_left nofun
  split at hrest
  · obtain ⟨checked', tr, rfl, hanswered⟩ := runs_call_bind_iff.mp hrest
    split at hanswered
    · obtain ⟨_, tr, rfl, hdone⟩ := runs_call_bind_iff.mp hanswered
      obtain ⟨rfl, -⟩ := runs_pure_iff.mp hdone
      replace hcheck := (List.mem_cons.mp hcheck).resolve_right (by simp)
      cases hcheck
      exact absurd rfl hopen
    · obtain ⟨rfl, hresult⟩ := runs_pure_iff.mp hanswered
      cases List.mem_singleton.mp hcheck
      exact ⟨‹_›, hresult⟩
  · obtain ⟨rfl, -⟩ := runs_pure_iff.mp hrest
    exact absurd hcheck List.not_mem_nil

/-- **What a matched request goes through**: its size and its rate are limited, and if they are in
the limits it is admitted, or refused, and if it is admitted it is forwarded. -/
theorem handleMatched_cases
    (hrun : (handleMatched X settings config route upstreamPath req).Runs tr answer) :
    (∀ e ∈ tr, e.1 ∈ HandlerStage.limiting.calls X) ∨
    ∃ limits admission result rest, tr = limits ++ (admission ++ rest) ∧
      (∀ e ∈ limits, e.1 ∈ HandlerStage.limiting.calls X) ∧
      (admitRequest X config route).Runs admission result ∧
      (∀ refused, result = .error refused → rest = [] ∧ answer = refused) ∧
      ∀ upstreamBase, result = .ok upstreamBase →
        (forward X settings config route upstreamBase upstreamPath req).Runs rest answer := by
  dsimp only [handleMatched] at hrun
  split at hrun
  · obtain ⟨rfl, -⟩ := runs_pure_iff.mp hrun
    exact .inl fun e he => absurd he List.not_mem_nil
  · obtain ⟨limits, limited, tr, rfl, hlimits, hlimited⟩ := runs_bind_iff.mp hrun
    have hmem := hlimits.mem_of_makes makes_limitRequest
    split at hlimited
    · obtain ⟨rfl, -⟩ := runs_pure_iff.mp hlimited
      rw [List.append_nil]
      exact .inl hmem
    · obtain ⟨admission, result, rest, rfl, hasked, hresult⟩ := runs_bind_iff.mp hlimited
      refine .inr ⟨limits, admission, result, rest, rfl, hmem, hasked, ?_, ?_⟩
      · rintro refused rfl
        exact runs_pure_iff.mp hresult
      · rintro upstreamBase rfl
        exact hresult

/-- **What an admitted request goes through**: it is sent, if its URI parses, and what comes of that
is settled. -/
theorem forward_cases
    (hrun : (forward X settings config route upstreamBase upstreamPath req).Runs tr answer) :
    (∃ e, X.parseUri (upstreamUri upstreamBase upstreamPath req.query) = .error e ∧ tr = [] ∧
      answer = .error (.internal ("bad upstream URI: " ++ e)) none) ∨
    ∃ uri mtlsClient outcome rest,
      X.parseUri (upstreamUri upstreamBase upstreamPath req.query) = .ok uri ∧
      tr = ⟨.mtlsClient route.id, mtlsClient⟩ ::
        ⟨.send (upstreamClient X route mtlsClient) route.timeoutMs
          (upstreamRequest X route uri req), outcome⟩ :: rest ∧
      (settle X (SignatureMode.resolve X.unicode settings.envSignatureMode route.signatureMode
        settings.defaultSignatureMode) config route upstreamBase req.method outcome).Runs
          rest answer := by
  dsimp only [forward] at hrun
  cases hparse : X.parseUri (upstreamUri upstreamBase upstreamPath req.query) with
  | error e =>
    rw [hparse] at hrun
    exact .inl ⟨e, rfl, runs_pure_iff.mp hrun⟩
  | ok uri =>
    rw [hparse] at hrun
    obtain ⟨mtlsClient, tr, rfl, hsend⟩ := runs_call_bind_iff.mp hrun
    obtain ⟨outcome, rest, rfl, hsettle⟩ := runs_call_bind_iff.mp hsend
    exact .inr ⟨uri, mtlsClient, outcome, rest, rfl, rfl, hsettle⟩

/-- The call is made before the request is forwarded. -/
def HandlerCall.Early (c : HandlerCall X) : Prop :=
  c ∈ HandlerStage.limiting.calls X ∨ c ∈ HandlerStage.admission.calls X

/-- **An admitted request is forwarded** to the upstream that admitted it. -/
theorem forward_of_admitted {upstream : String} {checked : Except CircuitState Unit}
    (hrun : (handleMatched X settings config route upstreamPath req).Runs tr answer)
    (hcheck : ⟨.checkRequest upstream, checked⟩ ∈ tr) (hopen : checked ≠ .error .opened) :
    config.circuitBreaker.enabled = true ∧ ∃ early rest, tr = early ++ rest ∧
      (∀ e ∈ early, e.1.Early) ∧
      (forward X settings config route upstream upstreamPath req).Runs rest answer := by
  have hnot_limit : HandlerCall.checkRequest upstream ∉ HandlerStage.limiting.calls X := by
    simp
  obtain hlimits | ⟨limits, admission, result, rest, rfl, hlimits, hasked, hrefused, hforward⟩ :=
    handleMatched_cases hrun
  · exact absurd (hlimits _ hcheck) hnot_limit
  have hmem := hasked.mem_of_makes makes_admitRequest
  have hchecked : ⟨.checkRequest upstream, checked⟩ ∈ admission := by
    rcases List.mem_append.mp hcheck with hcheck | hcheck
    · exact absurd (hlimits _ hcheck) hnot_limit
    rcases List.mem_append.mp hcheck with hcheck | hcheck
    · exact hcheck
    cases result with
    | error refused =>
      rw [(hrefused refused rfl).1] at hcheck
      exact absurd hcheck List.not_mem_nil
    | ok upstreamBase =>
      have hlater := (hforward upstreamBase rfl).mem_of_makes makes_forward _ hcheck
      simp at hlater
  obtain ⟨henabled, rfl⟩ := admits_of_checkRequest hasked hchecked hopen
  refine ⟨henabled, limits ++ admission, rest, (List.append_assoc ..).symm, fun e he => ?_,
    hforward upstream rfl⟩
  exact (List.mem_append.mp he).imp (hlimits e) (hmem e)

/-- **What is not called early** is called once the request is forwarded. -/
theorem forward_of_late {e : Exchange (@HandlerCall.Answer X)}
    (hrun : (handleMatched X settings config route upstreamPath req).Runs tr answer) (he : e ∈ tr)
    (hlate : ¬ e.1.Early) :
    ∃ upstreamBase rest, (∀ e ∈ rest, e ∈ tr) ∧ e ∈ rest ∧
      (forward X settings config route upstreamBase upstreamPath req).Runs rest answer := by
  obtain hlimits | ⟨limits, admission, result, rest, rfl, hlimits, hasked, hrefused, hforward⟩ :=
    handleMatched_cases hrun
  · exact absurd (.inl (hlimits e he)) hlate
  have hrest : e ∈ rest := by
    rcases List.mem_append.mp he with he | he
    · exact absurd (.inl (hlimits e he)) hlate
    rcases List.mem_append.mp he with he | he
    · exact absurd (.inr (hasked.mem_of_makes makes_admitRequest e he)) hlate
    · exact he
  cases result with
  | error refused =>
    rw [(hrefused refused rfl).1] at hrest
    exact absurd hrest List.not_mem_nil
  | ok upstreamBase =>
    exact ⟨upstreamBase, rest, fun e he => by simp [he], hrest, hforward upstreamBase rfl⟩

/-- **A request that is sent** is sent to the path of its route, with the client looked up for the
route and within its timeout. -/
theorem sent_cases {client : UpstreamClient X.tls} {timeoutMs : ℕ} {sent : UpstreamRequest X}
    {outcome : SendOutcome}
    (hrun : (handleMatched X settings config route upstreamPath req).Runs tr answer)
    (hsend : ⟨.send client timeoutMs sent, outcome⟩ ∈ tr) :
    ∃ upstreamBase uri mtlsClient,
      X.parseUri (upstreamUri upstreamBase upstreamPath req.query) = .ok uri ∧
      ⟨.mtlsClient route.id, mtlsClient⟩ ∈ tr ∧ client = upstreamClient X route mtlsClient ∧
      timeoutMs = route.timeoutMs ∧ sent = upstreamRequest X route uri req := by
  obtain ⟨upstreamBase, rest, hsub, hrest, hforward⟩ :=
    forward_of_late hrun hsend (by simp [HandlerCall.Early])
  obtain ⟨e, -, rfl, -⟩ | ⟨uri, mtlsClient, outcome', rest, hparse, rfl, hsettle⟩ :=
    forward_cases hforward
  · exact absurd hrest List.not_mem_nil
  · refine ⟨upstreamBase, uri, mtlsClient, hparse, hsub _ (List.mem_cons_self ..), ?_⟩
    replace hrest := (List.mem_cons.mp hrest).resolve_left nofun
    rcases List.mem_cons.mp hrest with heq | hrest
    · cases heq
      exact ⟨rfl, rfl, rfl⟩
    · have hmem := hsettle.mem_of_makes (makes_settle _) _ hrest
      simp at hmem

/-- **The response is the one both signers sign**, if they answer the calls. -/
theorem response_of_answerResponse {skm : SignatureKeyManager X.signatures}
    {mgr : VersionedKeyManager} {mode : SignatureMode} {status : ℕ} {headers : HeaderMap}
    {response : HttpResponse}
    (hrun : (answerResponse X mode status headers).Runs tr (.response response))
    (hsign : ∀ mode body output, ⟨.sign mode body, output⟩ ∈ tr →
      skm.sign mode body = .ok output)
    (hsignBody : ∀ body headers signed, ⟨.signBody body headers, signed⟩ ∈ tr →
      signed = signResponseBody X.toGatewayCrates mgr body headers) :
    ∃ body, signResponse skm mode mgr ⟨status, headers, body⟩ = .ok response := by
  obtain ⟨body, tr, rfl, hbody⟩ := runs_call_bind_iff.mp hrun
  cases body with
  | error e =>
    obtain ⟨_, tr, rfl, hdone⟩ := runs_call_bind_iff.mp hbody
    cases (runs_pure_iff.mp hdone).2
  | ok body =>
    obtain ⟨output, tr, rfl, hsigned⟩ := runs_call_bind_iff.mp hbody
    obtain ⟨signed, tr, rfl, hdone⟩ := runs_call_bind_iff.mp hsigned
    obtain ⟨rfl, hresponse⟩ := runs_pure_iff.mp hdone
    cases hresponse
    refine ⟨body, ?_⟩
    rw [signResponse, hsign mode body output (by simp),
      hsignBody body _ signed (.tail _ (.tail _ (.head _)))]
    cases output <;> rfl

/-- **A request that a route matches** is handled by that route. -/
theorem runs_proxyHandler_iff {matcher : RouteMatcher}
    (hmatch : matcher.matchRoute X.unicode req.path req.method = some (route, upstreamPath)) :
    (proxyHandler X settings req).Runs (⟨.loadConfig, config⟩ :: ⟨.loadMatcher, matcher⟩ :: tr)
        answer ↔
      (handleMatched X settings config route upstreamPath req).Runs tr answer := by
  constructor
  · intro hrun
    obtain ⟨config, _, heq, hconfig⟩ := runs_call_bind_iff.mp hrun
    cases heq
    obtain ⟨matcher, _, heq, hmatcher⟩ := runs_call_bind_iff.mp hconfig
    cases heq
    rwa [hmatch] at hmatcher
  · intro hrun
    refine runs_call_bind_iff.mpr ⟨config, _, rfl, runs_call_bind_iff.mpr ⟨matcher, _, rfl, ?_⟩⟩
    rwa [hmatch]

theorem upstreamClient_eq_clientFor {state : ProxyState X.tls} :
    upstreamClient X route (state.mtlsClients.get route.id) = state.clientFor route := by
  unfold upstreamClient ProxyState.clientFor
  cases state.mtlsClients.get route.id <;> rfl

/-- **A request is sent as the state selects**, if the state answers the calls. -/
theorem sent_of_select {state : ProxyState X.tls} {selection : Selection X.tls}
    {client : UpstreamClient X.tls} {timeoutMs : ℕ} {sent : UpstreamRequest X}
    {outcome : SendOutcome}
    (hselect : state.select X.unicode req.path req.method = some selection)
    (hrun : (proxyHandler X settings req).Runs
      (⟨.loadConfig, state.config⟩ :: ⟨.loadMatcher, state.matcher⟩ :: tr) answer)
    (hclients : ∀ id found, ⟨.mtlsClient id, found⟩ ∈ tr → found = state.mtlsClients.get id)
    (hsend : ⟨.send client timeoutMs sent, outcome⟩ ∈ tr) :
    client = selection.client ∧ timeoutMs = selection.route.timeoutMs ∧
      ∃ upstreamBase uri,
        X.parseUri (upstreamUri upstreamBase selection.upstreamPath req.query) = .ok uri ∧
        sent = upstreamRequest X selection.route uri req := by
  obtain ⟨⟨route, upstreamPath⟩, hmatch, rfl⟩ := Option.map_eq_some_iff.mp hselect
  obtain ⟨upstreamBase, uri, mtlsClient, hparse, hlookup, rfl, rfl, rfl⟩ :=
    sent_cases ((runs_proxyHandler_iff hmatch).mp hrun) hsend
  refine ⟨?_, rfl, upstreamBase, uri, hparse, rfl⟩
  rw [hclients _ _ hlookup]
  exact upstreamClient_eq_clientFor

end

/-! ## A handler to compute with -/

/-- Plain crates; a URI is any text without a space. -/
abbrev plainHandler (tls : TlsCrates) : HandlerCrates where
  toResponseCrates := plainResponse
  tls
  unicode := asciiCases
  Uri := String
  parseUri uri := if uri.toList.contains ' ' then .error "invalid uri character" else .ok uri

/-- A request for the root. -/
def rootRequest : ProxyRequest where
  method := "GET"
  path := "/"
  query := none
  headers := EntryMap.new
  body := []

/-- What the calls are answered where nothing is refused. -/
def plainAnswers {tls : TlsCrates} (config : GatewayConfig)
    (clients : EntryMap String (HttpsConnector tls)) (outcome : SendOutcome)
    (body : Except String (List UInt8)) : (c : HandlerCall (plainHandler tls)) → c.Answer
  | .loadConfig => config
  | .loadMatcher => RouteMatcher.new asciiCases config.routes
  | .checkLimit _ _ => .allowed
  | .nextUpstream upstreams => upstreams.headD ""
  | .checkRequest _ => .ok ()
  | .mtlsClient id => clients.get id
  | .send _ _ _ => outcome
  | .recordSuccess _ => ()
  | .recordFailure _ => ()
  | .elapsedMs => 1
  | .metrics _ => ()
  | .readBody => body
  | .sign _ _ => none
  | .signBody _ headers => headers

section

variable {tls : TlsCrates} (config : GatewayConfig) (cfg : RouteConfig)
  (clients : EntryMap String (HttpsConnector tls)) (outcome : SendOutcome)
  (body : Except String (List UInt8))

/-- How the request for the root runs on a route. -/
def plainRun : HandlerTrace (plainHandler tls) × HandlerAnswer :=
  (handleMatched (plainHandler tls) ⟨none, .classical⟩ config (.ofConfig asciiCases cfg) "/"
    rootRequest).answered (plainAnswers config clients outcome body)

variable {config cfg}

theorem runs_plainRun
    (hmatch : (RouteMatcher.new asciiCases config.routes).matchRoute (plainHandler tls).unicode
      rootRequest.path rootRequest.method = some (.ofConfig asciiCases cfg, "/")) :
    (proxyHandler (plainHandler tls) ⟨none, .classical⟩ rootRequest).Runs
      (⟨.loadConfig, config⟩ :: ⟨.loadMatcher, RouteMatcher.new asciiCases config.routes⟩ ::
        (plainRun config cfg clients outcome body).1)
      (plainRun config cfg clients outcome body).2 :=
  (runs_proxyHandler_iff hmatch).mpr (runs_answered _ _)

end

end PqcGateway
