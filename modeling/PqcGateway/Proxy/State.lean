import PqcGateway.Breaker.Circuit
import PqcGateway.Keys.Window
import PqcGateway.Limit.RateLimiter
import PqcGateway.Routing.Router

/-!
# Proxy/State — the state every request shares

`ProxyState::new` derives from a configuration all that requests need; `reload_config` installs
another configuration in a running gateway.  The TLS crates, the files they read and the other
crates are parameters (`ProxyCrates`).

* `ProxyState.new_eq_ok`, `ProxyState.starts_iff` — what a started gateway consists of, and which
  configurations start.
* `select` — what `proxy_handler` works out for a request from the state alone.
* `get_buildMtlsClients` — which client certificate a route's requests are sent with.
-/

namespace PqcGateway

/-! ## TLS connectors -/

/-- `rustls` and `rustls_pemfile`, and the files of the gateway's host.  An error is the text it
displays as. -/
structure TlsCrates where
  Cert : Type
  Key : Type
  Anchor : Type
  CertifiedKey : Type
  read : String → Except String (List UInt8)
  certs : List UInt8 → List (Except String Cert)
  privateKey : List UInt8 → Except String (Option Key)
  anchor : Cert → Except String Anchor
  certifiedKey : List Cert → Key → Except String CertifiedKey

/-- An HTTPS connector: the roots it trusts, and the certificate it shows. -/
structure HttpsConnector (T : TlsCrates) where
  roots : List T.Anchor
  clientAuth : Option T.CertifiedKey

section

variable (T : TlsCrates)

/-- Load the custom CA, if provided. -/
def loadRoots : Option String → Except String (List T.Anchor)
  | none => pure []
  | some caPath => do
    let caData ← (T.read caPath).mapError fun e =>
      "failed to read CA file " ++ caPath ++ ": " ++ e
    let caCerts := (T.certs caData).filterMap Except.toOption
    caCerts.mapM fun cert => (T.anchor cert).mapError fun e => "failed to add CA cert: " ++ e

/-- Load the client certificate chain and private key, if both are provided. -/
def loadClientAuth : Option String → Option String → Except String (Option T.CertifiedKey)
  | some certPath, some keyPath => do
    let certData ← (T.read certPath).mapError fun e =>
      "failed to read client cert " ++ certPath ++ ": " ++ e
    let certs := (T.certs certData).filterMap Except.toOption
    let keyData ← (T.read keyPath).mapError fun e =>
      "failed to read client key " ++ keyPath ++ ": " ++ e
    match ← (T.privateKey keyData).mapError fun e => "failed to parse client key: " ++ e with
    | none => throw "no private key found in client key file"
    | some key =>
      let certified ← (T.certifiedKey certs key).mapError fun e =>
        "mTLS client config error: " ++ e
      pure (some certified)
  | _, _ => pure none

/-- Build an HTTPS connector with client certificate authentication (mTLS). -/
def buildMtlsConnector (mtlsCfg : RouteMtlsConfig) : Except String (HttpsConnector T) := do
  let roots ← loadRoots T mtlsCfg.caFile
  let clientAuth ← loadClientAuth T mtlsCfg.clientCertFile mtlsCfg.clientKeyFile
  pure { roots, clientAuth }

/-- The mTLS connector of a route: there is none if mTLS is off, or fails to build. -/
def mtlsConnector (route : RouteConfig) : Option (HttpsConnector T) :=
  match route.mtls with
  | some mtls => if mtls.enabled then (buildMtlsConnector T mtls).toOption else none
  | none => none

/-- The turn of the loop that builds the per-route mTLS clients. -/
def addMtlsClient (clients : EntryMap String (HttpsConnector T)) (route : RouteConfig) :
    EntryMap String (HttpsConnector T) :=
  match mtlsConnector T route with
  | some connector => clients.insert route.id connector
  | none => clients

/-- Build per-route mTLS clients. -/
def buildMtlsClients (routes : List RouteConfig) : EntryMap String (HttpsConnector T) :=
  routes.foldl (addMtlsClient T) EntryMap.new

/-- The mTLS connector of the last route that has one under this id. -/
def lastMtls (routes : List RouteConfig) (id : String) : Option (HttpsConnector T) :=
  (routes.filterMap fun route => if route.id = id then mtlsConnector T route else none).getLast?

end

/-! ## The state -/

/-- The crates the gateway calls. -/
structure ProxyCrates where
  mlDsa : MlDsa
  sha256 : Sha256
  tls : TlsCrates
  unicode : CaseMap

/-- What requests share; the connection pools, the metrics, the load balancer and the key that signs
responses are not here, and no configuration decides them. -/
structure ProxyState (T : TlsCrates) where
  matcher : RouteMatcher
  config : GatewayConfig
  defaultSignatureMode : SignatureMode
  envSignatureMode : Option String
  versionedKeyManager : VersionedKeyManager
  circuitBreaker : CircuitBreakerManager
  rateLimiter : RateLimiter
  mtlsClients : EntryMap String (HttpsConnector T)

/-- What the system delivers for the first key: key material, the clock and random bytes. -/
structure StartDraw (D : MlDsa) extends KeyDraw D where
  rng : OsRng

/-- Register all upstreams with the circuit breaker, including load-balanced endpoints. -/
def registerUpstreams (matcher : RouteMatcher) (breaker : CircuitBreakerManager) :
    CircuitBreakerManager :=
  matcher.routes.foldl (fun breaker route =>
    route.upstreams.foldl (fun breaker upstream => breaker.registerUpstream upstream none) breaker)
    breaker

/-- The circuit breaker's configuration; its durations are nanoseconds. -/
def CircuitBreakerFileConfig.toConfig (config : CircuitBreakerFileConfig) :
    CircuitBreakerConfig where
  failureThreshold := config.failureThreshold
  recoveryTimeout := config.recoveryTimeoutMs * 10 ^ 6
  healthCheckInterval := config.healthCheckIntervalMs * 10 ^ 6
  healthCheckPath := config.healthCheckPath

/-- Resolve the global default signature mode; what does not parse is classical. -/
def SignaturesConfig.mode (unicode : CaseMap) (config : SignaturesConfig) : SignatureMode :=
  (SignatureMode.fromStr unicode config.defaultMode).toOption.getD .classical

/-- The versioned key manager, with threshold key management if that is on. -/
def ThresholdConfig.keyManager (D : MlDsa) (H : Sha256) (draw : StartDraw D)
    (config : ThresholdConfig) : Checked VersionedKeyManager :=
  if config.enabled then
    VersionedKeyManager.withThreshold D H config.maxRetainedKeys config.threshold
      config.totalShares draw.toKeyDraw draw.rng
  else VersionedKeyManager.new D H config.maxRetainedKeys draw.toKeyDraw

namespace ProxyState

/-- Start the gateway; `envSignatureMode` is the environment's `PQC_SIGNATURE_MODE`. -/
def new (X : ProxyCrates) (envSignatureMode : Option String) (draw : StartDraw X.mlDsa)
    (config : GatewayConfig) : Checked (ProxyState X.tls) := do
  let matcher := RouteMatcher.new X.unicode config.routes
  let defaultSignatureMode := config.signatures.mode X.unicode
  let versionedKeyManager ← config.threshold.keyManager X.mlDsa X.sha256 draw
  let circuitBreaker :=
    registerUpstreams matcher (CircuitBreakerManager.new config.circuitBreaker.toConfig)
  let rateLimiter :=
    RateLimiter.new config.rateLimit.defaultRequests config.rateLimit.defaultWindowSeconds
  pure
    { matcher
      config
      defaultSignatureMode
      envSignatureMode
      versionedKeyManager
      circuitBreaker
      rateLimiter
      mtlsClients := buildMtlsClients X.tls config.routes }

/-- Reload config: register any new upstreams, then swap the route matcher and the config. -/
def reloadConfig {T : TlsCrates} (unicode : CaseMap) (newConfig : GatewayConfig)
    (state : ProxyState T) : ProxyState T :=
  let newMatcher := RouteMatcher.new unicode newConfig.routes
  { state with
    circuitBreaker := registerUpstreams newMatcher state.circuitBreaker
    matcher := newMatcher
    config := newConfig }

end ProxyState

/-! ## What a request gets -/

/-- The client a request is sent with. -/
inductive UpstreamClient (T : TlsCrates)
  | http
  | https
  | mtls (connector : HttpsConnector T)

/-- What the handler selects for a request. -/
structure Selection (T : TlsCrates) where
  route : Route
  upstreamPath : String
  client : UpstreamClient T
  signatureMode : SignatureMode
  rateLimit : Option (ℕ × ℕ)

namespace ProxyState

variable {T : TlsCrates}

/-- Use the mTLS client if configured for this route, otherwise a standard client. -/
def clientFor (route : Route) (state : ProxyState T) : UpstreamClient T :=
  match state.mtlsClients.get route.id with
  | some connector => .mtls connector
  | none => if route.upstreamTls then .https else .http

/-- The requests and window that limit a route's clients, if rate limiting is on. -/
def rateLimitFor (route : Route) (state : ProxyState T) : Option (ℕ × ℕ) :=
  if state.config.rateLimit.enabled then some (state.rateLimiter.limit route.rateLimit) else none

/-- What `proxy_handler` works out for a request from the state alone; a request that no route
matches is answered at once. -/
def select (unicode : CaseMap) (path method : String) (state : ProxyState T) :
    Option (Selection T) :=
  (state.matcher.matchRoute unicode path method).map fun (route, upstreamPath) =>
    { route
      upstreamPath
      client := state.clientFor route
      signatureMode := SignatureMode.resolve unicode state.envSignatureMode route.signatureMode
        state.defaultSignatureMode
      rateLimit := state.rateLimitFor route }

end ProxyState

/-! ## A started gateway

All but the keys is computed from the configuration and the environment, and only making the keys
can panic. -/

section

variable {X : ProxyCrates} {env : Option String} {draw : StartDraw X.mlDsa}
  {config : GatewayConfig} {state : ProxyState X.tls}

/-- **A started gateway** is derived from its configuration, but for its keys. -/
theorem ProxyState.new_eq_ok : ProxyState.new X env draw config = .ok state ↔
    ∃ keys, config.threshold.keyManager X.mlDsa X.sha256 draw = .ok keys ∧
      state =
        { matcher := RouteMatcher.new X.unicode config.routes
          config
          defaultSignatureMode := config.signatures.mode X.unicode
          envSignatureMode := env
          versionedKeyManager := keys
          circuitBreaker := registerUpstreams (RouteMatcher.new X.unicode config.routes)
            (CircuitBreakerManager.new config.circuitBreaker.toConfig)
          rateLimiter :=
            RateLimiter.new config.rateLimit.defaultRequests config.rateLimit.defaultWindowSeconds
          mtlsClients := buildMtlsClients X.tls config.routes } := by
  rw [ProxyState.new, Checked.bind_eq_ok]
  constructor
  · rintro ⟨keys, hkeys, h⟩
    exact ⟨keys, hkeys, (Except.ok.inj h).symm⟩
  · rintro ⟨keys, hkeys, rfl⟩
    exact ⟨keys, hkeys, rfl⟩

/-- **A configuration starts** if threshold key management is off, or its numbers are valid. -/
theorem ProxyState.starts_iff : (∃ state, ProxyState.new X env draw config = .ok state) ↔
    (config.threshold.enabled = true →
      SharingConfig.Valid ⟨config.threshold.threshold, config.threshold.totalShares⟩) := by
  have hkeys : (∃ state, ProxyState.new X env draw config = .ok state) ↔
      ∃ keys, config.threshold.keyManager X.mlDsa X.sha256 draw = .ok keys :=
    ⟨fun ⟨_, h⟩ => (ProxyState.new_eq_ok.mp h).imp fun _ h => h.1,
      fun ⟨keys, h⟩ => ⟨_, ProxyState.new_eq_ok.mpr ⟨keys, h, rfl⟩⟩⟩
  rw [hkeys, ThresholdConfig.keyManager]
  cases config.threshold.enabled with
  | true =>
    rw [if_pos rfl]
    refine ⟨fun ⟨_, h⟩ _ => valid_of_withThreshold h, fun h => ?_⟩
    obtain ⟨keys, _, hnew, -⟩ := withThreshold_tracks X.mlDsa X.sha256
      config.threshold.maxRetainedKeys (h rfl) draw.toKeyDraw draw.rng
    exact ⟨keys, hnew⟩
  | false =>
    refine iff_of_true ?_ (fun h => nomatch h)
    obtain ⟨keys, _, hnew, -⟩ := new_tracks X.mlDsa X.sha256
      config.threshold.maxRetainedKeys draw.toKeyDraw
    exact ⟨keys, hnew⟩

end

theorem get_addMtlsClient (T : TlsCrates) (clients : EntryMap String (HttpsConnector T))
    (route : RouteConfig) (id : String) :
    (addMtlsClient T clients route).get id =
      (if route.id = id then mtlsConnector T route else none).or (clients.get id) := by
  unfold addMtlsClient
  cases mtlsConnector T route with
  | none => simp
  | some connector =>
    by_cases hid : route.id = id
    · rw [if_pos hid, ← hid]
      exact EntryMap.get_insert_self ..
    · rw [if_neg hid]
      exact EntryMap.get_insert_of_ne _ (Ne.symm hid) _

/-- **The client under an id** is the one of the last route that has one there: a later insert
replaces an earlier one. -/
theorem get_buildMtlsClients (T : TlsCrates) (routes : List RouteConfig) (id : String) :
    (buildMtlsClients T routes).get id = lastMtls T routes id := by
  induction routes using List.reverseRecOn with
  | nil => rfl
  | append_singleton routes route ih =>
    rw [buildMtlsClients, List.foldl_concat, get_addMtlsClient, ← buildMtlsClients, ih, lastMtls,
      lastMtls, List.filterMap_append, List.getLast?_append]
    congr 1
    cases h : (if route.id = id then mtlsConnector T route else none) <;> simp [h]

/-- A key that has no bucket is limited as its route is: it gets a full bucket. -/
theorem entry_of_unseen {limiter : RateLimiter} {key : RateLimitKey}
    (hunseen : limiter.buckets.get key = none) (now : ℚ) (routeLimit : Option (ℕ × ℕ)) :
    limiter.entry now key routeLimit
      = .new (limiter.limit routeLimit).1 (limiter.limit routeLimit).2 now := by
  rw [RateLimiter.entry, hunseen]
  rfl

/-! ## Crates to compute with -/

/-- A host where each file holds one certificate, or one key, that says which file it is. -/
abbrev plainTls : TlsCrates where
  Cert := List UInt8
  Key := List UInt8
  Anchor := List UInt8
  CertifiedKey := List (List UInt8) × List UInt8
  read path := .ok path.toUTF8.toList
  certs data := [.ok data]
  privateKey data := .ok (some data)
  anchor := .ok
  certifiedKey certs key := .ok (certs, key)

abbrev plainProxyCrates : ProxyCrates := ⟨plainDsa, headDigest, plainTls, asciiCases⟩

def plainStart : StartDraw plainDsa where
  toKeyDraw := plainDraw.toKeyDraw
  rng _ _ := 9

/-- Without threshold key management the gateway starts. -/
theorem exists_plain_start (config : GatewayConfig) (h : config.threshold.enabled = false) :
    ∃ state, ProxyState.new plainProxyCrates none plainStart config = .ok state :=
  ProxyState.starts_iff.mpr fun henabled => by rw [h] at henabled; cases henabled

end PqcGateway
