import PqcGateway.Machinery.Checked

/-!
# Config/Gateway — the gateway's configuration

`GatewayConfig` is the configuration file, section by section, with the defaults of the sections
that may be left out.  Reading the TOML or JSON text into it is serde's; `validate` is what the
gateway itself asks of a configuration.

* `validate_eq_ok` — a valid configuration has routes, and each has its prefix and upstream.
* `fromText_eq_ok` — a text is read as a configuration if it parses as one, and that is valid.
-/

namespace PqcGateway

/-! ## The sections

Where a section may be left out of the file, `default` is what serde puts in its place. -/

/-- Global signature configuration section `[signatures]`. -/
structure SignaturesConfig where
  defaultMode : String
deriving DecidableEq, Repr

def SignaturesConfig.default : SignaturesConfig where
  defaultMode := "classical"

/-- Auth configuration section `[auth]`. -/
structure AuthConfig where
  enabled : Bool
  issuer : String
  audience : String
  tokenTtlSeconds : ℕ
  publicPaths : List String
deriving DecidableEq, Repr

def AuthConfig.default : AuthConfig where
  enabled := false
  issuer := "pqc-gateway"
  audience := "pqc-gateway-api"
  tokenTtlSeconds := 3600
  publicPaths := ["/health", "/.well-known/"]

/-- Admin listener configuration `[admin]`. -/
structure AdminConfig where
  enabled : Bool
  bindAddress : String
  port : ℕ
  apiKey : Option String
deriving DecidableEq, Repr

def AdminConfig.default : AdminConfig where
  enabled := true
  bindAddress := "127.0.0.1"
  port := 9090
  apiKey := none

/-- Circuit breaker configuration section `[circuit_breaker]`. -/
structure CircuitBreakerFileConfig where
  enabled : Bool
  failureThreshold : ℕ
  recoveryTimeoutMs : ℕ
  healthCheckIntervalMs : ℕ
  healthCheckPath : String
deriving DecidableEq, Repr

def CircuitBreakerFileConfig.default : CircuitBreakerFileConfig where
  enabled := true
  failureThreshold := 5
  recoveryTimeoutMs := 30000
  healthCheckIntervalMs := 10000
  healthCheckPath := "/health"

/-- Threshold key management configuration `[threshold]`. -/
structure ThresholdConfig where
  enabled : Bool
  threshold : UInt8
  totalShares : UInt8
  maxRetainedKeys : ℕ
deriving DecidableEq, Repr

def ThresholdConfig.default : ThresholdConfig where
  enabled := false
  threshold := 3
  totalShares := 5
  maxRetainedKeys := 5

/-- Global rate limiting configuration `[rate_limit]`. -/
structure RateLimitConfig where
  enabled : Bool
  defaultRequests : ℕ
  defaultWindowSeconds : ℕ
deriving DecidableEq, Repr

def RateLimitConfig.default : RateLimitConfig where
  enabled := false
  defaultRequests := 1000
  defaultWindowSeconds := 60

/-- Metrics / observability configuration `[metrics]`. -/
structure MetricsConfig where
  enabled : Bool
  path : String
deriving DecidableEq, Repr

def MetricsConfig.default : MetricsConfig where
  enabled := false
  path := "/metrics"

structure ServerConfig where
  bindAddress : String
  httpPort : ℕ
  drainTimeoutSeconds : ℕ
  maxRequestBodyBytes : ℕ
deriving DecidableEq, Repr

/-- TLS configuration section (file-level representation). -/
structure TlsFileConfig where
  enabled : Bool
  certFile : String
  keyFile : String
  minVersion : String
  pqcEnabled : Bool
  httpsPort : ℕ
  caFile : Option String
deriving DecidableEq, Repr

def TlsFileConfig.default : TlsFileConfig where
  enabled := false
  certFile := "config/certs/server.crt"
  keyFile := "config/certs/server.key"
  minVersion := "1.3"
  pqcEnabled := true
  httpsPort := 8443
  caFile := none

structure LoggingConfig where
  level : String
  format : String
deriving DecidableEq, Repr

def LoggingConfig.default : LoggingConfig where
  level := "info"
  format := "pretty"

/-! ## Routes -/

/-- Per-route rate limit override. -/
structure RouteRateLimit where
  requests : ℕ
  windowSeconds : ℕ
deriving DecidableEq, Repr

/-- Per-route mTLS configuration. -/
structure RouteMtlsConfig where
  enabled : Bool
  caFile : Option String
  clientCertFile : Option String
  clientKeyFile : Option String
deriving DecidableEq, Repr

structure RouteConfig where
  id : String
  pathPrefix : String
  upstream : String
  upstreams : List String
  stripPrefix : Bool
  methods : List String
  timeoutMs : ℕ
  signatureMode : Option String
  rateLimit : Option RouteRateLimit
  maxRequestBodyBytes : Option ℕ
  mtls : Option RouteMtlsConfig
  upstreamTls : Bool
deriving DecidableEq, Repr

/-- Get all upstream URLs (primary + extras). -/
def RouteConfig.allUpstreams (cfg : RouteConfig) : List String := cfg.upstream :: cfg.upstreams

/-- The prefix and the upstream a route cannot do without. -/
def RouteConfig.Valid (route : RouteConfig) : Prop := route.pathPrefix ≠ "" ∧ route.upstream ≠ ""

instance (route : RouteConfig) : Decidable route.Valid := inferInstanceAs (Decidable (_ ∧ _))

/-! ## The configuration -/

structure GatewayConfig where
  server : ServerConfig
  logging : LoggingConfig
  tls : TlsFileConfig
  signatures : SignaturesConfig
  auth : AuthConfig
  admin : AdminConfig
  circuitBreaker : CircuitBreakerFileConfig
  threshold : ThresholdConfig
  rateLimit : RateLimitConfig
  metrics : MetricsConfig
  routes : List RouteConfig
deriving DecidableEq, Repr

namespace GatewayConfig

/-- The turn of the loop over the routes. -/
def validateRoute (route : RouteConfig) : Except String Unit :=
  if route.pathPrefix = "" then .error ("Route '" ++ route.id ++ "' has empty path_prefix")
  else if route.upstream = "" then .error ("Route '" ++ route.id ++ "' has empty upstream")
  else .ok ()

def validate (config : GatewayConfig) : Except String Unit := do
  if config.routes = [] then throw "No routes configured"
  forM config.routes validateRoute

/-- Parse the text, as `parse` does, and validate. -/
def fromText (parse : String → Except String GatewayConfig) (text : String) :
    Except String GatewayConfig := do
  let config ← parse text
  config.validate
  pure config

/-- `cfg.routes = routes`: the configuration with other routes. -/
def withRoutes (routes : List RouteConfig) (config : GatewayConfig) : GatewayConfig :=
  { config with routes }

theorem validateRoute_eq_ok {route : RouteConfig} : validateRoute route = .ok () ↔ route.Valid := by
  unfold validateRoute RouteConfig.Valid
  split_ifs <;> simp_all

theorem forM_validateRoute_eq_ok {routes : List RouteConfig} :
    forM routes validateRoute = .ok () ↔ ∀ route ∈ routes, route.Valid := by
  induction routes with
  | nil => exact iff_of_true rfl fun _ h => absurd h List.not_mem_nil
  | cons route routes ih =>
    rw [List.forM_cons, List.forall_mem_cons, ← validateRoute_eq_ok, ← ih]
    cases validateRoute route with
    | error e => exact iff_of_false nofun fun h => nomatch h.1
    | ok u => exact ⟨fun h => ⟨rfl, h⟩, fun h => h.2⟩

/-- **A valid configuration** has routes, and each has its prefix and upstream. -/
theorem validate_eq_ok {config : GatewayConfig} :
    config.validate = .ok () ↔ config.routes ≠ [] ∧ ∀ route ∈ config.routes, route.Valid := by
  rw [validate, ← forM_validateRoute_eq_ok]
  by_cases hempty : config.routes = []
  · rw [if_pos hempty]
    exact iff_of_false nofun fun h => h.1 hempty
  · rw [if_neg hempty]
    exact ⟨fun h => ⟨hempty, h⟩, fun h => h.2⟩

/-- **A text is read as a configuration** if it parses as one, and that is valid. -/
theorem fromText_eq_ok {parse : String → Except String GatewayConfig} {text : String}
    {config : GatewayConfig} :
    fromText parse text = .ok config ↔ parse text = .ok config ∧ config.validate = .ok () := by
  rw [fromText, Except.bind_eq_ok]
  constructor
  · rintro ⟨c, hparse, hread⟩
    obtain ⟨_, hvalid, hc⟩ := Except.bind_eq_ok.mp hread
    obtain rfl := Except.ok.inj hc
    exact ⟨hparse, hvalid⟩
  · rintro ⟨hparse, hvalid⟩
    exact ⟨config, hparse, Except.bind_eq_ok.mpr ⟨(), hvalid, rfl⟩⟩

end GatewayConfig

/-! ## A configuration to compute with

What a test of the gateway starts from; the test brings the routes. -/

/-- A route for every method under a prefix. -/
def RouteConfig.plain (id pathPrefix upstream : String) : RouteConfig where
  id
  pathPrefix
  upstream
  upstreams := []
  stripPrefix := false
  methods := []
  timeoutMs := 5000
  signatureMode := none
  rateLimit := none
  maxRequestBodyBytes := none
  mtls := none
  upstreamTls := false

/-- `minimal_config`, with these routes. -/
def minimalConfig (routes : List RouteConfig) : GatewayConfig where
  server :=
    { bindAddress := "127.0.0.1"
      httpPort := 0
      drainTimeoutSeconds := 5
      maxRequestBodyBytes := 1024 }
  logging := { level := "error", format := "pretty" }
  tls := .default
  signatures := .default
  auth := .default
  admin := .default
  circuitBreaker := { CircuitBreakerFileConfig.default with enabled := false }
  threshold := .default
  rateLimit := { enabled := true, defaultRequests := 100, defaultWindowSeconds := 60 }
  metrics := { enabled := true, path := "/metrics" }
  routes

end PqcGateway
