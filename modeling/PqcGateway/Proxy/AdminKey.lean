import PqcGateway.Proxy.Handler

/-!
# Proxy/AdminKey — the key in front of the admin handlers

The admin listener answers a request only with its API key, but for `/admin/health`.  A missing key
is read as the empty one: the gate holds (`KeyGateHolds`) exactly where the key configured is not
empty (`keyGateHolds_iff`).

* `first_eq_of_handled` — a handler behind the gate runs with the key, unless that is empty.
* `empty_key_open` — with an empty variable for the key, the keys are listed to anyone.
-/

namespace PqcGateway

/-! ## The admin listener -/

/-- The handlers of the admin listener. -/
inductive AdminHandler
  | health
  | circuitBreakers
  | keys
  | metrics
  | config
  | configReload
  | routes
  | routesUpdate
  | token
  | rotateKeys
deriving DecidableEq, Repr

/-- `axum`'s `get`, which answers `HEAD` as well. -/
def getMethods : List String := ["GET", "HEAD"]

/-- The routes of the admin listener: path, methods and handler. -/
def adminRoutes : List (String × List String × AdminHandler) :=
  [("/admin/health", getMethods, .health),
    ("/admin/circuit-breakers", getMethods, .circuitBreakers),
    ("/admin/keys", getMethods, .keys),
    ("/admin/metrics", getMethods, .metrics),
    ("/admin/config", getMethods, .config),
    ("/admin/config/reload", ["POST"], .configReload),
    ("/admin/routes", getMethods, .routes),
    ("/admin/routes/update", ["POST"], .routesUpdate),
    ("/auth/token", ["POST"], .token),
    ("/auth/rotate-keys", ["POST"], .rotateKeys)]

/-- What becomes of a request to the admin listener: a handler answers it, or none does. -/
inductive AdminOutcome
  | handled (handler : AdminHandler)
  | notFound
  | methodNotAllowed
  | refused (error : GatewayError)
deriving DecidableEq, Repr

/-- The handler for the path and the method. -/
def routeAdmin (req : ProxyRequest) : AdminOutcome :=
  match adminRoutes.find? fun route => route.1 == req.path with
  | none => .notFound
  | some (_, methods, handler) =>
    if req.method ∈ methods then .handled handler else .methodNotAllowed

/-- The effective API key, of the configuration or of the environment's `GATEWAY_ADMIN_API_KEY`. -/
def AdminConfig.effectiveApiKey (envApiKey : Option String) (admin : AdminConfig) : Option String :=
  admin.apiKey <|> envApiKey

/-- The API key middleware. -/
def apiKeyMiddleware (expected : String) (next : ProxyRequest → AdminOutcome) (req : ProxyRequest) :
    AdminOutcome :=
  -- Health checks need no key.
  if req.path = "/admin/health" then next req
  else
    let provided := (req.header "x-api-key").getD ""
    if provided = expected then next req
    else .refused (.unauthorized "invalid or missing API key")

/-- The admin router, with the API key middleware if there is a key. -/
def buildAdminRouter : Option String → ProxyRequest → AdminOutcome
  | some key => apiKeyMiddleware key routeAdmin
  | none => routeAdmin

/-! ## The gate

A header that is missing, or no visible text, is compared as the empty key. -/

/-- **The gate holds**, if there is a key: a handler other than that of `/admin/health` runs only if
the header is there and is the key, and where it is missing or no visible text the answer is 401. -/
structure KeyGateHolds (envApiKey : Option String) (admin : AdminConfig) : Prop where
  key_given : ∀ key, admin.effectiveApiKey envApiKey = some key → ∀ req handler,
    buildAdminRouter (admin.effectiveApiKey envApiKey) req = .handled handler →
    handler ≠ .health → req.headers.first "x-api-key" = some key
  refused : ∀ key, admin.effectiveApiKey envApiKey = some key → ∀ req,
    req.path ≠ "/admin/health" → req.header "x-api-key" = none →
    ∃ error, buildAdminRouter (admin.effectiveApiKey envApiKey) req = .refused error ∧
      error.intoResponse.1 = 401

section

variable {req : ProxyRequest} {handler : AdminHandler} {key name : String}
  {next : ProxyRequest → AdminOutcome}

/-- Only the handler of `/admin/health` is behind that path. -/
theorem eq_health_of_handled (hpath : req.path = "/admin/health")
    (h : routeAdmin req = .handled handler) : handler = .health := by
  simp only [routeAdmin, adminRoutes, hpath, List.find?_cons, BEq.rfl] at h
  split_ifs at h
  exact (AdminOutcome.handled.inj h).symm

theorem apiKeyMiddleware_of_ne (hpath : req.path ≠ "/admin/health")
    (hkey : (req.header "x-api-key").getD "" ≠ key) : apiKeyMiddleware key next req
      = .refused (.unauthorized "invalid or missing API key") := by
  rw [apiKeyMiddleware, if_neg hpath, if_neg hkey]

/-- A header that is text is there. -/
theorem first_eq_of_header (h : req.header name = some key) :
    req.headers.first name = some key := by
  obtain ⟨value, hvalue, hstr⟩ := Option.bind_eq_some_iff.mp h
  rw [hvalue, headerToStr_eq_some hstr]

/-- **A handler runs behind the middleware** with the key, unless the key is empty. -/
theorem first_eq_of_handled (hkey : key ≠ "")
    (h : apiKeyMiddleware key routeAdmin req = .handled handler) (hhealth : handler ≠ .health) :
    req.headers.first "x-api-key" = some key := by
  have hpath : req.path ≠ "/admin/health" := by
    intro hpath
    rw [apiKeyMiddleware, if_pos hpath] at h
    exact hhealth (eq_health_of_handled hpath h)
  have hprovided : (req.header "x-api-key").getD "" = key := by
    by_contra hne
    rw [apiKeyMiddleware_of_ne hpath hne] at h
    cases h
  cases hheader : req.header "x-api-key" with
  | none =>
    rw [hheader] at hprovided
    exact absurd hprovided.symm hkey
  | some value =>
    rw [hheader] at hprovided
    exact first_eq_of_header (hheader.trans (congrArg some hprovided))

end

/-- A request for the keys, without a key. -/
def keylessRequest : ProxyRequest where
  method := "GET"
  path := "/admin/keys"
  query := none
  headers := EntryMap.new
  body := []

/-- **The gate holds** exactly where the key configured is not empty. -/
theorem keyGateHolds_iff (envApiKey : Option String) (admin : AdminConfig) :
    KeyGateHolds envApiKey admin ↔ admin.effectiveApiKey envApiKey ≠ some "" := by
  constructor
  · intro h hempty
    have hhandled : buildAdminRouter (some "") keylessRequest = .handled .keys := by decide
    have hgiven := h.key_given "" hempty keylessRequest .keys (hempty ▸ hhandled) (by decide)
    exact absurd hgiven (by decide)
  · intro hempty
    have hne : ∀ key, admin.effectiveApiKey envApiKey = some key → key ≠ "" :=
      fun key hkey heq => hempty (heq ▸ hkey)
    constructor
    · intro key hkey req handler h hhealth
      rw [hkey] at h
      exact first_eq_of_handled (hne key hkey) h hhealth
    · intro key hkey req hpath hheader
      have hprovided : (req.header "x-api-key").getD "" ≠ key := by
        rw [hheader]
        exact (hne key hkey).symm
      rw [hkey]
      exact ⟨_, apiKeyMiddleware_of_ne hpath hprovided, rfl⟩

/-- **An empty variable opens the gate**: the keys are listed to a request without a key. -/
theorem empty_key_open :
    AdminConfig.default.effectiveApiKey (some "") = some "" ∧
      buildAdminRouter (AdminConfig.default.effectiveApiKey (some "")) keylessRequest
        = .handled .keys ∧
      keylessRequest.headers.first "x-api-key" = none ∧
      ¬ KeyGateHolds (some "") AdminConfig.default := by
  refine ⟨by decide, by decide, by decide, fun h => ?_⟩
  obtain ⟨error, herror, -⟩ := h.refused "" (by decide) keylessRequest (by decide) (by decide)
  cases herror

end PqcGateway
