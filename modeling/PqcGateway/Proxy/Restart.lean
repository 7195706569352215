import PqcGateway.Proxy.State

/-!
# Proxy/Restart — a reloaded gateway and a restarted one

A reload swaps the matcher and the config.  What `ProxyState::new` derives from a configuration
besides — the mTLS clients, the default signature mode and the default rate limit — stays that of
the configuration the gateway was started with, and `reload_eq_restart_iff` says when no request
tells the difference.

* `reload_moved_eq_restart` — a route that moves, with a limit and a mode of its own: no difference.
* `reload_misses_mtls` — a route that gets a client certificate: its requests go without.
-/

namespace PqcGateway

/-! ## What a request takes from the start

Mode and limit fall back on what was derived at the start, and the client always comes from there.
-/

/-- The mode the environment overrides all others with. -/
def envMode (unicode : CaseMap) (env : Option String) : Option SignatureMode :=
  env.bind fun envVal => (SignatureMode.fromStr unicode envVal).toOption

/-- The default matters only where neither the environment nor the route sets a mode. -/
theorem resolve_eq_iff {unicode : CaseMap} {env : Option String} {routeMode : Option SignatureMode}
    {default default' : SignatureMode} :
    SignatureMode.resolve unicode env routeMode default
        = SignatureMode.resolve unicode env routeMode default' ↔
      (envMode unicode env).isSome ∨ routeMode.isSome ∨ default = default' := by
  rw [SignatureMode.resolve, SignatureMode.resolve, ← envMode]
  cases envMode unicode env with
  | some mode => simp
  | none => cases routeMode <;> simp

/-- The default limit matters only where the route sets none. -/
theorem limit_eq_iff {limiter limiter' : RateLimiter} {routeLimit : Option (ℕ × ℕ)} :
    limiter.limit routeLimit = limiter'.limit routeLimit ↔
      routeLimit.isSome ∨ (limiter.defaultCapacity = limiter'.defaultCapacity ∧
        limiter.defaultWindow = limiter'.defaultWindow) := by
  cases routeLimit <;> simp [RateLimiter.limit]

/-- With one configuration, the limit is the limiter's, if limiting is on. -/
theorem rateLimitFor_eq_iff {T : TlsCrates} {state state' : ProxyState T} {route : Route}
    (hconfig : state'.config = state.config) :
    state.rateLimitFor route = state'.rateLimitFor route ↔
      (state.config.rateLimit.enabled = true → route.rateLimit.isSome ∨
        (state.rateLimiter.defaultCapacity = state'.rateLimiter.defaultCapacity ∧
          state.rateLimiter.defaultWindow = state'.rateLimiter.defaultWindow)) := by
  rw [ProxyState.rateLimitFor, ProxyState.rateLimitFor, hconfig, ← limit_eq_iff]
  cases state.config.rateLimit.enabled <;> simp

/-- The client is that of the route's id, mTLS or not. -/
theorem clientFor_eq_iff {T : TlsCrates} {state state' : ProxyState T} {route : Route} :
    state.clientFor route = state'.clientFor route ↔
      state.mtlsClients.get route.id = state'.mtlsClients.get route.id := by
  unfold ProxyState.clientFor
  constructor
  · intro h
    cases hget : state.mtlsClients.get route.id with
    | none =>
      cases hget' : state'.mtlsClients.get route.id with
      | none => rfl
      | some connector =>
        rw [hget, hget'] at h
        cases htls : route.upstreamTls <;> simp [htls] at h
    | some connector =>
      cases hget' : state'.mtlsClients.get route.id with
      | none =>
        rw [hget, hget'] at h
        cases htls : route.upstreamTls <;> simp [htls] at h
      | some connector' =>
        rw [hget, hget'] at h
        exact congrArg some (UpstreamClient.mtls.inj h)
  · intro h
    rw [h]

/-- States with one matcher select the same where its route gets the same from each. -/
theorem select_eq_iff {T : TlsCrates} (unicode : CaseMap) {state state' : ProxyState T}
    (hmatcher : state'.matcher = state.matcher) (path method : String) :
    state.select unicode path method = state'.select unicode path method ↔
      ∀ route upstreamPath,
        state.matcher.matchRoute unicode path method = some (route, upstreamPath) →
        state.clientFor route = state'.clientFor route ∧
        SignatureMode.resolve unicode state.envSignatureMode route.signatureMode
            state.defaultSignatureMode
          = SignatureMode.resolve unicode state'.envSignatureMode route.signatureMode
            state'.defaultSignatureMode ∧
        state.rateLimitFor route = state'.rateLimitFor route := by
  rw [ProxyState.select, ProxyState.select, hmatcher]
  cases state.matcher.matchRoute unicode path method with
  | none => simp
  | some selected =>
    obtain ⟨route, upstreamPath⟩ := selected
    simp

/-- What handling a request by the route takes from the start is the same under both
configurations. -/
structure SameStart (X : ProxyCrates) (env : Option String) (old new : GatewayConfig)
    (route : Route) : Prop where
  client : lastMtls X.tls old.routes route.id = lastMtls X.tls new.routes route.id
  mode : (envMode X.unicode env).isSome ∨ route.signatureMode.isSome ∨
    old.signatures.mode X.unicode = new.signatures.mode X.unicode
  limit : new.rateLimit.enabled = true → route.rateLimit.isSome ∨
    (old.rateLimit.defaultRequests = new.rateLimit.defaultRequests ∧
      old.rateLimit.defaultWindowSeconds = new.rateLimit.defaultWindowSeconds)

/-! ## Reloaded and restarted -/

section

variable {X : ProxyCrates} {env : Option String} {draw draw' : StartDraw X.mlDsa}
  {old new : GatewayConfig} {state fresh : ProxyState X.tls}

/-- A client's first request after a start and a reload meets a full bucket of the limit
selected. -/
theorem entry_after_reload (hold : ProxyState.new X env draw old = .ok state)
    (now : ℚ) (key : RateLimitKey) (routeLimit : Option (ℕ × ℕ)) :
    (state.reloadConfig X.unicode new).rateLimiter.entry now key routeLimit
      = .new (state.rateLimiter.limit routeLimit).1 (state.rateLimiter.limit routeLimit).2 now := by
  obtain ⟨_, -, rfl⟩ := ProxyState.new_eq_ok.mp hold
  exact entry_of_unseen rfl now routeLimit

/-- **A reloaded gateway handles a request as a restarted one would** — every request — if and only
if for every route of the new configuration that some request takes, the old configuration gave its
id the same mTLS client, the default signature mode is the same or overridden, and the default rate
limit is the same, overridden or off. -/
theorem reload_eq_restart_iff (hold : ProxyState.new X env draw old = .ok state)
    (hnew : ProxyState.new X env draw' new = .ok fresh) :
    (∀ path method, (state.reloadConfig X.unicode new).select X.unicode path method
        = fresh.select X.unicode path method) ↔
      ∀ path method route upstreamPath,
        (RouteMatcher.new X.unicode new.routes).matchRoute X.unicode path method
          = some (route, upstreamPath) → SameStart X env old new route := by
  obtain ⟨_, -, rfl⟩ := ProxyState.new_eq_ok.mp hold
  obtain ⟨_, -, rfl⟩ := ProxyState.new_eq_ok.mp hnew
  refine forall₂_congr fun path method => (select_eq_iff X.unicode (by rfl) path method).trans ?_
  refine forall₂_congr fun route upstreamPath => imp_congr_right fun _ => ?_
  refine (and_congr clientFor_eq_iff
    (and_congr resolve_eq_iff (rateLimitFor_eq_iff (by rfl)))).trans ?_
  simp only [ProxyState.reloadConfig, get_buildMtlsClients]
  constructor
  · rintro ⟨hclient, hmode, hlimit⟩
    exact ⟨hclient, hmode, hlimit⟩
  · intro h
    exact ⟨h.client, h.mode, h.limit⟩

end

/-! ### A route that gets a client certificate -/

/-- A route to a TLS upstream. -/
def tlsRoute (mtls : Option RouteMtlsConfig) : RouteConfig :=
  { RouteConfig.plain "all" "/" "https://a" with mtls, upstreamTls := true }

/-- The route with a client certificate. -/
def securedRoute : RouteConfig := tlsRoute (some
  { enabled := true
    caFile := some "ca.pem"
    clientCertFile := some "client.pem"
    clientKeyFile := some "client-key.pem" })

theorem validate_tlsRoute (mtls : Option RouteMtlsConfig) :
    (minimalConfig [tlsRoute mtls]).validate = .ok () :=
  GatewayConfig.validate_eq_ok.mpr (by
    simp [minimalConfig, tlsRoute, RouteConfig.plain, RouteConfig.Valid])

theorem matchRoute_securedRoute :
    (RouteMatcher.new asciiCases [securedRoute]).matchRoute asciiCases "/" "GET"
      = some (Route.ofConfig asciiCases securedRoute, "/") := by
  rw [RouteMatcher.new_singleton]
  rfl

/-- The route moved to another upstream, with a limit and a signature mode of its own. -/
def movedRoute : RouteConfig :=
  { securedRoute with
    upstream := "https://b"
    rateLimit := some { requests := 5, windowSeconds := 1 }
    signatureMode := some "hybrid" }

/-- The route moved, and other defaults than the gateway was started with. -/
def movedConfig : GatewayConfig :=
  { minimalConfig [movedRoute] with
    signatures := { defaultMode := "post-quantum" }
    rateLimit := { enabled := true, defaultRequests := 10, defaultWindowSeconds := 1 } }

/-- A reload that moves a route and changes the defaults that it overrides does as a restart
would. -/
theorem reload_moved_eq_restart :
    ∃ state fresh,
      ProxyState.new plainProxyCrates none plainStart (minimalConfig [securedRoute]) = .ok state ∧
      ProxyState.new plainProxyCrates none plainStart movedConfig = .ok fresh ∧
      ∀ path method,
        (state.reloadConfig asciiCases movedConfig).select asciiCases path method
          = fresh.select asciiCases path method := by
  obtain ⟨state, hold⟩ := exists_plain_start (minimalConfig [securedRoute]) rfl
  obtain ⟨fresh, hnew⟩ := exists_plain_start movedConfig rfl
  refine ⟨state, fresh, hold, hnew, (reload_eq_restart_iff hold hnew).mpr ?_⟩
  intro path method route upstreamPath hmatch
  obtain ⟨cfg, hcfg, rfl⟩ := RouteMatcher.mem_of_matchRoute hmatch
  obtain rfl := List.mem_singleton.mp hcfg
  exact ⟨rfl, .inr (.inl rfl), fun _ => .inl rfl⟩

/-- **A client certificate missed**: a reload that gives a route mTLS leaves its requests to be sent
without the certificate that a restart would send them with. -/
theorem reload_misses_mtls :
    ∃ state fresh, (minimalConfig [tlsRoute none]).validate = .ok () ∧
      (minimalConfig [securedRoute]).validate = .ok () ∧
      ProxyState.new plainProxyCrates none plainStart (minimalConfig [tlsRoute none]) = .ok state ∧
      ProxyState.new plainProxyCrates none plainStart (minimalConfig [securedRoute]) = .ok fresh ∧
      (state.reloadConfig asciiCases (minimalConfig [securedRoute])).select asciiCases "/" "GET"
        ≠ fresh.select asciiCases "/" "GET" := by
  obtain ⟨state, hold⟩ := exists_plain_start (minimalConfig [tlsRoute none]) rfl
  obtain ⟨fresh, hnew⟩ := exists_plain_start (minimalConfig [securedRoute]) rfl
  refine ⟨state, fresh, validate_tlsRoute _, validate_tlsRoute _, hold, hnew, fun hsame => ?_⟩
  obtain ⟨_, -, rfl⟩ := ProxyState.new_eq_ok.mp hold
  obtain ⟨_, -, rfl⟩ := ProxyState.new_eq_ok.mp hnew
  have hclient := ((select_eq_iff asciiCases (by rfl) "/" "GET").mp hsame _ _
    matchRoute_securedRoute).1
  rw [clientFor_eq_iff] at hclient
  simp only [ProxyState.reloadConfig, get_buildMtlsClients] at hclient
  have hnone : lastMtls plainTls (minimalConfig [tlsRoute none]).routes "all" = none := rfl
  have hsome : (lastMtls plainTls (minimalConfig [securedRoute]).routes "all").isSome := rfl
  have hmissed : none = lastMtls plainTls (minimalConfig [securedRoute]).routes "all" :=
    hnone.symm.trans hclient
  rw [← hmissed] at hsome
  cases hsome

end PqcGateway
