import PqcGateway.Limit.Eviction
import PqcGateway.Machinery.Jobs
import PqcGateway.Proxy.Metrics
import PqcGateway.Proxy.Pipeline
import PqcGateway.Breaker.Recovery
import PqcGateway.Routing.LoadBalancer

/-!
# Proxy/Running — the gateway while requests run

    requests ──┬─▸ proxyHandler ─▸ ┐
               ├─▸ proxyHandler ─▸ ├── limiter, balancer, breakers, keys, metrics, configuration
               └─▸ proxyHandler ─▸ ┘        ▴ reload, health checks, cleanups, rotation

Any number of requests run at the same time, and each call that one of them makes is a step.
Between two steps the other tasks of the gateway move the state: a reload registers upstreams and
stores a matcher and a configuration, a health check reports, the limiter is cleaned, the keys are
rotated.  A client may go away, and its request is dropped where it stands.

* `requests_stand` — every request stands in a phase of `Pipeline`.
* `run_breaker`, `run_limiter`, `run_metrics` — the circuit breakers, the rate limiter and the
  metrics run by themselves, on the calls of all requests together.
-/

namespace PqcGateway

open Program

/-! ## What requests share -/

/-- What requests share. -/
structure RunningGateway (X : HandlerCrates) extends ProxyState X.tls where
  loadBalancer : LoadBalancer
  signatureKeyManager : SignatureKeyManager X.signatures
  metrics : GatewayMetrics

/-- What the outside delivers when a call is made: the time in nanoseconds, what a request that is
sent comes to, the milliseconds since a request came in, and what reading a body comes to. -/
structure Delivery where
  now : ℕ
  outcome : SendOutcome
  elapsedMs : ℕ
  body : Except String (List UInt8)

/-- The time in seconds. -/
def seconds (now : ℕ) : ℚ := now / 10 ^ 9

/-- The call on the metrics. -/
def MetricsRecord.call : MetricsRecord → MetricsCall
  | .rateLimitRejection => .recordRateLimitRejection
  | .circuitBreakerRejection => .recordCircuitBreakerRejection
  | .upstreamFailure => .recordUpstreamFailure
  | .request routeId method status durationMs =>
    .recordRequest routeId method (UInt16.ofNat status) (UInt64.ofNat durationMs)

/-- A step of a task other than a request. -/
inductive GatewayMove (X : HandlerCrates)
  | registerUpstream (upstream : String)
  | storeMatcher (routes : List RouteConfig)
  | storeConfig (config : GatewayConfig)
  | updateHealth (now : ℕ) (upstream : String) (healthy : Bool)
  | cleanup (now : ℕ)
  | rotate (draw : RotateDraw X.mlDsa)

section

variable (X : HandlerCrates)

/-- How the state answers a call of a request. -/
def RunningGateway.serve (d : Delivery) : (c : HandlerCall X) → RunningGateway X →
    Checked (RunningGateway X × c.Answer)
  | .loadConfig, g => pure (g, g.config)
  | .loadMatcher, g => pure (g, g.matcher)
  | .checkLimit key routeLimit, g =>
    let (rateLimiter, result) := g.rateLimiter.check (seconds d.now) key routeLimit
    pure ({ g with rateLimiter }, result)
  | .nextUpstream upstreams, g => do
    let (loadBalancer, upstream) ← g.loadBalancer.nextUpstream upstreams
    pure ({ g with loadBalancer }, upstream)
  | .checkRequest upstream, g => do
    let (circuitBreaker, result) ← g.circuitBreaker.checkRequest d.now upstream
    pure ({ g with circuitBreaker }, result)
  | .mtlsClient routeId, g => pure (g, g.mtlsClients.get routeId)
  | .send _ _ _, g => pure (g, d.outcome)
  | .recordSuccess upstream, g =>
    pure ({ g with circuitBreaker := g.circuitBreaker.recordSuccess d.now upstream }, ())
  | .recordFailure upstream, g => do
    let circuitBreaker ← g.circuitBreaker.recordFailure d.now upstream
    pure ({ g with circuitBreaker }, ())
  | .elapsedMs, g => pure (g, d.elapsedMs)
  | .metrics record, g => pure ({ g with metrics := g.metrics.call record.call }, ())
  | .readBody, g => pure (g, d.body)
  | .sign mode body, g => do
    let output ← g.signatureKeyManager.sign mode body
    pure (g, output)
  | .signBody body headers, g =>
    pure (g, signResponseBody X.toGatewayCrates g.versionedKeyManager body headers)

/-- How another task moves the state. -/
def RunningGateway.move : GatewayMove X → RunningGateway X → Checked (RunningGateway X)
  | .registerUpstream upstream, g =>
    pure { g with circuitBreaker := g.circuitBreaker.registerUpstream upstream none }
  | .storeMatcher routes, g => pure { g with matcher := RouteMatcher.new X.unicode routes }
  | .storeConfig config, g => pure { g with config }
  | .updateHealth now upstream healthy, g => do
    let circuitBreaker ← g.circuitBreaker.updateHealth now upstream healthy
    pure { g with circuitBreaker }
  | .cleanup now, g => pure { g with rateLimiter := g.rateLimiter.cleanup (seconds now) cleanupAge }
  | .rotate draw, g => do
    let (versionedKeyManager, _) ← g.versionedKeyManager.rotate X.mlDsa X.sha256 draw
    pure { g with versionedKeyManager }

/-- **The gateway while requests run.** -/
def gatewayServer (settings : SigningSettings) :
    Server ProxyRequest (RunningGateway X) Delivery (GatewayMove X) (@HandlerCall.Answer X)
      HandlerAnswer where
  code := proxyHandler X settings
  serve := RunningGateway.serve X
  move := RunningGateway.move X

end

/-- A request that is being handled, or was. -/
abbrev Request (X : HandlerCrates) : Type :=
  Job ProxyRequest (@HandlerCall.Answer X) HandlerAnswer

/-- What happens to the gateway. -/
abbrev RunEvent (X : HandlerCrates) : Type := JobEvent ProxyRequest Delivery (GatewayMove X)

/-- What has happened to it. -/
abbrev RunReport (X : HandlerCrates) : Type :=
  JobReport Delivery (GatewayMove X) (@HandlerCall.Answer X)

/-- The gateway, and all requests it was sent. -/
abbrev Serving (X : HandlerCrates) : Type :=
  Jobs ProxyRequest (RunningGateway X) (@HandlerCall.Answer X) HandlerAnswer

/-- When it happens, if it reads the clock. -/
def RunEvent.time? {X : HandlerCrates} : RunEvent X → Option ℕ
  | .advance _ d => some d.now
  | .move (.updateHealth now _ _) => some now
  | .move (.cleanup now) => some now
  | _ => none

/-- The clock never goes back. -/
def OnTime {X : HandlerCrates} (events : List (RunEvent X)) : Prop :=
  (events.filterMap RunEvent.time?).Pairwise (· ≤ ·)


/-! ## Each component by itself

A component sees its own calls only, whoever makes them, so what is proved of it alone holds in the
gateway. -/

section

variable {X : HandlerCrates}

/-- The calls of the circuit breakers, and what they answered. -/
def breakerCalls : RunReport X → List (BreakerCall × BreakerAnswer)
  | .served _ d ⟨.checkRequest upstream, result⟩ =>
    [(.checkRequest d.now upstream, .checked result)]
  | .served _ d ⟨.recordSuccess upstream, _⟩ => [(.recordSuccess d.now upstream, .done)]
  | .served _ d ⟨.recordFailure upstream, _⟩ => [(.recordFailure d.now upstream, .done)]
  | .moved (.registerUpstream upstream) => [(.registerUpstream upstream none, .done)]
  | .moved (.updateHealth now upstream healthy) => [(.updateHealth now upstream healthy, .done)]
  | _ => []

/-- The checks and the cleanups of the rate limiter, and what they answered. -/
def limiterCalls : RunReport X → List (LimiterEvent × Option RateLimitResult)
  | .served _ d ⟨.checkLimit key routeLimit, result⟩ =>
    [(.check ⟨seconds d.now, key, routeLimit⟩, some result)]
  | .moved (.cleanup now) => [(.cleanup (seconds now), none)]
  | _ => []

/-- The calls of the metrics. -/
def metricsCalls : RunReport X → List (MetricsCall × Unit)
  | .served _ _ ⟨.metrics record, _⟩ => [(record.call, ())]
  | _ => []

/-- The metrics, one call at a time. -/
def metricsMachine : Machine GatewayMetrics MetricsCall Unit where
  step m call := pure (m.call call, ())

/-- **Each component makes its calls.** -/
structure Components (report : RunReport X) (g g' : RunningGateway X) : Prop where
  breaker : breakerMachine.run g.circuitBreaker ((breakerCalls report).map Prod.fst)
    = .ok (g'.circuitBreaker, (breakerCalls report).map Prod.snd)
  limiter : cleanedMachine.run g.rateLimiter ((limiterCalls report).map Prod.fst)
    = .ok (g'.rateLimiter, (limiterCalls report).map Prod.snd)
  metrics : metricsMachine.run g.metrics ((metricsCalls report).map Prod.fst)
    = .ok (g'.metrics, (metricsCalls report).map Prod.snd)

/-- What a call of a request makes of the components. -/
theorem components_serve (id : ℕ) {d : Delivery} {call : HandlerCall X} {g g' : RunningGateway X}
    {answer : call.Answer} (h : RunningGateway.serve X d call g = .ok (g', answer)) :
    Components (.served id d ⟨call, answer⟩) g g' := by
  cases call with
  | nextUpstream upstreams =>
    obtain ⟨_, -, h⟩ := Checked.bind_eq_ok.mp h
    obtain ⟨rfl, -⟩ := Prod.mk.inj (Except.ok.inj h)
    exact ⟨rfl, rfl, rfl⟩
  | checkRequest upstream =>
    obtain ⟨⟨mgr, result⟩, hcheck, h⟩ := Checked.bind_eq_ok.mp h
    obtain ⟨rfl, rfl⟩ := Prod.mk.inj (Except.ok.inj h)
    exact ⟨breakerMachine.run_concat (breakerMachine.run_nil _)
      (Checked.bind_eq_ok.mpr ⟨_, hcheck, rfl⟩), rfl, rfl⟩
  | recordFailure upstream =>
    obtain ⟨mgr, hfailure, h⟩ := Checked.bind_eq_ok.mp h
    obtain ⟨rfl, -⟩ := Prod.mk.inj (Except.ok.inj h)
    exact ⟨breakerMachine.run_concat (breakerMachine.run_nil _)
      (Checked.bind_eq_ok.mpr ⟨_, hfailure, rfl⟩), rfl, rfl⟩
  | sign mode body =>
    obtain ⟨_, -, h⟩ := Checked.bind_eq_ok.mp h
    obtain ⟨rfl, -⟩ := Prod.mk.inj (Except.ok.inj h)
    exact ⟨rfl, rfl, rfl⟩
  | _ =>
    obtain ⟨rfl, rfl⟩ := Prod.mk.inj (Except.ok.inj h)
    exact ⟨rfl, rfl, rfl⟩

/-- What another task makes of the components. -/
theorem components_move {moved : GatewayMove X} {g g' : RunningGateway X}
    (h : RunningGateway.move X moved g = .ok g') : Components (.moved moved) g g' := by
  cases moved with
  | updateHealth now upstream healthy =>
    obtain ⟨mgr, hhealth, h⟩ := Checked.bind_eq_ok.mp h
    obtain rfl := Except.ok.inj h
    exact ⟨breakerMachine.run_concat (breakerMachine.run_nil _)
      (Checked.bind_eq_ok.mpr ⟨_, hhealth, rfl⟩), rfl, rfl⟩
  | rotate draw =>
    obtain ⟨_, -, h⟩ := Checked.bind_eq_ok.mp h
    obtain rfl := Except.ok.inj h
    exact ⟨rfl, rfl, rfl⟩
  | _ =>
    obtain rfl := Except.ok.inj h
    exact ⟨rfl, rfl, rfl⟩

variable {settings : SigningSettings} {s t : Serving X} {events : List (RunEvent X)}
  {reports : List (RunReport X)}

/-- **The circuit breakers run by themselves**, on the calls of all requests together. -/
theorem run_breaker (hrun : (gatewayServer X settings).machine.run s events = .ok (t, reports)) :
    breakerMachine.run s.shared.circuitBreaker ((reports.flatMap breakerCalls).map Prod.fst)
      = .ok (t.shared.circuitBreaker, (reports.flatMap breakerCalls).map Prod.snd) :=
  Server.run_component breakerMachine (π := fun g : RunningGateway X => g.circuitBreaker) rfl
    (fun id _ _ _ _ _ h => (components_serve id h).breaker)
    (fun _ _ _ h => (components_move h).breaker) hrun

/-- **The rate limiter runs by itself**, under its background task. -/
theorem run_limiter (hrun : (gatewayServer X settings).machine.run s events = .ok (t, reports)) :
    cleanedMachine.run s.shared.rateLimiter ((reports.flatMap limiterCalls).map Prod.fst)
      = .ok (t.shared.rateLimiter, (reports.flatMap limiterCalls).map Prod.snd) :=
  Server.run_component cleanedMachine (π := fun g : RunningGateway X => g.rateLimiter) rfl
    (fun id _ _ _ _ _ h => (components_serve id h).limiter)
    (fun _ _ _ h => (components_move h).limiter) hrun

/-- The request stands in the phase. -/
structure InPhase (X : HandlerCrates) (settings : SigningSettings) (request : Request X)
    (phase : HandlerPhase) : Prop where
  leads : (Pipeline X settings request.request).Leads .fresh request.trace phase
  follows : request.rest.Follows (Pipeline X settings request.request)
    (HandlerPhase.Answers X request.request) phase

/-- **Every request stands in a phase**, whatever has happened. -/
theorem requests_stand {shared : RunningGateway X}
    (hrun : (gatewayServer X settings).machine.run (Server.start shared) events
      = .ok (t, reports)) :
    ∀ request ∈ t.jobs, ∃ phase, InPhase X settings request phase := by
  intro request hrequest
  have hstands := Server.run_stands (fun _ h => absurd h List.not_mem_nil) hrun request hrequest
  obtain ⟨phase, hleads, hfollows⟩ := follows_proxyHandler.reaches hstands
  exact ⟨phase, hleads, hfollows⟩

/-! ## The start -/

/-- The gateway as it starts. -/
structure Launched (X : HandlerCrates) (env : Option String) (draw : StartDraw X.mlDsa)
    (config : GatewayConfig) (g : RunningGateway X) : Prop where
  state : ProxyState.new ⟨X.mlDsa, X.sha256, X.tls, X.unicode⟩ env draw config
    = .ok g.toProxyState
  loadBalancer : g.loadBalancer = .new
  metrics : g.metrics = .new

/-- The registrations of a matcher's upstreams, in order. -/
def registrations (matcher : RouteMatcher) : List BreakerCall :=
  matcher.routes.flatMap fun route => route.upstreams.map fun upstream =>
    .registerUpstream upstream none

theorem run_registrations (matcher : RouteMatcher) (breaker : CircuitBreakerManager) :
    ∃ answers, breakerMachine.run breaker (registrations matcher)
      = .ok (registerUpstreams matcher breaker, answers) := by
  have hroute : ∀ (upstreams : List String) (breaker : CircuitBreakerManager), ∃ answers,
      breakerMachine.run breaker (upstreams.map fun upstream => .registerUpstream upstream none)
        = .ok (upstreams.foldl (fun breaker upstream => breaker.registerUpstream upstream none)
            breaker, answers) := by
    intro upstreams
    induction upstreams with
    | nil => exact fun breaker => ⟨[], rfl⟩
    | cons upstream upstreams ih =>
      intro breaker
      obtain ⟨answers, hrest⟩ := ih (breaker.registerUpstream upstream none)
      exact ⟨_, breakerMachine.run_cons_eq_ok.mpr ⟨_, .done, answers, rfl, hrest, rfl⟩⟩
  rw [registerUpstreams, registrations]
  induction matcher.routes generalizing breaker with
  | nil => exact ⟨[], rfl⟩
  | cons route routes ih =>
    obtain ⟨answers, hfirst⟩ := hroute route.upstreams breaker
    obtain ⟨answers', hrest⟩ := ih (route.upstreams.foldl
      (fun breaker upstream => breaker.registerUpstream upstream none) breaker)
    exact ⟨_, breakerMachine.run_append_eq_ok.mpr ⟨_, answers, answers', hfirst, hrest, rfl⟩⟩

variable {env : Option String} {draw : StartDraw X.mlDsa} {config : GatewayConfig}
  {g : RunningGateway X}

/-- **The circuit breakers from the start on**: the registrations, then what requests and health
checks call. -/
theorem launched_breaker (hlaunch : Launched X env draw config g)
    (hrun : (gatewayServer X settings).machine.run (Server.start g) events = .ok (t, reports)) :
    ∃ answers, breakerMachine.run (.new config.circuitBreaker.toConfig)
        (registrations (RouteMatcher.new X.unicode config.routes)
          ++ (reports.flatMap breakerCalls).map Prod.fst)
      = .ok (t.shared.circuitBreaker, answers) := by
  obtain ⟨keys, -, hstate⟩ := ProxyState.new_eq_ok.mp hlaunch.state
  obtain ⟨answers, hregister⟩ := run_registrations (RouteMatcher.new X.unicode config.routes)
    (.new config.circuitBreaker.toConfig)
  have hbreaker : g.circuitBreaker = registerUpstreams (RouteMatcher.new X.unicode config.routes)
      (.new config.circuitBreaker.toConfig) := congrArg ProxyState.circuitBreaker hstate
  rw [← hbreaker] at hregister
  exact ⟨_, breakerMachine.run_append_eq_ok.mpr
    ⟨_, answers, _, hregister, run_breaker hrun, rfl⟩⟩

/-! ## What is loaded

A reload's two stores are two events, so configuration and matcher are spoken of apart. -/

/-- The configuration was there at the start, or was stored since. -/
def ConfigOf (config : GatewayConfig) (events : List (RunEvent X)) (c : GatewayConfig) : Prop :=
  c = config ∨ .move (.storeConfig c) ∈ events

/-- The routes were there at the start, or were stored since. -/
def RoutesOf (config : GatewayConfig) (events : List (RunEvent X)) (routes : List RouteConfig) :
    Prop :=
  routes = config.routes ∨ .move (.storeMatcher routes) ∈ events

/-- What is loaded was there at the start, or was stored since. -/
def Loaded (config : GatewayConfig) (events : List (RunEvent X)) :
    Exchange (@HandlerCall.Answer X) → Prop
  | ⟨.loadConfig, c⟩ => ConfigOf config events c
  | ⟨.loadMatcher, matcher⟩ =>
    ∃ routes, RoutesOf config events routes ∧ matcher = RouteMatcher.new X.unicode routes
  | _ => True

/-- No request changes what is loaded. -/
theorem stored_serve {d : Delivery} {call : HandlerCall X} {g g' : RunningGateway X}
    {answer : call.Answer} (h : RunningGateway.serve X d call g = .ok (g', answer)) :
    g'.config = g.config ∧ g'.matcher = g.matcher := by
  cases call with
  | nextUpstream upstreams | checkRequest upstream | recordFailure upstream | sign mode body =>
    obtain ⟨_, -, h⟩ := Checked.bind_eq_ok.mp h
    obtain ⟨rfl, -⟩ := Prod.mk.inj (Except.ok.inj h)
    exact ⟨rfl, rfl⟩
  | _ =>
    obtain ⟨rfl, -⟩ := Prod.mk.inj (Except.ok.inj h)
    exact ⟨rfl, rfl⟩

theorem loaded_serve {d : Delivery} {call : HandlerCall X} {g g' : RunningGateway X}
    {answer : call.Answer} (h : RunningGateway.serve X d call g = .ok (g', answer))
    (hconfig : ConfigOf config events g.config)
    (hmatcher : ∃ routes, RoutesOf config events routes ∧
      g.matcher = RouteMatcher.new X.unicode routes) : Loaded config events ⟨call, answer⟩ := by
  cases call with
  | loadConfig =>
    obtain ⟨-, rfl⟩ := Prod.mk.inj (Except.ok.inj h)
    exact hconfig
  | loadMatcher =>
    obtain ⟨-, rfl⟩ := Prod.mk.inj (Except.ok.inj h)
    exact hmatcher
  | _ => trivial

/-- The gateway has a configuration and a matcher that were there at the start or stored since. -/
def Loads (config : GatewayConfig) (events : List (RunEvent X)) (g : RunningGateway X) : Prop :=
  ConfigOf config events g.config ∧
    ∃ routes, RoutesOf config events routes ∧ g.matcher = RouteMatcher.new X.unicode routes

theorem loads_serve (d : Delivery) (call : HandlerCall X) (g g' : RunningGateway X)
    (answer : call.Answer) (hloads : Loads config events g)
    (h : RunningGateway.serve X d call g = .ok (g', answer)) :
    Loads config events g' ∧ Loaded config events ⟨call, answer⟩ := by
  obtain ⟨hconfig, hmatcher⟩ := hloads
  obtain ⟨hconfig', hmatcher'⟩ := stored_serve h
  exact ⟨⟨hconfig' ▸ hconfig, hmatcher' ▸ hmatcher⟩, loaded_serve h hconfig hmatcher⟩

theorem loads_move (moved : GatewayMove X) (g g' : RunningGateway X)
    (hmem : .move moved ∈ events) (hloads : Loads config events g)
    (h : RunningGateway.move X moved g = .ok g') : Loads config events g' := by
  obtain ⟨hconfig, hmatcher⟩ := hloads
  cases moved with
  | updateHealth now upstream healthy =>
    obtain ⟨_, -, h⟩ := Checked.bind_eq_ok.mp h
    obtain rfl := Except.ok.inj h
    exact ⟨hconfig, hmatcher⟩
  | rotate draw =>
    obtain ⟨_, -, h⟩ := Checked.bind_eq_ok.mp h
    obtain rfl := Except.ok.inj h
    exact ⟨hconfig, hmatcher⟩
  | storeMatcher routes =>
    obtain rfl := Except.ok.inj h
    exact ⟨hconfig, routes, .inr hmem, rfl⟩
  | storeConfig config' =>
    obtain rfl := Except.ok.inj h
    exact ⟨.inr hmem, hmatcher⟩
  | _ =>
    obtain rfl := Except.ok.inj h
    exact ⟨hconfig, hmatcher⟩

/-- **Every request is handled under a configuration and by a matcher that were there** at the start
or stored since. -/
theorem run_loaded (hlaunch : Launched X env draw config g)
    (hrun : (gatewayServer X settings).machine.run (Server.start g) events = .ok (t, reports)) :
    ∀ request ∈ t.jobs, ∀ e ∈ request.trace, Loaded config events e := by
  obtain ⟨keys, -, hstate⟩ := ProxyState.new_eq_ok.mp hlaunch.state
  exact (Server.run_answers (I := Loads config events) loads_serve loads_move
    ⟨.inl (congrArg ProxyState.config hstate), config.routes, .inl rfl,
      congrArg ProxyState.matcher hstate⟩ (fun _ h => absurd h List.not_mem_nil) hrun).2

end

/-! ## A gateway to compute with -/

/-- A configuration with one route, a circuit breaker that one failure opens, and no rate limit. -/
def servingConfig : GatewayConfig :=
  { guardedConfig "http://a" with
    circuitBreaker := { CircuitBreakerFileConfig.default with failureThreshold := 1 }
    rateLimit := { enabled := false, defaultRequests := 100, defaultWindowSeconds := 60 } }

/-- The matcher of one route for everything. -/
def servingMatcher : RouteMatcher :=
  ⟨[.ofConfig asciiCases (RouteConfig.plain "all" "/" "http://a")]⟩

/-- A gateway with that route, this configuration and these keys. -/
def servingGateway (config : GatewayConfig) (keys : VersionedKeyManager) :
    RunningGateway (plainHandler plainTls) where
  matcher := servingMatcher
  config
  defaultSignatureMode := config.signatures.mode asciiCases
  envSignatureMode := none
  versionedKeyManager := keys
  circuitBreaker := registerUpstreams servingMatcher (.new config.circuitBreaker.toConfig)
  rateLimiter := .new config.rateLimit.defaultRequests config.rateLimit.defaultWindowSeconds
  mtlsClients := EntryMap.new
  loadBalancer := .new
  signatureKeyManager := plainSigner
  metrics := .new

theorem exists_serving (config : GatewayConfig)
    (hroutes : config.routes = [RouteConfig.plain "all" "/" "http://a"])
    (hthreshold : config.threshold.enabled = false) :
    ∃ keys, Launched (plainHandler plainTls) none plainStart config
      (servingGateway config keys) := by
  obtain ⟨state, hstate⟩ := exists_plain_start config hthreshold
  obtain ⟨keys, -, hkeys⟩ := ProxyState.new_eq_ok.mp hstate
  refine ⟨keys, hstate.trans (congrArg _ ?_), rfl, rfl⟩
  rw [hkeys, hroutes, RouteMatcher.new_singleton]
  rfl

/-- The upstream does not answer in time. -/
def timesOut : Delivery := ⟨0, .timedOut, 1, .ok []⟩

/-- One request, to its end. -/
def oneRequest : List (RunEvent (plainHandler plainTls)) :=
  .start rootRequest :: List.replicate 10 (.advance 0 timesOut)

end PqcGateway
