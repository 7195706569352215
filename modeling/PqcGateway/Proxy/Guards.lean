import PqcGateway.Proxy.Destination
import PqcGateway.Proxy.Quota

/-!
# Proxy/Guards — what a request has passed when it is sent

    reload done ─▸ request ─▸ config ─▸ route ─▸ limiter? ─▸ upstream ─▸ breaker? ─▸ sent

Whether a request is limited, and whether a circuit breaker is asked, is decided by the one
configuration it loads.  After a reload that has returned, that is the new configuration or one that
was stored still later (`reload_effective`): no request that comes in then is sent by the old routes
or past a guard that the new configuration puts up.
-/

namespace PqcGateway

section

variable {X : HandlerCrates}

/-- What the exchanges before a phase show. -/
structure Guarded (req : ProxyRequest) (done : List (Exchange (@HandlerCall.Answer X)))
    (phase : HandlerPhase) : Prop where
  loaded : ∀ c ∈ phase.config?, ⟨.loadConfig, c⟩ ∈ done
  limited : ∀ route ∈ phase.limited?, (∀ c ∈ phase.config?, c.rateLimit.enabled = true) →
    ⟨.checkLimit (req.limitKey route) route.rateLimit, RateLimitResult.allowed⟩ ∈ done
  admitted : ∀ h ∈ phase.admitted?, h.config.circuitBreaker.enabled = true →
    ∃ checked : Except CircuitState Unit, checked ≠ .error .opened ∧
      ⟨.checkRequest h.upstream, checked⟩ ∈ done

variable {settings : SigningSettings} {req : ProxyRequest} {phase phase' : HandlerPhase}
  {e : Exchange (@HandlerCall.Answer X)} {done : List (Exchange (@HandlerCall.Answer X))}

theorem guarded_fresh : Guarded req ([] : List (Exchange (@HandlerCall.Answer X))) .fresh where
  loaded c hc := absurd hc (Option.not_mem_none c)
  limited route hroute := absurd hroute (Option.not_mem_none route)
  admitted h hh := absurd hh (Option.not_mem_none h)

/-- Where the phase keeps its handling, later exchanges change nothing. -/
theorem Guarded.mono (h : Guarded req done phase) (e : Exchange (@HandlerCall.Answer X))
    (hconfig : phase'.config? = phase.config?) (hlimited : phase'.limited? = phase.limited?)
    (hadmitted : phase'.admitted? = phase.admitted?) : Guarded req (done ++ [e]) phase' where
  loaded c hc := List.mem_append_left _ (h.loaded c (hconfig ▸ hc))
  limited route hroute hon := List.mem_append_left _
    (h.limited route (hlimited ▸ hroute) fun c hc => hon c (hconfig ▸ hc))
  admitted handling hhandling hon := by
    obtain ⟨checked, hchecked, hmem⟩ := h.admitted handling (hadmitted ▸ hhandling) hon
    exact ⟨checked, hchecked, List.mem_append_left _ hmem⟩

theorem guarded_next (h : Guarded req done phase) (hstep : Pipeline X settings req phase e phase') :
    Guarded req (done ++ [e]) phase' := by
  have hlast : e ∈ done ++ [e] := List.mem_append_right _ (List.mem_singleton_self e)
  cases hstep with
  | loadConfig c =>
    refine ⟨?_, fun route hroute => absurd hroute (Option.not_mem_none route),
      fun h hh => absurd hh (Option.not_mem_none h)⟩
    rintro _ ⟨⟩
    exact hlast
  | noRoute | throttle | countThrottled =>
    exact ⟨fun c hc => absurd hc (Option.not_mem_none c),
      fun route hroute => absurd hroute (Option.not_mem_none route),
      fun h hh => absurd hh (Option.not_mem_none h)⟩
  | @route config matcher found path hmatch =>
    have hconfig := h.loaded config rfl
    split
    · exact h.mono _ rfl rfl rfl
    · rename_i hoff
      refine ⟨fun c hc => List.mem_append_left _ (h.loaded c hc), ?_,
        fun h hh => absurd hh (Option.not_mem_none h)⟩
      exact fun route hroute hon => absurd (hon config rfl) hoff
  | allow =>
    refine ⟨fun c hc => List.mem_append_left _ (h.loaded c hc), ?_,
      fun h hh => absurd hh (Option.not_mem_none h)⟩
    rintro _ ⟨⟩ -
    exact hlast
  | pick upstream =>
    split
    · exact h.mono _ rfl rfl rfl
    · rename_i hoff
      refine ⟨(h.mono _ rfl rfl rfl).loaded, (h.mono _ rfl rfl rfl).limited, ?_⟩
      rintro _ ⟨⟩ hon
      exact absurd hon hoff
  | letIn checked hadmits =>
    refine ⟨(h.mono _ rfl rfl rfl).loaded, (h.mono _ rfl rfl rfl).limited, ?_⟩
    rintro _ ⟨⟩ -
    exact ⟨checked, hadmits, hlast⟩
  | send client huri outcome => split <;> exact h.mono _ rfl rfl rfl
  | _ => exact h.mono _ rfl rfl rfl

/-! ## What was stored last

A reload stores its matcher before its configuration, so once it is done both are its own, or later
ones. -/

/-- The configuration that the event stores, if it does. -/
def RunEvent.storedConfig? : RunEvent X → Option GatewayConfig
  | .move (.storeConfig c) => some c
  | _ => none

/-- The routes whose matcher the event stores, if it does. -/
def RunEvent.storedRoutes? : RunEvent X → Option (List RouteConfig)
  | .move (.storeMatcher routes) => some routes
  | _ => none

variable {s t : Serving X} {events before after : List (RunEvent X)}
  {reports reports' : List (RunReport X)} {env : Option String} {draw : StartDraw X.mlDsa}
  {config c : GatewayConfig} {g : RunningGateway X}

/-- Only a store changes the configuration or the matcher. -/
theorem stored_step {event : RunEvent X} {report : RunReport X}
    (h : (gatewayServer X settings).machine.step s event = .ok (t, report)) :
    t.shared.config = (RunEvent.storedConfig? event).getD s.shared.config ∧
      t.shared.matcher = ((RunEvent.storedRoutes? event).map (RouteMatcher.new X.unicode)).getD
        s.shared.matcher := by
  cases event with
  | move moved =>
    obtain ⟨shared, hmove, h⟩ := Checked.bind_eq_ok.mp h
    obtain ⟨rfl, -⟩ := Prod.mk.inj (Except.ok.inj h)
    cases moved with
    | updateHealth now upstream healthy | rotate draw =>
      obtain ⟨_, -, hmove⟩ := Checked.bind_eq_ok.mp hmove
      obtain rfl := Except.ok.inj hmove
      exact ⟨rfl, rfl⟩
    | _ =>
      obtain rfl := Except.ok.inj hmove
      exact ⟨rfl, rfl⟩
  | _ =>
    obtain ⟨request, -, -, rfl⟩ | ⟨id, d, job, call, next, answer, shared, -, -, -, -, hserve, -,
      rfl⟩ | ⟨id, job, -, -, -, rfl⟩ | ⟨moved, shared, hmoved, -⟩ | ⟨-, rfl⟩ :=
      Server.step_cases h
    · exact ⟨rfl, rfl⟩
    · exact stored_serve hserve
    · exact ⟨rfl, rfl⟩
    · cases hmoved
    · exact ⟨rfl, rfl⟩

/-- **What is stored is what was stored last.** -/
theorem run_stored (hlaunch : Launched X env draw config g)
    (hrun : (gatewayServer X settings).machine.run (Server.start g) events = .ok (t, reports)) :
    t.shared.config = ((events.filterMap RunEvent.storedConfig?).getLast?).getD config ∧
      t.shared.matcher = RouteMatcher.new X.unicode
        (((events.filterMap RunEvent.storedRoutes?).getLast?).getD config.routes) := by
  obtain ⟨keys, -, hstate⟩ := ProxyState.new_eq_ok.mp hlaunch.state
  refine (gatewayServer X settings).machine.run_history (I := fun events t =>
    t.shared.config = ((events.filterMap RunEvent.storedConfig?).getLast?).getD config ∧
      t.shared.matcher = RouteMatcher.new X.unicode
        (((events.filterMap RunEvent.storedRoutes?).getLast?).getD config.routes)) (h := []) ?_
    ⟨congrArg ProxyState.config hstate, congrArg ProxyState.matcher hstate⟩ hrun
  rintro events s₁ event s₂ report ⟨hconfig, hmatcher⟩ hstep
  obtain ⟨hconfig', hmatcher'⟩ := stored_step hstep
  rw [hconfig', hmatcher', hconfig, hmatcher, List.filterMap_append, List.filterMap_append,
    List.getLast?_append, List.getLast?_append]
  refine ⟨?_, ?_⟩
  · cases hevent : RunEvent.storedConfig? event <;> simp [hevent]
  · cases hevent : RunEvent.storedRoutes? event <;> simp [hevent]

/-- **A reload is effective.**  A request that comes in when the configuration stored last and the
routes stored last are those of `c` is sent by a route of `c`, or of routes stored still later; and
it has passed the rate limiter and the circuit breaker, where the configuration that it loaded, `c`
or one stored later, has them on. -/
theorem reload_effective (hlaunch : Launched X env draw config g)
    (hbefore : (gatewayServer X settings).machine.run (Server.start g) before = .ok (s, reports))
    (hconfig : (before.filterMap RunEvent.storedConfig?).getLast? = some c)
    (hroutes : (before.filterMap RunEvent.storedRoutes?).getLast? = some c.routes)
    (hafter : (gatewayServer X settings).machine.run s after = .ok (t, reports')) {id : ℕ}
    {request : Request X} (hid : s.jobs.length ≤ id) (hrequest : t.jobs[id]? = some request)
    {client : UpstreamClient X.tls} {timeoutMs : ℕ} {sent : UpstreamRequest X}
    {outcome : SendOutcome} (hsend : ⟨.send client timeoutMs sent, outcome⟩ ∈ request.trace) :
    ∃ loaded route path upstream uri, ConfigOf c after loaded ∧
      MatchedBy c after request.request (route, path) ∧ upstream ∈ route.upstreams ∧
      X.parseUri (upstreamUri upstream path request.request.query) = .ok uri ∧
      sent = upstreamRequest X route uri request.request ∧ timeoutMs = route.timeoutMs ∧
      (loaded.rateLimit.enabled = true →
        ⟨.checkLimit (request.request.limitKey route) route.rateLimit, RateLimitResult.allowed⟩
          ∈ request.trace) ∧
      (loaded.circuitBreaker.enabled = true → ∃ checked : Except CircuitState Unit,
        checked ≠ .error .opened ∧ ⟨.checkRequest upstream, checked⟩ ∈ request.trace) := by
  obtain ⟨hstored, hmatcher⟩ := run_stored hlaunch hbefore
  rw [hconfig, Option.getD_some] at hstored
  rw [hroutes, Option.getD_some] at hmatcher
  have hloads : Loads c after s.shared := ⟨.inl hstored, c.routes, .inl rfl, hmatcher⟩
  have hloaded := Server.run_answers_since (I := Loads c after) loads_serve loads_move hloads hafter
    hid hrequest
  have hrun := (gatewayServer X settings).machine.run_append_eq_ok.mpr
    ⟨s, reports, reports', hbefore, hafter, rfl⟩
  have hpicked := run_picked hrun request (List.mem_of_getElem? hrequest)
  obtain ⟨phase, hphase⟩ := requests_stand hrun request (List.mem_of_getElem? hrequest)
  -- the configuration, the destination and the guards of the phase that it is sent in
  obtain ⟨done, phase₁, phase₂, hprefix, ⟨hof, hdestined, hguarded⟩, hstep, -⟩ :=
    (hphase.leads.restrict fun e he => ⟨hloaded e he, hpicked e he⟩).exists_step_after (a := [])
      (I := fun done phase => (∀ loaded ∈ phase.config?, ConfigOf c after loaded) ∧
        Destined c after request.request phase ∧ Guarded request.request done phase)
      (fun done phase e phase' ⟨hof, hdestined, hguarded⟩ hstep =>
        ⟨config_next (fun _ h => h) hof ⟨hstep.1, hstep.2.1⟩, destined_next hdestined hstep,
          guarded_next hguarded hstep.1⟩)
      ⟨fun loaded (h : loaded ∈ HandlerPhase.fresh.config?) =>
        absurd h (Option.not_mem_none loaded), destined_fresh, guarded_fresh⟩ hsend
  rw [List.nil_append] at hguarded
  cases hstep with
  | @send handling uri client huri outcome =>
    refine ⟨handling.config, handling.route, handling.path, handling.upstream, uri, hof _ rfl,
      hdestined.route _ rfl, hdestined.upstream _ rfl, huri, rfl, rfl, fun hon => ?_, fun hon => ?_⟩
    · refine hprefix.subset (hguarded.limited _ rfl ?_)
      rintro _ ⟨⟩
      exact hon
    · obtain ⟨checked, hchecked, hmem⟩ := hguarded.admitted _ rfl hon
      exact ⟨checked, hchecked, hprefix.subset hmem⟩

end

/-! ## The breaker's threshold lowered -/

/-- The two stores of a reload. -/
def reloadServing : List (RunEvent (plainHandler plainTls)) :=
  [.move (.storeMatcher servingConfig.routes), .move (.storeConfig servingConfig)]

theorem run_reloadServing (keys : VersionedKeyManager) : ∃ s t reports reports' request,
    (gatewayServer (plainHandler plainTls) ⟨none, .classical⟩).machine.run
      (Server.start (servingGateway (guardedConfig "http://a") keys)) reloadServing
        = .ok (s, reports) ∧
    (gatewayServer (plainHandler plainTls) ⟨none, .classical⟩).machine.run s oneRequest
      = .ok (t, reports') ∧
    s.jobs = [] ∧ t.jobs[0]? = some request ∧ request.trace.any isSend = true := by
  have hmatcher : RouteMatcher.new asciiCases servingConfig.routes = servingMatcher :=
    RouteMatcher.new_singleton ..
  have hreload : ∃ reports, (gatewayServer (plainHandler plainTls) ⟨none, .classical⟩).machine.run
      (Server.start (servingGateway (guardedConfig "http://a") keys)) reloadServing
      = .ok (Server.start { servingGateway (guardedConfig "http://a") keys with
          matcher := RouteMatcher.new asciiCases servingConfig.routes
          config := servingConfig }, reports) := ⟨_, rfl⟩
  rw [hmatcher] at hreload
  obtain ⟨reports, hreload⟩ := hreload
  refine ⟨_, _, reports, _, _, hreload, rfl, rfl, rfl, ?_⟩
  rfl

/-- A request that comes in after the reload has asked the circuit breaker. -/
theorem reload_effective_timeout : ∃ g s t reports reports',
    Launched (plainHandler plainTls) none plainStart (guardedConfig "http://a") g ∧
    (gatewayServer (plainHandler plainTls) ⟨none, .classical⟩).machine.run (Server.start g)
      reloadServing = .ok (s, reports) ∧
    (gatewayServer (plainHandler plainTls) ⟨none, .classical⟩).machine.run s oneRequest
      = .ok (t, reports') ∧
    ∃ (request : Request (plainHandler plainTls)) (upstream : String)
      (checked : Except CircuitState Unit), t.jobs[0]? = some request ∧
      checked ≠ .error .opened ∧ ⟨.checkRequest upstream, checked⟩ ∈ request.trace := by
  obtain ⟨keys, hlaunch⟩ := exists_serving (guardedConfig "http://a") rfl rfl
  obtain ⟨s, t, reports, reports', request, hbefore, hafter, hjobs, hrequest, hany⟩ :=
    run_reloadServing keys
  obtain ⟨⟨call, outcome⟩, hmem, hsend⟩ := List.any_eq_true.mp hany
  cases call with
  | send client timeoutMs sent =>
    obtain ⟨loaded, route, path, upstream, uri, hof, -, -, -, -, -, -, hguarded⟩ :=
      reload_effective hlaunch hbefore rfl rfl hafter (by rw [hjobs]; exact Nat.zero_le _)
        hrequest hmem
    obtain rfl | hstored := hof
    · obtain ⟨checked, hchecked, hcheck⟩ := hguarded rfl
      exact ⟨_, s, t, reports, reports', hlaunch, hbefore, hafter, request, upstream, checked,
        hrequest, hchecked, hcheck⟩
    · simp [oneRequest] at hstored
  | _ => cases hsend

end PqcGateway
