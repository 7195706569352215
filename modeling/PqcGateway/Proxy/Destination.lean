import PqcGateway.Proxy.Shield

/-!
# Proxy/Destination — where requests may go

    routes stored ──▸ matcher ──▸ route, path ──▸ one of its upstreams ──▸ URI ──▸ sent, once

The handler loads the matcher once and everything it sends follows from the route found there.  So
in every run, reloads and all, a request goes to an upstream of a route that some stored list of
routes matches it to, on the path of that route, and it goes there once (`sent_configured`).

* `run_picked` — every request was given one of the upstreams it was to choose from.
* `sent_configured_moved` — two requests around a reload, each sent once to its own upstream.
-/

namespace PqcGateway

section

variable {X : HandlerCrates}

/-- The upstream is one of those to choose from. -/
def Picked : Exchange (@HandlerCall.Answer X) → Prop
  | ⟨.nextUpstream upstreams, upstream⟩ => upstream ∈ upstreams
  | _ => True

theorem mem_of_nextUpstream {lb lb' : LoadBalancer} {upstreams : List String} {upstream : String}
    (h : lb.nextUpstream upstreams = .ok (lb', upstream)) : upstream ∈ upstreams := by
  unfold LoadBalancer.nextUpstream at h
  split at h
  all_goals
    obtain ⟨u, hindex, h⟩ := Checked.bind_eq_ok.mp h
    obtain ⟨-, rfl⟩ := Prod.mk.inj (Except.ok.inj h)
    exact List.mem_of_getElem? (index_eq_ok.mp hindex)

/-- The load balancer picks one of the upstreams. -/
theorem picked_serve {d : Delivery} {call : HandlerCall X} {g g' : RunningGateway X}
    {answer : call.Answer} (h : RunningGateway.serve X d call g = .ok (g', answer)) :
    Picked ⟨call, answer⟩ := by
  cases call with
  | nextUpstream upstreams =>
    obtain ⟨⟨lb, upstream⟩, hnext, h⟩ := Checked.bind_eq_ok.mp h
    obtain ⟨-, rfl⟩ := Prod.mk.inj (Except.ok.inj h)
    exact mem_of_nextUpstream hnext
  | _ => trivial

/-! ## The route of a request

Once a request has its route, its phases keep it. -/

/-- The route and the path of a request, once it has them. -/
def HandlerPhase.route? : HandlerPhase → Option (Route × String)
  | .routed _ route path | .passed _ route path => some (route, path)
  | .picked h | .refused h | .refusedCounted h | .admitted h | .ready h | .sent h _ | .told h _
  | .failed h _ | .timed h _ _ | .counted h _ | .unread h _ _ | .unreadCounted h _ _ | .read h _ _
  | .signed h _ _ | .answered h _ _ => some (h.route, h.path)
  | _ => none

/-- A list of routes that was stored matches the request so. -/
def MatchedBy (config : GatewayConfig) (events : List (RunEvent X)) (req : ProxyRequest)
    (found : Route × String) : Prop :=
  ∃ routes, RoutesOf config events routes ∧
    (RouteMatcher.new X.unicode routes).matchRoute X.unicode req.path req.method = some found

/-- The request has its route from the matcher, and its upstream from the route. -/
structure Destined (config : GatewayConfig) (events : List (RunEvent X)) (req : ProxyRequest)
    (phase : HandlerPhase) : Prop where
  route : ∀ found ∈ phase.route?, MatchedBy config events req found
  upstream : ∀ h ∈ phase.picked?, h.upstream ∈ h.route.upstreams

section

variable {settings : SigningSettings} {req : ProxyRequest} {phase phase' : HandlerPhase}
  {e : Exchange (@HandlerCall.Answer X)} {config : GatewayConfig} {events : List (RunEvent X)}

theorem destined_fresh : Destined config events req .fresh :=
  ⟨fun found hfound => absurd hfound (Option.not_mem_none found),
    fun h hh => absurd hh (Option.not_mem_none h)⟩

theorem destined_next (hphase : Destined config events req phase)
    (h : Pipeline X settings req phase e phase' ∧ Loaded config events e ∧ Picked e) :
    Destined config events req phase' := by
  obtain ⟨h, hloaded, hpicked⟩ := h
  cases h with
  | loadConfig c | noRoute | throttle | countThrottled =>
    exact ⟨fun found hfound => absurd hfound (Option.not_mem_none found),
      fun h hh => absurd hh (Option.not_mem_none h)⟩
  | route matcher hmatch =>
    obtain ⟨routes, hroutes, rfl⟩ := hloaded
    split
    all_goals
      refine ⟨?_, fun h hh => absurd hh (Option.not_mem_none h)⟩
      rintro _ ⟨⟩
      exact ⟨routes, hroutes, hmatch⟩
  | pick upstream =>
    split
    all_goals
      refine ⟨hphase.route, ?_⟩
      rintro _ ⟨⟩
      exact hpicked
  | send client huri outcome => split <;> exact ⟨hphase.route, hphase.upstream⟩
  | _ => exact ⟨hphase.route, hphase.upstream⟩

end

variable {settings : SigningSettings} {t : Serving X} {events : List (RunEvent X)}
  {reports : List (RunReport X)} {env : Option String} {draw : StartDraw X.mlDsa}
  {config : GatewayConfig} {g : RunningGateway X}

/-- Every request was given one of the upstreams it was to choose from. -/
theorem run_picked
    (hrun : (gatewayServer X settings).machine.run (Server.start g) events = .ok (t, reports)) :
    ∀ request ∈ t.jobs, ∀ e ∈ request.trace, Picked e :=
  (Server.run_answers (I := fun _ => True) (fun _ _ _ _ _ _ h => ⟨trivial, picked_serve h⟩)
    (fun _ _ _ _ _ _ => trivial) trivial (fun _ h => absurd h List.not_mem_nil) hrun).2

/-- **Requests go where they are configured to go, and once.**  In every run a request is sent at
most once, and what is sent is its request on an upstream, the path and the timeout of a route that
the routes of the start, or routes stored in the run, match it to. -/
theorem sent_configured (hlaunch : Launched X env draw config g)
    (hrun : (gatewayServer X settings).machine.run (Server.start g) events = .ok (t, reports)) :
    ∀ request ∈ t.jobs, request.trace.countP isSend ≤ 1 ∧
      ∀ client timeoutMs sent outcome, ⟨.send client timeoutMs sent, outcome⟩ ∈ request.trace →
        ∃ route path upstream uri, MatchedBy config events request.request (route, path) ∧
          upstream ∈ route.upstreams ∧ timeoutMs = route.timeoutMs ∧
          X.parseUri (upstreamUri upstream path request.request.query) = .ok uri ∧
          sent = upstreamRequest X route uri request.request := by
  intro request hrequest
  obtain ⟨phase, hphase⟩ := requests_stand hrun request hrequest
  refine ⟨?_, fun client timeoutMs sent outcome hsend => ?_⟩
  · rw [hphase.countP (k := isSend) (f := fun phase => phase.sent?.isSome.toNat) rfl
      fun _ _ _ _ => send_next]
    exact Bool.toNat_le _
  · have hloaded := run_loaded hlaunch hrun request hrequest
    have hpicked := run_picked hrun request hrequest
    obtain ⟨phase₁, phase₂, hdestined, hstep, -⟩ :=
      (hphase.leads.restrict fun e he => ⟨hloaded e he, hpicked e he⟩).exists_step
        (I := Destined config events request.request) (fun _ _ _ => destined_next) destined_fresh
        hsend
    cases hstep with
    | send client huri outcome =>
      exact ⟨_, _, _, _, hdestined.route _ rfl, hdestined.upstream _ rfl, rfl, huri, rfl⟩

end

/-! ## A route that moves -/

/-- The one route, with another upstream. -/
def movedRoutes : List RouteConfig := [RouteConfig.plain "all" "/" "http://b"]

/-- Two requests, and between the first one's routing and the second's the routes are replaced. -/
def aroundReload : List (RunEvent (plainHandler plainTls)) :=
  (.start rootRequest :: List.replicate 3 (.advance 0 timesOut)) ++
    .move (.storeMatcher movedRoutes) :: .start rootRequest ::
      (List.replicate 3 (.advance 0 timesOut) ++ List.replicate 6 (.advance 1 timesOut))

theorem run_aroundReload (keys : VersionedKeyManager) : ∃ t reports,
    (gatewayServer (plainHandler plainTls) ⟨none, .classical⟩).machine.run
      (Server.start (servingGateway servingConfig keys)) aroundReload = .ok (t, reports) ∧
    t.jobs.map Job.request = [rootRequest, rootRequest] ∧
    t.jobs.map (fun request => request.trace.any isSend) = [true, true] := by
  let M := (gatewayServer (plainHandler plainTls) ⟨none, .classical⟩).machine
  have hmatcher : RouteMatcher.new asciiCases movedRoutes
      = ⟨[.ofConfig asciiCases (RouteConfig.plain "all" "/" "http://b")]⟩ :=
    RouteMatcher.new_singleton ..
  have hmove : ∀ s, M.step s (.move (.storeMatcher movedRoutes)) = .ok
      ({ s with shared := { s.shared with
          matcher := ⟨[.ofConfig asciiCases (RouteConfig.plain "all" "/" "http://b")]⟩ } },
        .moved (.storeMatcher movedRoutes)) := fun s => by
    rw [← hmatcher]
    rfl
  have hbefore : ∃ reports, M.run (Server.start (servingGateway servingConfig keys))
      (.start rootRequest :: List.replicate 3 (.advance 0 timesOut)) = .ok (_, reports) := ⟨_, rfl⟩
  obtain ⟨reports, hbefore⟩ := hbefore
  exact ⟨_, _, M.run_append_eq_ok.mpr ⟨_, _, _, hbefore, M.run_cons_eq_ok.mpr
    ⟨_, _, _, hmove _, rfl, rfl⟩, rfl⟩, rfl, rfl⟩

/-- A request for the root goes to the upstream of its route. -/
theorem uri_of_plain {route : Route} {path upstream base uri : String}
    (hmatch : (RouteMatcher.new asciiCases [RouteConfig.plain "all" "/" base]).matchRoute asciiCases
      rootRequest.path rootRequest.method = some (route, path))
    (hupstream : upstream ∈ route.upstreams)
    (huri : (plainHandler plainTls).parseUri (upstreamUri upstream path none) = .ok uri) :
    route.timeoutMs = 5000 ∧ uri = base ++ "/" := by
  obtain ⟨cfg, hcfg, hroute⟩ := RouteMatcher.mem_of_matchRoute hmatch
  obtain rfl := List.mem_singleton.mp hcfg
  obtain ⟨found, -, hfound⟩ := Option.map_eq_some_iff.mp hmatch
  obtain ⟨rfl, rfl⟩ := Prod.mk.inj hfound
  subst hroute
  obtain rfl := List.mem_singleton.mp hupstream
  simp only [plainHandler] at huri
  split_ifs at huri
  obtain rfl := Except.ok.inj huri
  exact ⟨rfl, String.append_empty⟩

/-- Each of the two is sent once, to the upstream of then or to that of before. -/
theorem sent_configured_moved : ∃ g t reports,
    Launched (plainHandler plainTls) none plainStart servingConfig g ∧
    (gatewayServer (plainHandler plainTls) ⟨none, .classical⟩).machine.run (Server.start g)
      aroundReload = .ok (t, reports) ∧
    t.jobs.map (fun request => request.trace.any isSend) = [true, true] ∧
    ∀ request ∈ t.jobs, request.trace.countP isSend ≤ 1 ∧
      ∀ client timeoutMs sent outcome, ⟨.send client timeoutMs sent, outcome⟩ ∈ request.trace →
        timeoutMs = 5000 ∧ (sent.uri = "http://a/" ∨ sent.uri = "http://b/") := by
  obtain ⟨keys, hlaunch⟩ := exists_serving servingConfig rfl rfl
  obtain ⟨t, reports, hrun, hrequests, hsends⟩ := run_aroundReload keys
  refine ⟨_, t, reports, hlaunch, hrun, hsends, fun request hrequest => ?_⟩
  obtain ⟨honce, hsent⟩ := sent_configured hlaunch hrun request hrequest
  refine ⟨honce, fun client timeoutMs sent outcome hsend => ?_⟩
  obtain ⟨route, path, upstream, uri, ⟨routes, hroutes, hmatch⟩, hupstream, rfl, huri, rfl⟩ :=
    hsent client timeoutMs sent outcome hsend
  have hroot : request.request = rootRequest := by
    have hmem := List.mem_map_of_mem (f := Job.request) hrequest
    rw [hrequests] at hmem
    simpa using hmem
  rw [hroot] at hmatch huri
  obtain rfl | hstored := hroutes
  · obtain ⟨htimeout, rfl⟩ := uri_of_plain hmatch hupstream huri
    exact ⟨htimeout, .inl rfl⟩
  · obtain rfl : routes = movedRoutes := by simpa [aroundReload] using hstored
    obtain ⟨htimeout, rfl⟩ := uri_of_plain hmatch hupstream huri
    exact ⟨htimeout, .inr rfl⟩

end PqcGateway
