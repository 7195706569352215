import PqcGateway.Proxy.Accounts

/-!
# Proxy/Shield — what an upstream is kept from

    picked ──▸ admitted ──▸ sent
               ╰── not while the circuit is open and its recovery timeout has not passed

A circuit breaker decides on each request by itself; what it does for the upstream is a fact about
all requests that run: from the failure that leaves a circuit open until its recovery timeout, the
upstream is sent no request but those that were admitted before (`open_circuit_shields`), however
the requests are interleaved and the gateway is reloaded.

* `InPhase.admitted_of_sent` — a request that was sent was admitted, if the breaker was on all
  along.
-/

namespace PqcGateway

section

variable {X : HandlerCrates}

/-! ## Where a request was sent

Whether its breaker is asked depends on the configuration that the request has loaded. -/

/-- The request was given to the upstream. -/
def isPickOf (u : String) : Exchange (@HandlerCall.Answer X) → Bool
  | ⟨.nextUpstream _, upstream⟩ => decide (upstream = u)
  | _ => false

/-- The request is sent. -/
def isSend : Exchange (@HandlerCall.Answer X) → Bool
  | ⟨.send _ _ _, _⟩ => true
  | _ => false

namespace HandlerPhase

/-- The configuration a request is handled under, once it has one. -/
def config? : HandlerPhase → Option GatewayConfig
  | .configured config | .routed config _ _ | .passed config _ _ => some config
  | .picked h | .refused h | .refusedCounted h | .admitted h | .ready h | .sent h _ | .told h _
  | .failed h _ | .timed h _ _ | .counted h _ | .unread h _ _ | .unreadCounted h _ _ | .read h _ _
  | .signed h _ _ | .answered h _ _ => some h.config
  | _ => none

/-- The handling of a request that was given to an upstream. -/
def picked? : HandlerPhase → Option Handling
  | .picked h | .refused h | .refusedCounted h | .admitted h | .ready h | .sent h _ | .told h _
  | .failed h _ | .timed h _ _ | .counted h _ | .unread h _ _ | .unreadCounted h _ _ | .read h _ _
  | .signed h _ _ | .answered h _ _ => some h
  | _ => none

/-- The handling of a request that was sent. -/
def sent? : HandlerPhase → Option Handling
  | .sent h _ | .told h _ | .failed h _ | .timed h _ _ | .counted h _ | .unread h _ _
  | .unreadCounted h _ _ | .read h _ _ | .signed h _ _ | .answered h _ _ => some h
  | _ => none

theorem picked?_of_sent? {phase : HandlerPhase} {h : Handling} (hsent : phase.sent? = some h) :
    phase.picked? = some h ∧ phase.admitted? = some h ∧ phase.config? = some h.config := by
  cases phase <;> cases hsent <;> exact ⟨rfl, rfl, rfl⟩

end HandlerPhase

section

variable {settings : SigningSettings} {req : ProxyRequest} {phase phase' : HandlerPhase}
  {e : Exchange (@HandlerCall.Answer X)} {config : GatewayConfig} {events : List (RunEvent X)}

/-- A request is handled under a configuration that was loaded. -/
theorem config_next {I : GatewayConfig → Prop} (hI : ∀ c, ConfigOf config events c → I c)
    (hphase : ∀ c ∈ phase.config?, I c)
    (h : Pipeline X settings req phase e phase' ∧ Loaded config events e) :
    ∀ c ∈ phase'.config?, I c := by
  obtain ⟨h, hloaded⟩ := h
  cases h with
  | loadConfig c =>
    rintro _ ⟨⟩
    exact hI c hloaded
  | route matcher hmatch => split <;> exact hphase
  | pick upstream => split <;> exact hphase
  | send client huri outcome => split <;> exact hphase
  | noRoute | throttle | countThrottled => exact fun c hc => absurd hc (Option.not_mem_none c)
  | _ => exact hphase

theorem pick_next (u : String) (h : Pipeline X settings req phase e phase') :
    (phase'.picked?.any fun handling => decide (handling.upstream = u)).toNat
      = (phase.picked?.any fun handling => decide (handling.upstream = u)).toNat
        + if isPickOf u e then 1 else 0 := by
  cases h with
  | route matcher hmatch => split <;> rfl
  | pick upstream =>
    split <;>
      by_cases hu : upstream = u <;> simp [HandlerPhase.picked?, isPickOf, hu]
  | send client huri outcome => split <;> rfl
  | _ => rfl

theorem send_next (h : Pipeline X settings req phase e phase') :
    phase'.sent?.isSome.toNat = phase.sent?.isSome.toNat + if isSend e then 1 else 0 := by
  cases h with
  | route matcher hmatch => split <;> rfl
  | pick upstream => split <;> rfl
  | send client huri outcome => split <;> rfl
  | _ => rfl

/-- **A request that was sent was admitted** by the circuit breaker of its upstream, if that was on
whenever a configuration was loaded. -/
theorem InPhase.admitted_of_sent {request : Request X} (h : InPhase X settings request phase)
    (hon : ∀ c, ConfigOf config events c → c.circuitBreaker.enabled = true)
    (hloaded : ∀ e ∈ request.trace, Loaded config events e) {u : String}
    (hpick : request.trace.any (isPickOf u) = true) (hsend : request.trace.any isSend = true) :
    request.trace.countP (isAdmissionOf u) = 1 := by
  have henabled : ∀ c ∈ phase.config?, c.circuitBreaker.enabled = true :=
    (h.leads.restrict hloaded).invariant
      (I := fun phase => ∀ c ∈ phase.config?, c.circuitBreaker.enabled = true)
      (fun _ _ _ => config_next hon) fun c hc => absurd hc (Option.not_mem_none c)
  have hpicks := h.countP (k := isPickOf u)
    (f := fun phase => (phase.picked?.any fun handling => decide (handling.upstream = u)).toNat)
    rfl fun _ _ _ _ => pick_next u
  have hsends := h.countP (k := isSend) (f := fun phase => phase.sent?.isSome.toNat) rfl
    fun _ _ _ _ => send_next
  have hpicked : 0 < request.trace.countP (isPickOf u) := List.countP_pos_iff.mpr
    (List.any_eq_true.mp hpick)
  have hsent : 0 < request.trace.countP isSend := List.countP_pos_iff.mpr
    (List.any_eq_true.mp hsend)
  cases hfound : phase.sent? with
  | none =>
    rw [hsends, hfound] at hsent
    cases hsent
  | some handling =>
    obtain ⟨hpicked?, hadmitted?, hconfig?⟩ := HandlerPhase.picked?_of_sent? hfound
    have hu : handling.upstream = u := by
      by_contra hu
      rw [hpicks, hpicked?] at hpicked
      simp [hu] at hpicked
    rw [h.admissions, hadmitted?, Option.any_some, Handling.guardedBy,
      henabled handling.config hconfig?, hu]
    simp

end

/-! ## An open circuit -/

/-- A circuit breaker answers that a request may pass, or that it is open. -/
theorem checked_cases {mgr mgr' : CircuitBreakerManager} {now : ℕ} {u : String}
    {result : Except CircuitState Unit}
    (h : breakerMachine.step mgr (.checkRequest now u) = .ok (mgr', .checked result)) :
    result = .ok () ∨ result = .error .opened := by
  obtain ⟨⟨mgr₁, result'⟩, hcheck, h⟩ := Checked.bind_eq_ok.mp h
  obtain ⟨-, hresult⟩ := Prod.mk.inj (Except.ok.inj h)
  obtain rfl := BreakerAnswer.checked.inj hresult
  obtain ⟨⟨circuit, result⟩, hcircuit, h⟩ := Checked.bind_eq_ok.mp hcheck
  obtain ⟨-, rfl⟩ := Prod.mk.inj (Except.ok.inj h)
  obtain ⟨-, ⟨-, rfl, -⟩ | ⟨-, -, rfl, -⟩ | ⟨-, -, rfl, -⟩⟩ :=
    UpstreamCircuit.checkRequest_cases hcircuit
  · exact .inl rfl
  · exact .inl rfl
  · exact .inr rfl

/-- A call of a circuit breaker is made when its event happens. -/
theorem time_breakerCalls {report : RunReport X} {e : BreakerCall × BreakerAnswer} {now : ℕ}
    (he : e ∈ breakerCalls report) (htime : e.1.time = some now) :
    ∃ event : RunEvent X, report.event? = some event ∧ RunEvent.time? event = some now := by
  match report with
  | .idle => exact absurd he List.not_mem_nil
  | .moved (.registerUpstream _) =>
    obtain rfl := List.mem_singleton.mp he
    cases htime
  | .moved (.updateHealth _ _ _) =>
    obtain rfl := List.mem_singleton.mp he
    exact ⟨_, rfl, htime⟩
  | .moved (.storeMatcher _) | .moved (.storeConfig _) | .moved (.cleanup _)
  | .moved (.rotate _) => exact absurd he List.not_mem_nil
  | .served _ _ ⟨call, _⟩ =>
    cases call with
    | checkRequest upstream | recordSuccess upstream | recordFailure upstream =>
      obtain rfl := List.mem_singleton.mp he
      exact ⟨_, rfl, htime⟩
    | _ => exact absurd he List.not_mem_nil

/-- An admission is a call of the circuit breaker. -/
theorem exists_call_of_admission {reports : List (RunReport X)}
    {e : Exchange (@HandlerCall.Answer X)} {u : String} (he : e ∈ served reports)
    (hadmission : isAdmissionOf u e = true) :
    ∃ report ∈ reports, ∃ now result, (.checkRequest now u, .checked result) ∈ breakerCalls report ∧
      result ≠ .error .opened := by
  obtain ⟨report, hreport, hserved⟩ := List.mem_filterMap.mp he
  cases report with
  | idle => cases hserved
  | moved moved => cases hserved
  | served id d e' =>
    obtain rfl := Option.some.inj hserved
    obtain ⟨call, answer⟩ := e'
    cases call with
    | checkRequest upstream =>
      refine ⟨_, hreport, d.now, answer, ?_, ?_⟩
      · rcases answer with ⟨⟨⟩⟩ | ⟨⟩
        · cases of_decide_eq_true hadmission
          exact List.mem_cons_self
        · cases hadmission
        · cases of_decide_eq_true hadmission
          exact List.mem_cons_self
        · cases of_decide_eq_true hadmission
          exact List.mem_cons_self
      · rintro rfl
        cases hadmission
    | _ => cases hadmission

variable {settings : SigningSettings} {s t : Serving X} {before after : List (RunEvent X)}
  {reports reports' : List (RunReport X)} {env : Option String} {draw : StartDraw X.mlDsa}
  {config : GatewayConfig} {g : RunningGateway X}

/-- **While it is barred, a circuit admits nobody.** -/
theorem no_admission_of_barred {u : String} {T timeout : ℕ} {circuit : UpstreamCircuit}
    (hget : s.shared.circuitBreaker.circuits.get u = some circuit)
    (hbarred : Barred T timeout circuit)
    (hafter : (gatewayServer X settings).machine.run s after = .ok (t, reports'))
    (htime : ∀ event ∈ after, ∀ now, RunEvent.time? event = some now → T ≤ now ∧ now < T + timeout)
    (hreset : ∀ report ∈ reports', ∀ e ∈ breakerCalls report, e.1.upstream = u →
      e.1.isReset = false) :
    ∀ e ∈ served reports', isAdmissionOf u e = false := by
  have hcalls := (breakerMachine.run_forall (I := fun mgr => ∃ circuit,
    mgr.circuits.get u = some circuit ∧ Barred T timeout circuit)
    (Q := fun e => (∃ now, e.1 = .checkRequest now u) → e.2 = .checked (.error .opened)) ?_
    ⟨circuit, hget, hbarred⟩ (run_breaker hafter)).2
  · intro e he
    refine Bool.eq_false_iff.mpr fun hadmission => ?_
    obtain ⟨report, hreport, now, result, hmem, hadmits⟩ := exists_call_of_admission he hadmission
    have hopened := hcalls _ (List.mem_flatMap.mpr ⟨report, hreport, hmem⟩) ⟨now, rfl⟩
    exact hadmits (BreakerAnswer.checked.inj hopened)
  · rintro mgr ⟨call, answer⟩ mgr' he ⟨circuit, hget, hbarred⟩ hstep
    obtain ⟨report, hreport, hmem⟩ := List.mem_flatMap.mp he
    obtain ⟨hu, hsame⟩ | ⟨circuit', hu, hget', hmoved⟩ := breaker_step_some hstep hget
    · refine ⟨⟨circuit, hsame, hbarred⟩, ?_⟩
      rintro ⟨now, rfl⟩
      exact absurd rfl hu
    · have hnow : ∀ now, call.time = some now → T ≤ now ∧ now < T + timeout := fun now hcall => by
        obtain ⟨event, hevent, htime?⟩ := time_breakerCalls hmem hcall
        exact htime event ((Server.run_reports hafter).subset
          (List.mem_filterMap.mpr ⟨report, hreport, hevent⟩)) now htime?
      obtain ⟨hbarred', hadmits⟩ := hbarred.moved hmoved hnow (hreset report hreport _ hmem hu)
      refine ⟨⟨circuit', hget', hbarred'⟩, ?_⟩
      rintro ⟨now, rfl⟩
      cases answer with
      | done =>
        obtain ⟨_, -, h⟩ := Checked.bind_eq_ok.mp hstep
        cases (Prod.mk.inj (Except.ok.inj h)).2
      | checked result =>
        obtain rfl | rfl := checked_cases hstep
        · cases hadmits
        · rfl

/-- **An open circuit shields its upstream.**  From the failure that it remembers until its recovery
timeout has passed, unless a health check passes or a success comes in late, the upstream is sent no
request but those that its circuit breaker had admitted before. -/
theorem open_circuit_shields {u : String} {T : ℕ} {circuit : UpstreamCircuit}
    (hlaunch : Launched X env draw config g)
    (hon : ∀ c, ConfigOf config (before ++ after) c → c.circuitBreaker.enabled = true)
    (hbefore : (gatewayServer X settings).machine.run (Server.start g) before = .ok (s, reports))
    (hget : s.shared.circuitBreaker.circuits.get u = some circuit)
    (hopened : circuit.state = .opened) (hfailed : circuit.lastFailureTime = some T)
    (hafter : (gatewayServer X settings).machine.run s after = .ok (t, reports'))
    (htime : ∀ event ∈ after, ∀ now, RunEvent.time? event = some now →
      T ≤ now ∧ now < T + circuit.config.recoveryTimeout)
    (hreset : ∀ report ∈ reports', ∀ e ∈ breakerCalls report, e.1.upstream = u →
      e.1.isReset = false) :
    ∀ (id : ℕ) (request : Request X), t.jobs[id]? = some request →
      request.trace.any (isPickOf u) = true → request.trace.any isSend = true →
      ∃ earlier : Request X, s.jobs[id]? = some earlier ∧
        earlier.trace.countP (isAdmissionOf u) = 1 := by
  intro id request hrequest hpick hsend
  have hrun := (gatewayServer X settings).machine.run_append_eq_ok.mpr
    ⟨s, reports, reports', hbefore, hafter, rfl⟩
  have hmem := List.mem_of_getElem? hrequest
  obtain ⟨phase, hphase⟩ := requests_stand hrun request hmem
  have hadmitted := hphase.admitted_of_sent hon (run_loaded hlaunch hrun request hmem) hpick hsend
  have hbarred : Barred T circuit.config.recoveryTimeout circuit :=
    ⟨hopened, fun lastFail hlast => (Option.some.inj (hfailed.symm.trans hlast)).le, rfl⟩
  have hnone := no_admission_of_barred hget hbarred hafter htime hreset
  obtain ⟨-, htrace⟩ := Server.run_trace hafter
  obtain ⟨since, hsince, htraced⟩ := htrace id request hrequest
  have hzero : since.countP (isAdmissionOf u) = 0 := List.countP_eq_zero.mpr fun e he => by
    rw [hnone e (hsince e he)]
    exact Bool.false_ne_true
  rw [htraced, List.countP_append, hzero, Nat.add_zero] at hadmitted
  cases hearlier : s.jobs[id]? with
  | none =>
    rw [hearlier] at hadmitted
    cases hadmitted
  | some earlier =>
    rw [hearlier] at hadmitted
    exact ⟨earlier, rfl, hadmitted⟩

end

/-! ## One failure opens a circuit -/

/-- A health check fails, and the next request comes in. -/
def nextRequest : List (RunEvent (plainHandler plainTls)) :=
  [.move (.updateHealth 0 "http://a" false), .start rootRequest, .advance 1 timesOut]

theorem run_nextRequest (keys : VersionedKeyManager) : ∃ s t reports reports' circuit,
    (gatewayServer (plainHandler plainTls) ⟨none, .classical⟩).machine.run
      (Server.start (servingGateway servingConfig keys)) oneRequest = .ok (s, reports) ∧
    (gatewayServer (plainHandler plainTls) ⟨none, .classical⟩).machine.run s nextRequest
      = .ok (t, reports') ∧
    (s.shared.circuitBreaker.circuits.get "http://a" = some circuit ∧ circuit.state = .opened ∧
      circuit.lastFailureTime = some 0 ∧ circuit.config.recoveryTimeout = 30 * 10 ^ 9) ∧
    ((reports'.flatMap breakerCalls).all fun e => !e.1.isReset) = true ∧
    ∃ request, t.jobs[0]? = some request ∧ request.trace.any (isPickOf "http://a") = true ∧
      request.trace.any isSend = true := by
  refine ⟨_, _, _, _, _, rfl, rfl, ⟨rfl, rfl, rfl, rfl⟩, ?_, _, rfl, ?_, ?_⟩
  · rfl
  · rfl
  · rfl

/-- The request that was sent had been admitted before its circuit opened. -/
theorem open_circuit_shields_timeout : ∃ g s t reports reports',
    Launched (plainHandler plainTls) none plainStart servingConfig g ∧
    (gatewayServer (plainHandler plainTls) ⟨none, .classical⟩).machine.run (Server.start g)
      oneRequest = .ok (s, reports) ∧
    (gatewayServer (plainHandler plainTls) ⟨none, .classical⟩).machine.run s nextRequest
      = .ok (t, reports') ∧
    ∃ earlier : Request (plainHandler plainTls), s.jobs[0]? = some earlier ∧
      earlier.trace.countP (isAdmissionOf "http://a") = 1 := by
  obtain ⟨keys, hlaunch⟩ := exists_serving servingConfig rfl rfl
  obtain ⟨s, t, reports, reports', circuit, hbefore, hafter, ⟨hget, hopened, hfailed, htimeout⟩,
    hreset, request, hrequest, hpick, hsend⟩ := run_nextRequest keys
  refine ⟨_, s, t, reports, reports', hlaunch, hbefore, hafter, open_circuit_shields hlaunch
    ?_ hbefore hget hopened hfailed hafter ?_ ?_ 0 request hrequest hpick hsend⟩
  · rintro c (rfl | hstored)
    · rfl
    · simp [oneRequest, nextRequest] at hstored
  · intro event hevent now hnow
    rw [htimeout]
    simp only [nextRequest, List.mem_cons, List.not_mem_nil, or_false] at hevent
    obtain rfl | rfl | rfl := hevent
    · obtain rfl := Option.some.inj hnow
      norm_num
    · cases hnow
    · obtain rfl := Option.some.inj hnow
      norm_num [timesOut]
  · intro report hreport e he _
    simpa using List.all_eq_true.mp hreset e (List.mem_flatMap.mpr ⟨report, hreport, he⟩)

end PqcGateway
