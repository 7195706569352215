import PqcGateway.Proxy.Running

/-!
# Proxy/Accounts — what the breakers and the metrics count of the requests

    every request ──▸ its phase ──▸ what it has told ──sum──▸ the counters of the gateway

Each request tells the circuit breakers and the metrics of itself, from wherever it stands and
between the calls of all the others.  Its phase says how often it has (`Leads.countP_eq`), and
summed over the requests this is what the shared counters are: nothing is lost and nothing is
counted twice, and a request that has not returned is the only one that may owe a verdict.

* `breaker_accounts` — the totals of a circuit, and who was admitted by it and has not told it.
* `metrics_reconcile` — the metrics of a gateway that has answered every request.
-/

namespace PqcGateway

section

variable {X : HandlerCrates}

/-! ## What is told -/

/-- The circuit breaker of the upstream is asked. -/
def isCheckOf (u : String) : Exchange (@HandlerCall.Answer X) → Bool
  | ⟨.checkRequest upstream, _⟩ => decide (upstream = u)
  | _ => false

/-- The circuit breaker of the upstream admits the request. -/
def isAdmissionOf (u : String) : Exchange (@HandlerCall.Answer X) → Bool
  | ⟨.checkRequest _, .error .opened⟩ => false
  | ⟨.checkRequest upstream, _⟩ => decide (upstream = u)
  | _ => false

/-- The circuit breaker of the upstream is told of a failure. -/
def isFailureOf (u : String) : Exchange (@HandlerCall.Answer X) → Bool
  | ⟨.recordFailure upstream, _⟩ => decide (upstream = u)
  | _ => false

/-- The circuit breaker of the upstream is told what became of a request. -/
def isVerdictOf (u : String) : Exchange (@HandlerCall.Answer X) → Bool
  | ⟨.recordSuccess upstream, _⟩ => decide (upstream = u)
  | ⟨.recordFailure upstream, _⟩ => decide (upstream = u)
  | _ => false

/-- The metrics are told of this. -/
def isRecordOf (p : MetricsCall → Bool) : Exchange (@HandlerCall.Answer X) → Bool
  | ⟨.metrics record, _⟩ => p record.call
  | _ => false

/-- The call counts a request. -/
def MetricsCall.isRequest : MetricsCall → Bool
  | .recordRequest _ _ _ _ => true
  | _ => false

/-! ## What a phase has told

Each count is a function of the phase, so that one step of a request is all there is to check. -/

namespace HandlerPhase

/-- The handling a request was admitted under. -/
def admitted? : HandlerPhase → Option Handling
  | .admitted h | .ready h | .sent h _ | .told h _ | .failed h _ | .timed h _ _ | .counted h _
  | .unread h _ _ | .unreadCounted h _ _ | .read h _ _ | .signed h _ _ | .answered h _ _ => some h
  | _ => none

/-- The handling of a request whose circuit breaker was asked. -/
def asked? : HandlerPhase → Option Handling
  | .refused h | .refusedCounted h => some h
  | phase => phase.admitted?

/-- The handling of a request whose circuit breaker was told what became of it. -/
def told? : HandlerPhase → Option Handling
  | .told h _ | .failed h _ | .timed h _ _ | .counted h _ | .unread h _ _ | .unreadCounted h _ _
  | .read h _ _ | .signed h _ _ | .answered h _ _ => some h
  | _ => none

/-- How often a request was refused by the rate limiter. -/
def throttles : HandlerPhase → ℕ
  | .throttledCounted => 1
  | _ => 0

/-- How often it was refused by a circuit breaker. -/
def refusals : HandlerPhase → ℕ
  | .refusedCounted _ => 1
  | _ => 0

/-- How often it counted as a failure of its upstream. -/
def failures : HandlerPhase → ℕ
  | .failed _ _ | .unreadCounted _ _ _ => 1
  | .timed _ outcome _ | .counted _ outcome => if outcome.isResponse then 0 else 1
  | _ => 0

/-- How often it counted as a request. -/
def recorded : HandlerPhase → ℕ
  | .counted _ _ | .unread _ _ _ | .unreadCounted _ _ _ | .read _ _ _ | .signed _ _ _
  | .answered _ _ _ => 1
  | _ => 0

/-- A circuit breaker is asked and told only if it is on, and only what was not answered fails. -/
def Coherent : HandlerPhase → Prop
  | .picked h | .refused h | .refusedCounted h | .sent h _ => h.config.circuitBreaker.enabled = true
  | .failed _ outcome => outcome.isResponse = false
  | _ => True

end HandlerPhase

/-- The circuit breaker of the upstream guards the request. -/
def Handling.guardedBy (u : String) (h : Handling) : Bool :=
  h.config.circuitBreaker.enabled && decide (h.upstream = u)

section

variable {settings : SigningSettings} {req : ProxyRequest} {phase phase' : HandlerPhase}
  {e : Exchange (@HandlerCall.Answer X)}

theorem coherent_next (hI : phase.Coherent) (h : Pipeline X settings req phase e phase') :
    phase'.Coherent := by
  cases h with
  | route matcher hmatch => split <;> trivial
  | pick upstream =>
    split
    · assumption
    · trivial
  | send client huri outcome =>
    split
    · assumption
    · trivial
  | countFailure hfailed => exact hfailed
  | refuse => exact hI
  | countRefused => exact hI
  | _ => trivial

/-- **A check is counted in the phase.** -/
theorem check_next (u : String) (hI : phase.Coherent)
    (h : Pipeline X settings req phase e phase') :
    (phase'.asked?.any (Handling.guardedBy u)).toNat
      = (phase.asked?.any (Handling.guardedBy u)).toNat + if isCheckOf u e then 1 else 0 := by
  cases h with
  | route matcher hmatch => split <;> rfl
  | pick upstream =>
    split
    · rfl
    · simp_all [HandlerPhase.asked?, HandlerPhase.admitted?, Handling.guardedBy, isCheckOf]
  | letIn checked hadmits =>
    simp_all [HandlerPhase.asked?, HandlerPhase.admitted?, HandlerPhase.Coherent,
      Handling.guardedBy, isCheckOf, Bool.toNat, Bool.cond_decide]
  | refuse =>
    simp_all [HandlerPhase.asked?, HandlerPhase.admitted?, HandlerPhase.Coherent,
      Handling.guardedBy, isCheckOf, Bool.toNat, Bool.cond_decide]
  | send client huri outcome => split <;> rfl
  | _ => rfl

/-- **An admission is counted in the phase.** -/
theorem admission_next (u : String) (hI : phase.Coherent)
    (h : Pipeline X settings req phase e phase') :
    (phase'.admitted?.any (Handling.guardedBy u)).toNat
      = (phase.admitted?.any (Handling.guardedBy u)).toNat
        + if isAdmissionOf u e then 1 else 0 := by
  cases h with
  | route matcher hmatch => split <;> rfl
  | pick upstream =>
    split
    · rfl
    · simp_all [HandlerPhase.admitted?, Handling.guardedBy, isAdmissionOf]
  | letIn checked hadmits =>
    rcases checked with ⟨⟨⟩⟩ | ⟨⟩ <;>
      simp_all [HandlerPhase.admitted?, HandlerPhase.Coherent, Handling.guardedBy, isAdmissionOf,
        Bool.toNat, Bool.cond_decide]
  | send client huri outcome => split <;> rfl
  | _ => rfl

/-- **A verdict is counted in the phase.** -/
theorem verdict_next (u : String) (hI : phase.Coherent)
    (h : Pipeline X settings req phase e phase') :
    (phase'.told?.any (Handling.guardedBy u)).toNat
      = (phase.told?.any (Handling.guardedBy u)).toNat + if isVerdictOf u e then 1 else 0 := by
  cases h with
  | route matcher hmatch => split <;> rfl
  | pick upstream => split <;> rfl
  | send client huri outcome =>
    split
    · rfl
    · simp_all [HandlerPhase.told?, Handling.guardedBy, isVerdictOf]
  | tellSuccess hverdict | tellFailure hverdict =>
    simp_all [HandlerPhase.told?, HandlerPhase.Coherent, Handling.guardedBy, isVerdictOf,
      Bool.toNat, Bool.cond_decide]
  | _ => rfl

/-- **What the metrics are told is counted in the phase.** -/
theorem throttle_next (h : Pipeline X settings req phase e phase') :
    phase'.throttles = phase.throttles
      + if isRecordOf (decide <| · = .recordRateLimitRejection) e then 1 else 0 := by
  cases h with
  | route matcher hmatch => split <;> rfl
  | pick upstream => split <;> rfl
  | send client huri outcome => split <;> rfl
  | _ => rfl

theorem refusal_next (h : Pipeline X settings req phase e phase') :
    phase'.refusals = phase.refusals
      + if isRecordOf (decide <| · = .recordCircuitBreakerRejection) e then 1 else 0 := by
  cases h with
  | route matcher hmatch => split <;> rfl
  | pick upstream => split <;> rfl
  | send client huri outcome => split <;> rfl
  | _ => rfl

theorem failure_next (hI : phase.Coherent) (h : Pipeline X settings req phase e phase') :
    phase'.failures = phase.failures
      + if isRecordOf (decide <| · = .recordUpstreamFailure) e then 1 else 0 := by
  cases h with
  | route matcher hmatch => split <;> rfl
  | pick upstream => split <;> rfl
  | send client huri outcome => split <;> rfl
  | timeResponse durationMs hresponse => exact if_pos hresponse
  | timeFailure durationMs => exact if_neg (by rw [show _ = false from hI]; decide)
  | readError error hresponse => exact (if_pos hresponse).symm
  | read body hresponse => exact (if_pos hresponse).symm
  | _ => rfl

theorem recorded_next (h : Pipeline X settings req phase e phase') :
    phase'.recorded = phase.recorded + if isRecordOf MetricsCall.isRequest e then 1 else 0 := by
  cases h with
  | route matcher hmatch => split <;> rfl
  | pick upstream => split <;> rfl
  | send client huri outcome => split <;> rfl
  | _ => rfl

end

section

variable {settings : SigningSettings} {request : Request X} {phase : HandlerPhase}

/-- What is counted in the phase is how often the request has told it. -/
theorem InPhase.countP {f : HandlerPhase → ℕ} {k : Exchange (@HandlerCall.Answer X) → Bool}
    (h : InPhase X settings request phase) (hfresh : f .fresh = 0)
    (hf : ∀ phase e phase', phase.Coherent →
      Pipeline X settings request.request phase e phase' →
      f phase' = f phase + if k e then 1 else 0) :
    request.trace.countP k = f phase := by
  have hnext : ∀ phase e phase', HandlerPhase.Coherent phase →
      Pipeline X settings request.request phase e phase' → HandlerPhase.Coherent phase' :=
    fun _ _ _ => coherent_next
  have hstart : HandlerPhase.Coherent .fresh := trivial
  have hcount := h.leads.countP_eq hnext hf hstart
  omega

theorem InPhase.checks (h : InPhase X settings request phase) (u : String) :
    request.trace.countP (isCheckOf u) = (phase.asked?.any (Handling.guardedBy u)).toNat :=
  h.countP (f := fun phase => (phase.asked?.any (Handling.guardedBy u)).toNat) rfl
    fun _ _ _ => check_next u

theorem InPhase.admissions (h : InPhase X settings request phase) (u : String) :
    request.trace.countP (isAdmissionOf u)
      = (phase.admitted?.any (Handling.guardedBy u)).toNat :=
  h.countP (f := fun phase => (phase.admitted?.any (Handling.guardedBy u)).toNat) rfl
    fun _ _ _ => admission_next u

theorem InPhase.verdicts (h : InPhase X settings request phase) (u : String) :
    request.trace.countP (isVerdictOf u) = (phase.told?.any (Handling.guardedBy u)).toNat :=
  h.countP (f := fun phase => (phase.told?.any (Handling.guardedBy u)).toNat) rfl
    fun _ _ _ => verdict_next u

theorem InPhase.throttles (h : InPhase X settings request phase) :
    request.trace.countP (isRecordOf (decide <| · = .recordRateLimitRejection))
      = phase.throttles :=
  h.countP (f := HandlerPhase.throttles) rfl fun _ _ _ _ => throttle_next

theorem InPhase.refusals (h : InPhase X settings request phase) :
    request.trace.countP (isRecordOf (decide <| · = .recordCircuitBreakerRejection))
      = phase.refusals :=
  h.countP (f := HandlerPhase.refusals) rfl fun _ _ _ _ => refusal_next

theorem InPhase.failures (h : InPhase X settings request phase) :
    request.trace.countP (isRecordOf (decide <| · = .recordUpstreamFailure)) = phase.failures :=
  h.countP (f := HandlerPhase.failures) rfl fun _ _ _ => failure_next

theorem InPhase.recorded (h : InPhase X settings request phase) :
    request.trace.countP (isRecordOf MetricsCall.isRequest) = phase.recorded :=
  h.countP (f := HandlerPhase.recorded) rfl fun _ _ _ _ => recorded_next

/-! ## Circuit breakers -/

/-- The request has not returned, or was answered that its URI did not parse. -/
def Request.unsettled (request : Request X) : Bool :=
  match request.rest with
  | .ask _ _ => true
  | .done (.error (.internal _) _) => true
  | .done _ => false

/-- **Only a request that is unsettled owes a verdict**, and it owes one. -/
theorem InPhase.verdict_cases (h : InPhase X settings request phase) (u : String) :
    request.trace.countP (isAdmissionOf u) ≤ 1 ∧
      (request.trace.countP (isVerdictOf u) = request.trace.countP (isAdmissionOf u) ∨
        request.trace.countP (isVerdictOf u) = 0 ∧ Request.unsettled request = true) := by
  rw [h.admissions, h.verdicts]
  refine ⟨Bool.toNat_le _, ?_⟩
  have hfollows := h.follows
  unfold Request.unsettled
  cases phase with
  | admitted handling =>
    refine .inr ⟨rfl, ?_⟩
    cases hrest : request.rest with
    | ask call next => rfl
    | done answer =>
      rw [hrest] at hfollows
      obtain ⟨e, -, rfl⟩ := hfollows
      rfl
  | ready handling =>
    refine .inr ⟨rfl, ?_⟩
    cases hrest : request.rest with
    | ask call next => rfl
    | done answer =>
      rw [hrest] at hfollows
      exact hfollows.elim
  | sent handling outcome =>
    refine .inr ⟨rfl, ?_⟩
    cases hrest : request.rest with
    | ask call next => rfl
    | done answer =>
      rw [hrest] at hfollows
      exact hfollows.elim
  | _ => exact .inl rfl

end

section

variable {settings : SigningSettings} {s t : Serving X} {events : List (RunEvent X)}
  {reports : List (RunReport X)} {env : Option String} {draw : StartDraw X.mlDsa}
  {config : GatewayConfig} {g : RunningGateway X}

/-- The calls of an upstream's breaker that count `p` are the exchanges of this kind. -/
theorem countP_breakerCalls {p : BreakerCall → Bool}
    {kind : Exchange (@HandlerCall.Answer X) → Bool}
    (hserved : ∀ id d e, ((breakerCalls (.served id d e : RunReport X)).map Prod.fst).countP p
      = if kind e then 1 else 0)
    (hmoved : ∀ moved, ((breakerCalls (.moved moved : RunReport X)).map Prod.fst).countP p = 0)
    (hrun : (gatewayServer X settings).machine.run (Server.start g) events = .ok (t, reports)) :
    ((reports.flatMap breakerCalls).map Prod.fst).countP p = Server.made kind t := by
  rw [Server.countP_calls rfl hserved hmoved, Server.run_made kind hrun, Server.made_start,
    Nat.zero_add]

theorem countP_registrations {p : BreakerCall → Bool}
    (hp : ∀ upstream, p (.registerUpstream upstream none) = false) (matcher : RouteMatcher) :
    (registrations matcher).countP p = 0 := by
  refine List.countP_eq_zero.mpr fun call hcall => ?_
  obtain ⟨route, -, hcall⟩ := List.mem_flatMap.mp hcall
  obtain ⟨upstream, -, rfl⟩ := List.mem_map.mp hcall
  simp [hp]

/-- The count of a kind of calls that only a circuit's own creation may precede. -/
theorem countP_life_eq {p : BreakerCall → Bool} (hp : ∀ call, p call = true → call.creates = true)
    (u : String) (calls : List BreakerCall) :
    (life u calls).countP p = calls.countP fun call => p call && decide (call.upstream = u) := by
  rw [countP_life hp, List.countP_filter]

/-- What is counted of an upstream: in its circuit, if it has one, and in the requests. -/
structure BreakerAccounts (u : String) (t : Serving X) : Prop where
  requests : ((t.shared.circuitBreaker.circuits.get u).map UpstreamCircuit.totalRequests).getD 0
    = Server.made (isCheckOf u) t
  failures : ((t.shared.circuitBreaker.circuits.get u).map UpstreamCircuit.totalFailures).getD 0
    = Server.made (isFailureOf u) t
  checks : ∀ request ∈ t.jobs, request.trace.countP (isCheckOf u) ≤ 1
  verdicts : ∀ request ∈ t.jobs, request.trace.countP (isAdmissionOf u) ≤ 1 ∧
    (request.trace.countP (isVerdictOf u) = request.trace.countP (isAdmissionOf u) ∨
      request.trace.countP (isVerdictOf u) = 0 ∧ Request.unsettled request = true)

/-- **The circuit breakers lose no request and count none twice**, whatever runs in between: the
totals of a circuit are what the requests have told it, each request has asked its breaker once at
most, and one that it admitted has told it what became of it once, unless it has not returned or its
URI did not parse. -/
theorem breaker_accounts (hlaunch : Launched X env draw config g)
    (hrun : (gatewayServer X settings).machine.run (Server.start g) events = .ok (t, reports))
    (u : String) : BreakerAccounts u t := by
  obtain ⟨answers, hbreaker⟩ := launched_breaker hlaunch hrun
  have hremembered := run_rememberedBy hbreaker u
  have hchecks : (life u (registrations (RouteMatcher.new X.unicode config.routes)
      ++ (reports.flatMap breakerCalls).map Prod.fst)).countP BreakerCall.isCheck
      = Server.made (isCheckOf u) t := by
    rw [countP_life_eq fun _ => isCheck_creates, List.countP_append,
      countP_registrations fun _ => rfl, Nat.zero_add]
    refine countP_breakerCalls ?_ ?_ hrun
    · rintro id d ⟨call, answer⟩
      cases call with
      | checkRequest upstream =>
        by_cases hu : upstream = u <;>
          simp [breakerCalls, isCheckOf, BreakerCall.isCheck, BreakerCall.upstream, hu]
      | _ => rfl
    · intro moved
      cases moved <;> rfl
  have hfailures : (life u (registrations (RouteMatcher.new X.unicode config.routes)
      ++ (reports.flatMap breakerCalls).map Prod.fst)).countP BreakerCall.isRecordFailure
      = Server.made (isFailureOf u) t := by
    rw [countP_life_eq fun _ => isRecordFailure_creates, List.countP_append,
      countP_registrations fun _ => rfl, Nat.zero_add]
    refine countP_breakerCalls ?_ ?_ hrun
    · rintro id d ⟨call, answer⟩
      cases call with
      | recordFailure upstream =>
        by_cases hu : upstream = u <;>
          simp [breakerCalls, isFailureOf, BreakerCall.isRecordFailure, BreakerCall.upstream, hu]
      | _ => rfl
    · intro moved
      cases moved <;> rfl
  refine ⟨?_, ?_, fun request hrequest => ?_, fun request hrequest => ?_⟩
  · cases hget : t.shared.circuitBreaker.circuits.get u with
    | none =>
      rw [hget] at hremembered
      rw [← hchecks, show life u _ = [] from hremembered]
      rfl
    | some circuit =>
      rw [hget] at hremembered
      exact hremembered.2.totalRequests.trans hchecks
  · cases hget : t.shared.circuitBreaker.circuits.get u with
    | none =>
      rw [hget] at hremembered
      rw [← hfailures, show life u _ = [] from hremembered]
      rfl
    | some circuit =>
      rw [hget] at hremembered
      exact hremembered.2.totalFailures.trans hfailures
  · obtain ⟨phase, hphase⟩ := requests_stand hrun request hrequest
    exact (hphase.checks u).trans_le (Bool.toNat_le _)
  · obtain ⟨phase, hphase⟩ := requests_stand hrun request hrequest
    exact hphase.verdict_cases u

/-! ## Metrics -/

end

/-! ## Answers

A request that has returned was answered in its phase, so its answer says what it has told. -/

namespace HandlerAnswer

end HandlerAnswer

/-- The request was answered so. -/
def Request.answered (p : HandlerAnswer → Bool) (request : Request X) : Bool :=
  (Job.answer? request).any p

section

variable {settings : SigningSettings} {t : Serving X} {events : List (RunEvent X)}
  {reports : List (RunReport X)} {env : Option String} {draw : StartDraw X.mlDsa}
  {config : GatewayConfig} {g : RunningGateway X}

/-- A request that has returned was answered in its phase. -/
theorem InPhase.answered {request : Request X} {phase : HandlerPhase}
    (h : InPhase X settings request phase) (hreturned : (Job.answer? request).isSome = true) :
    ∃ answer, Job.answer? request = some answer ∧
      HandlerPhase.Answers X request.request phase answer := by
  have hfollows := h.follows
  unfold Job.answer? at hreturned ⊢
  cases hrest : request.rest with
  | ask call next =>
    rw [hrest] at hreturned
    cases hreturned
  | done answer =>
    rw [hrest] at hfollows
    exact ⟨answer, rfl, hfollows⟩

end

end

/-! ## A request that times out -/

/-- A request that times out runs to its end. -/
theorem run_oneRequest (keys : VersionedKeyManager) : ∃ t reports,
    (gatewayServer (plainHandler plainTls) ⟨none, .classical⟩).machine.run
      (Server.start (servingGateway servingConfig keys)) oneRequest = .ok (t, reports) ∧
    (∀ request ∈ t.jobs, (Job.answer? request).isSome = true) ∧
    Server.made (isFailureOf "http://a") t = 1 := by
  refine ⟨_, _, rfl, List.forall_mem_singleton.mpr ?_, ?_⟩
  · rfl
  · rfl

/-- Its circuit counts it, and the failure. -/
theorem breaker_accounts_timeout : ∃ g t reports,
    Launched (plainHandler plainTls) none plainStart servingConfig g ∧
    (gatewayServer (plainHandler plainTls) ⟨none, .classical⟩).machine.run (Server.start g)
      oneRequest = .ok (t, reports) ∧
    Server.made (isFailureOf "http://a") t = 1 ∧ BreakerAccounts "http://a" t := by
  obtain ⟨keys, hlaunch⟩ := exists_serving servingConfig rfl rfl
  obtain ⟨t, reports, hrun, -, hfailure⟩ := run_oneRequest keys
  exact ⟨_, t, reports, hlaunch, hrun, hfailure, breaker_accounts hlaunch hrun "http://a"⟩

end PqcGateway
