import PqcGateway.Proxy.Handler

/-!
# Proxy/Outcome — what the circuit breaker is told

An admitted request should tell the circuit breaker once how it went: of a failure, if the client
is answered that the upstream failed (`Truthful`).  Two ways out of the handler do not.  If the URI
does not parse the breaker is told nothing, and if the body cannot be read it has been told of a
success already.  `truthful_iff` says that there are no others.

* `records_settle` — a request that was sent is recorded once, by its outcome.
* `truthful_settle` — and truthfully, unless its body cannot be read and its status was a success.
-/

namespace PqcGateway

open Program

/-! ## Records

A record is a call of the handler, so what the breaker is told is read off the trace. -/

/-- What the circuit breaker is told of a request. -/
inductive Verdict
  | success
  | failure
deriving DecidableEq, Repr

/-- What the call tells the circuit breaker, and of which upstream. -/
def HandlerCall.record? {X : HandlerCrates} : HandlerCall X → Option (String × Verdict)
  | .recordSuccess upstream => some (upstream, .success)
  | .recordFailure upstream => some (upstream, .failure)
  | _ => none

/-- All that the circuit breaker is told. -/
def records {X : HandlerCrates} (tr : HandlerTrace X) : List (String × Verdict) :=
  tr.filterMap fun e => e.1.record?

/-- The upstream could not be reached, or did not answer in time. -/
def GatewayError.OfUpstream : GatewayError → Prop
  | .upstreamConnection _ => True
  | .upstreamTimeout _ => True
  | _ => False

/-- The client is answered that the upstream failed. -/
def HandlerAnswer.OfUpstream : HandlerAnswer → Prop
  | .error gatewayError _ => gatewayError.OfUpstream
  | .response _ => False

/-- **One truthful outcome**: the circuit breaker is told once, of this upstream, and of a failure
if the client is answered that the upstream failed. -/
def Truthful {X : HandlerCrates} (upstream : String) (tr : HandlerTrace X)
    (answer : HandlerAnswer) : Prop :=
  ∃ verdict, records tr = [(upstream, verdict)] ∧ (answer.OfUpstream → verdict = .failure)

/-- What the circuit breaker is to be told of an outcome. -/
def SendOutcome.verdict : SendOutcome → Verdict
  | .response status _ => if isServerError status then .failure else .success
  | .failed _ => .failure
  | .timedOut => .failure

/-- The body of every response is read, but for those with the status of a server error. -/
def BodiesRead {X : HandlerCrates} (tr : HandlerTrace X) : Prop :=
  ∀ client timeoutMs sent status headers e,
    ⟨.send client timeoutMs sent, .response status headers⟩ ∈ tr → ⟨.readBody, .error e⟩ ∈ tr →
    isServerError status = true

section

variable {X : HandlerCrates} {settings : SigningSettings} {config : GatewayConfig} {route : Route}
  {upstream upstreamPath method : String} {mode : SignatureMode} {req : ProxyRequest}
  {tr : HandlerTrace X} {answer : HandlerAnswer}

@[simp] theorem records_cons (e : Exchange (@HandlerCall.Answer X)) (tr : HandlerTrace X) :
    records (e :: tr) = e.1.record?.toList ++ records tr := by
  cases h : e.1.record? <;> simp [records, h]

@[simp] theorem records_nil : records ([] : HandlerTrace X) = [] := rfl

@[simp] theorem records_append (tr tr' : HandlerTrace X) :
    records (tr ++ tr') = records tr ++ records tr' :=
  List.filterMap_append

/-- Nothing is recorded before the request is forwarded. -/
theorem records_of_early (h : ∀ e ∈ tr, e.1.Early) : records tr = [] := by
  refine List.filterMap_eq_nil_iff.mpr fun e he => ?_
  have hearly := h e he
  obtain ⟨c, a⟩ := e
  cases c <;> simp_all [HandlerCall.Early, HandlerCall.record?]

/-- No body is read before the request is forwarded. -/
theorem bodiesRead_append {early : HandlerTrace X} (h : ∀ e ∈ early, e.1.Early) :
    BodiesRead (early ++ tr) ↔ BodiesRead tr := by
  have hlate : ∀ {c : HandlerCall X} {a : c.Answer}, ¬ c.Early →
      (⟨c, a⟩ ∈ early ++ tr ↔ ⟨c, a⟩ ∈ tr) := by
    intro c a hc
    rw [List.mem_append, or_iff_right fun hmem => hc (h _ hmem)]
  have hsend : ∀ client timeoutMs sent, ¬ (HandlerCall.send (X := X) client timeoutMs sent).Early :=
    by simp [HandlerCall.Early]
  have hbody : ¬ (HandlerCall.readBody (X := X)).Early := by
    simp [HandlerCall.Early]
  simp only [BodiesRead, hlate (hsend _ _ _), hlate hbody]

/-- **The body is read** and the response signed; nothing is recorded. -/
theorem answerResponse_cases {status : ℕ} {headers : HeaderMap}
    (hrun : (answerResponse X mode status headers).Runs tr answer) :
    records tr = [] ∧ (answer.OfUpstream ↔ ∃ e, ⟨.readBody, .error e⟩ ∈ tr) := by
  obtain ⟨body, tr, rfl, hbody⟩ := runs_call_bind_iff.mp hrun
  cases body with
  | error e =>
    obtain ⟨_, tr, rfl, hdone⟩ := runs_call_bind_iff.mp hbody
    obtain ⟨rfl, rfl⟩ := runs_pure_iff.mp hdone
    exact ⟨rfl, iff_of_true trivial ⟨e, by simp⟩⟩
  | ok body =>
    obtain ⟨sigOutput, tr, rfl, hsigned⟩ := runs_call_bind_iff.mp hbody
    obtain ⟨headers', tr, rfl, hdone⟩ := runs_call_bind_iff.mp hsigned
    obtain ⟨rfl, rfl⟩ := runs_pure_iff.mp hdone
    refine ⟨rfl, iff_of_false id ?_⟩
    rintro ⟨e, he⟩
    simp at he

theorem recordFailure_cases (henabled : config.circuitBreaker.enabled = true)
    (hrun : (recordFailure X config upstream).Runs tr ()) :
    tr = [⟨.recordFailure upstream, ()⟩] := by
  rw [recordFailure, if_pos henabled] at hrun
  exact runs_call_iff.mp hrun

/-- **A status is recorded once.** -/
theorem recordStatus_cases {status : ℕ} (headers : HeaderMap)
    (henabled : config.circuitBreaker.enabled = true)
    (hrun : (recordStatus X config upstream status).Runs tr ()) :
    records tr = [(upstream, (SendOutcome.response status headers).verdict)] ∧
      ∀ e, ⟨.readBody, .error e⟩ ∉ tr := by
  unfold recordStatus at hrun
  split at hrun
  · obtain rfl := recordFailure_cases henabled hrun
    simp [HandlerCall.record?, SendOutcome.verdict, ‹isServerError status = true›]
  · rw [recordSuccess, if_pos henabled, runs_call_iff] at hrun
    simp [hrun, HandlerCall.record?, SendOutcome.verdict, ‹¬ isServerError status = true›]

/-- **A response is recorded once**, by its status; whether the client is answered with it depends
on its body. -/
theorem settle_response_cases {status : ℕ} {headers : HeaderMap}
    (henabled : config.circuitBreaker.enabled = true)
    (hrun : (settle X mode config route upstream method (.response status headers)).Runs
      tr answer) :
    records tr = [(upstream, (SendOutcome.response status headers).verdict)] ∧
      (answer.OfUpstream ↔ ∃ e, ⟨.readBody, .error e⟩ ∈ tr) := by
  obtain ⟨recorded, _, tr, rfl, hrecorded, htimed⟩ := runs_bind_iff.mp hrun
  obtain ⟨durationMs, tr, rfl, hcounted⟩ := runs_call_bind_iff.mp htimed
  obtain ⟨_, tr, rfl, hanswered⟩ := runs_call_bind_iff.mp hcounted
  obtain ⟨hrecords, hbody⟩ := recordStatus_cases headers henabled hrecorded
  obtain ⟨hnone, hanswer⟩ := answerResponse_cases hanswered
  refine ⟨by simp [hrecords, hnone, HandlerCall.record?], hanswer.trans ?_⟩
  simp [hbody]

/-- **A failure is recorded once.** -/
theorem records_answerFailure {status : ℕ} {error : GatewayError}
    (henabled : config.circuitBreaker.enabled = true)
    (hrun : (answerFailure X config route upstream method status error).Runs tr answer) :
    records tr = [(upstream, .failure)] := by
  obtain ⟨recorded, _, tr, rfl, hrecorded, hcounted⟩ := runs_bind_iff.mp hrun
  obtain rfl := recordFailure_cases henabled hrecorded
  obtain ⟨_, tr, rfl, htimed⟩ := runs_call_bind_iff.mp hcounted
  obtain ⟨durationMs, tr, rfl, hrequest⟩ := runs_call_bind_iff.mp htimed
  obtain ⟨_, tr, rfl, hdone⟩ := runs_call_bind_iff.mp hrequest
  obtain ⟨rfl, -⟩ := runs_pure_iff.mp hdone
  rfl

/-- **A request that was sent is recorded once**, by its outcome. -/
theorem records_settle {outcome : SendOutcome} (henabled : config.circuitBreaker.enabled = true)
    (hrun : (settle X mode config route upstream method outcome).Runs tr answer) :
    records tr = [(upstream, outcome.verdict)] := by
  cases outcome with
  | response status headers => exact (settle_response_cases henabled hrun).1
  | failed e => exact records_answerFailure henabled hrun
  | timedOut => exact records_answerFailure henabled hrun

/-! ## Admitted requests -/

theorem truthful_of_records {verdict : Verdict} (hrecords : records tr = [(upstream, verdict)]) :
    Truthful upstream tr answer ↔ (answer.OfUpstream → verdict = .failure) := by
  simp [Truthful, hrecords]

/-- **A request that was sent** has one truthful outcome, unless its body is not read and its status
was a success. -/
theorem truthful_settle {outcome : SendOutcome} (henabled : config.circuitBreaker.enabled = true)
    (hrun : (settle X mode config route upstream method outcome).Runs tr answer) :
    Truthful upstream tr answer ↔
      ∀ status headers e, outcome = .response status headers → ⟨.readBody, .error e⟩ ∈ tr →
        isServerError status = true := by
  rw [truthful_of_records (records_settle henabled hrun)]
  cases outcome with
  | response status headers =>
    have hverdict : (SendOutcome.response status headers).verdict = .failure ↔
        isServerError status = true := by
      rw [SendOutcome.verdict]
      split <;> simp_all
    rw [(settle_response_cases henabled hrun).2, hverdict]
    constructor
    · rintro h _ _ e ⟨⟩ hbody
      exact h ⟨e, hbody⟩
    · rintro h ⟨e, hbody⟩
      exact h status headers e rfl hbody
  | failed e => exact iff_of_true (fun _ => rfl) nofun
  | timedOut => exact iff_of_true (fun _ => rfl) nofun

/-- **A request that was admitted** has one truthful outcome if its URI parses, and its body is read
or its status that of a server error. -/
theorem truthful_forward (henabled : config.circuitBreaker.enabled = true)
    (hrun : (forward X settings config route upstream upstreamPath req).Runs tr answer) :
    Truthful upstream tr answer ↔
      (∃ uri, X.parseUri (upstreamUri upstream upstreamPath req.query) = .ok uri) ∧
        BodiesRead tr := by
  obtain ⟨e, hparse, rfl, rfl⟩ | ⟨uri, mtlsClient, outcome, rest, hparse, rfl, hsettle⟩ :=
    forward_cases hrun
  · refine iff_of_false ?_ ?_
    · rintro ⟨verdict, hnone, -⟩
      cases hnone
    · rintro ⟨⟨uri, hok⟩, -⟩
      rw [hparse] at hok
      cases hok
  have hsent : ∀ client timeoutMs sent outcome',
      (⟨.send client timeoutMs sent, outcome'⟩ : Exchange (@HandlerCall.Answer X)) ∉ rest := by
    intro client timeoutMs sent outcome' hmem
    have hstage := hsettle.mem_of_makes (makes_settle _) _ hmem
    simp at hstage
  have hrecords : Truthful upstream (⟨.mtlsClient route.id, mtlsClient⟩ ::
      ⟨.send (upstreamClient X route mtlsClient) route.timeoutMs (upstreamRequest X route uri req),
        outcome⟩ :: rest) answer ↔ Truthful upstream rest answer := by
    simp [Truthful, HandlerCall.record?]
  rw [hrecords, truthful_settle henabled hsettle, and_iff_right ⟨uri, hparse⟩]
  constructor
  · intro h client timeoutMs sent status headers e hsend hbody
    have houtcome : outcome = .response status headers := by
      replace hsend := (List.mem_cons.mp hsend).resolve_left (by simp)
      rcases List.mem_cons.mp hsend with heq | hmem
      · cases heq
        rfl
      · exact absurd hmem (hsent _ _ _ _)
    replace hbody := (List.mem_cons.mp hbody).resolve_left (by simp)
    exact h status headers e houtcome ((List.mem_cons.mp hbody).resolve_left (by simp))
  · rintro h status headers e rfl hbody
    refine h _ _ _ status headers e (List.mem_cons_of_mem _ (List.mem_cons_self ..)) ?_
    exact List.mem_cons_of_mem _ (List.mem_cons_of_mem _ hbody)

/-- **One truthful outcome** of an admitted request: exactly if its URI parses, and the body is read
unless the status is that of a server error. -/
theorem truthful_iff {matcher : RouteMatcher} {checked : Except CircuitState Unit}
    (hmatch : matcher.matchRoute X.unicode req.path req.method = some (route, upstreamPath))
    (hrun : (proxyHandler X settings req).Runs
      (⟨.loadConfig, config⟩ :: ⟨.loadMatcher, matcher⟩ :: tr) answer)
    (hcheck : ⟨.checkRequest upstream, checked⟩ ∈ tr) (hopen : checked ≠ .error .opened) :
    Truthful upstream tr answer ↔
      (∃ uri, X.parseUri (upstreamUri upstream upstreamPath req.query) = .ok uri) ∧
        BodiesRead tr := by
  obtain ⟨henabled, early, rest, rfl, hearly, hforward⟩ :=
    forward_of_admitted ((runs_proxyHandler_iff hmatch).mp hrun) hcheck hopen
  have hrecords : Truthful upstream (early ++ rest) answer ↔ Truthful upstream rest answer := by
    rw [Truthful, records_append, records_of_early hearly, List.nil_append, Truthful]
  rw [hrecords, truthful_forward henabled hforward, bodiesRead_append hearly]

end

/-! ## Untruthful outcomes -/

/-- A configuration with one route, and the circuit breaker on. -/
def guardedConfig (upstream : String) : GatewayConfig :=
  { minimalConfig [RouteConfig.plain "all" "/" upstream] with circuitBreaker := .default }

theorem matchRoute_guarded (upstream : String) :
    (RouteMatcher.new asciiCases (guardedConfig upstream).routes).matchRoute
        (plainHandler plainTls).unicode rootRequest.path rootRequest.method
      = some (.ofConfig asciiCases (RouteConfig.plain "all" "/" upstream), "/") := by
  have happlies : (Route.ofConfig asciiCases (RouteConfig.plain "all" "/" upstream)).applies
      rootRequest.path = true := by
    have hroot : Text.startsWith "/" "/" = true := rfl
    rw [Route.applies, Bool.or_eq_true]
    exact .inl hroot
  rw [guardedConfig, minimalConfig, RouteMatcher.new_singleton, RouteMatcher.matchRoute,
    List.find?_singleton, happlies]
  rfl

/-- How its request for the root runs. -/
def guardedRun (upstream : String) (outcome : SendOutcome) (body : Except String (List UInt8)) :
    HandlerTrace (plainHandler plainTls) × HandlerAnswer :=
  plainRun (guardedConfig upstream) (RouteConfig.plain "all" "/" upstream) EntryMap.new outcome body

theorem runs_guarded (upstream : String) (outcome : SendOutcome)
    (body : Except String (List UInt8)) :
    (proxyHandler (plainHandler plainTls) ⟨none, .classical⟩ rootRequest).Runs
      (⟨.loadConfig, guardedConfig upstream⟩ ::
        ⟨.loadMatcher, RouteMatcher.new asciiCases (guardedConfig upstream).routes⟩ ::
        (guardedRun upstream outcome body).1) (guardedRun upstream outcome body).2 :=
  runs_plainRun _ _ _ (matchRoute_guarded upstream)

/-- A request that its upstream answers. -/
theorem truthful_answered :
    Truthful "http://a" (guardedRun "http://a" (.response 200 EntryMap.new) (.ok [])).1
      (guardedRun "http://a" (.response 200 EntryMap.new) (.ok [])).2 := by
  have hcheck : ⟨.checkRequest "http://a", .ok ()⟩ ∈
      (guardedRun "http://a" (.response 200 EntryMap.new) (.ok [])).1 :=
    .tail _ (.tail _ (.head _))
  refine (truthful_iff (matchRoute_guarded "http://a") (runs_guarded _ _ _) hcheck nofun).mpr
    ⟨⟨"http://a/", rfl⟩, ?_⟩
  rintro client timeoutMs sent status headers e - hbody
  exact absurd (answered_mem _ _ _ hbody) nofun

/-- **Two ways out that do not tell.**  Of a request whose URI does not parse, the circuit breaker
is told nothing; of one whose body cannot be read, it is told a success, and the client a failure.
-/
theorem untruthful_outcomes :
    (guardedConfig "http://bad host").validate = .ok () ∧
    (∃ answer tr, (proxyHandler (plainHandler plainTls) ⟨none, .classical⟩ rootRequest).Runs tr
      answer ∧ ⟨.checkRequest "http://bad host", .ok ()⟩ ∈ tr ∧ records tr = [] ∧
      answer = .error (.internal "bad upstream URI: invalid uri character") none ∧
      ¬ Truthful "http://bad host" tr answer) ∧
    ∃ answer tr, (proxyHandler (plainHandler plainTls) ⟨none, .classical⟩ rootRequest).Runs tr
      answer ∧ ⟨.checkRequest "http://a", .ok ()⟩ ∈ tr ∧ records tr = [("http://a", .success)] ∧
      answer = .error (.upstreamConnection "connection reset") none ∧
      ¬ Truthful "http://a" tr answer := by
  have hvalid : (guardedConfig "http://bad host").validate = .ok () :=
    GatewayConfig.validate_eq_ok.mpr (by
      simp [guardedConfig, minimalConfig, RouteConfig.plain, RouteConfig.Valid])
  refine ⟨hvalid, ⟨_, _, runs_guarded "http://bad host" .timedOut (.ok []), ?_, rfl, rfl, ?_⟩,
    ⟨_, _, runs_guarded "http://a" (.response 200 EntryMap.new) (.error "connection reset"), ?_,
      rfl, rfl, ?_⟩⟩
  · exact .tail _ (.tail _ (.tail _ (.tail _ (.head _))))
  · rintro ⟨verdict, hnone, -⟩
    cases hnone
  · exact .tail _ (.tail _ (.tail _ (.tail _ (.head _))))
  · rintro ⟨verdict, hrecords, hfailure⟩
    cases hrecords
    cases hfailure trivial

end PqcGateway
