import PqcGateway.Proxy.Alive
import PqcGateway.Proxy.Destination
import PqcGateway.Response.Receipt

/-!
# Proxy/Delivered — what a response is made of

    send ──▸ status, headers ──╮
    read ──▸ body ─────────────┼──▸ sign ──▸ signBody ──▸ response      rotate, rotate, …
                               ╰── between any two: other requests and rotations

A response that the running gateway gives is made of what its own request was sent for, however
other requests interleave, and it is signed with the keys of one moment.  From then on rotations
count against it: the JWKS document of a later moment has its key for as many of them as old keys
are retained (`delivered`).
-/

namespace PqcGateway

open Program

/-! ## What a handler answers -/

/-- The headers that signing writes. -/
def signatureHeaders : List String :=
  ["x-pqc-signature-algorithm", "x-pqc-signature", "x-pqc-signature-classical",
    "x-pqc-content-digest", "x-pqc-public-key-fingerprint", "x-pqc-key-id"]

section

variable {R : ResponseCrates} {name : String}

theorem get_setSignatureHeaders (hname : name ∉ signatureHeaders) (output : SignatureOutput)
    (headers : HeaderMap) :
    (setSignatureHeaders R output headers).get name = headers.get name := by
  simp only [signatureHeaders, List.mem_cons, not_or] at hname
  unfold setSignatureHeaders
  cases output.classicalSignature <;> simp [get_setHeader, hname]

theorem get_signResponseBody_of_notMem (hname : name ∉ signatureHeaders)
    (mgr : VersionedKeyManager) (body : List UInt8) (headers : HeaderMap) :
    (signResponseBody R.toGatewayCrates mgr body headers).get name = headers.get name := by
  simp only [signatureHeaders, List.mem_cons, not_or] at hname
  unfold signResponseBody
  dsimp only
  split
  · rfl
  · simp [get_setHeader, hname]

theorem body_signResponse {skm : SignatureKeyManager R.signatures} {mode : SignatureMode}
    {mgr : VersionedKeyManager} {upstream response : HttpResponse}
    (hresponse : signResponse skm mode mgr upstream = .ok response) :
    response.body = upstream.body := by
  obtain ⟨output, -, hresponse⟩ := Checked.bind_eq_ok.mp hresponse
  obtain rfl := Except.ok.inj hresponse
  rfl

/-- **Signing leaves the other headers as they are.** -/
theorem get_signResponse {skm : SignatureKeyManager R.signatures} {mode : SignatureMode}
    {mgr : VersionedKeyManager} {upstream response : HttpResponse}
    (hresponse : signResponse skm mode mgr upstream = .ok response)
    (hname : name ∉ signatureHeaders) : response.headers.get name = upstream.headers.get name := by
  obtain ⟨output, -, hresponse⟩ := Checked.bind_eq_ok.mp hresponse
  obtain rfl := Except.ok.inj hresponse
  rw [get_signResponseBody_of_notMem hname]
  cases output with
  | none => rfl
  | some output => exact get_setSignatureHeaders hname output upstream.headers

end

section

variable {X : HandlerCrates} {settings : SigningSettings} {config : GatewayConfig} {route : Route}
  {upstreamBase upstreamPath : String} {req : ProxyRequest} {tr : HandlerTrace X}
  {response : HttpResponse} {mode : SignatureMode}

theorem refused_limitRequest {refused : HandlerAnswer}
    (hrun : (limitRequest X config route req).Runs tr (.error refused)) :
    ∃ error retryAfter, refused = .error error retryAfter := by
  unfold limitRequest at hrun
  split at hrun
  · obtain ⟨result, tr, rfl, hresult⟩ := runs_call_bind_iff.mp hrun
    cases result with
    | allowed => cases (runs_pure_iff.mp hresult).2
    | limited after =>
      obtain ⟨_, tr, rfl, hdone⟩ := runs_call_bind_iff.mp hresult
      cases (runs_pure_iff.mp hdone).2
      exact ⟨_, _, rfl⟩
  · cases (runs_pure_iff.mp hrun).2

theorem refused_admitRequest {refused : HandlerAnswer}
    (hrun : (admitRequest X config route).Runs tr (.error refused)) :
    ∃ error retryAfter, refused = .error error retryAfter := by
  obtain ⟨upstreamBase, tr, rfl, hrest⟩ := runs_call_bind_iff.mp hrun
  split at hrest
  · obtain ⟨checked, tr, rfl, hchecked⟩ := runs_call_bind_iff.mp hrest
    split at hchecked
    · obtain ⟨_, tr, rfl, hdone⟩ := runs_call_bind_iff.mp hchecked
      cases (runs_pure_iff.mp hdone).2
      exact ⟨_, _, rfl⟩
    · cases (runs_pure_iff.mp hchecked).2
  · cases (runs_pure_iff.mp hrest).2

theorem isSend_eq_false {e : Exchange (@HandlerCall.Answer X)}
    (he : e.1 ∉ HandlerStage.forwarding.calls X) : isSend e = false := by
  obtain ⟨call, answer⟩ := e
  cases call with
  | send client timeoutMs sent => exact absurd (by simp) he
  | _ => rfl

theorem filter_isSend_of_makes {α : Type} {p : Handler X α} {a : α} {calls : Set (HandlerCall X)}
    (hrun : p.Runs tr a) (hmakes : p.Makes calls)
    (hcalls : ∀ c ∈ calls, c ∉ HandlerStage.forwarding.calls X) : tr.filter isSend = [] :=
  List.filter_eq_nil_iff.mpr fun e he => by
    rw [isSend_eq_false (hcalls _ (hrun.mem_of_makes hmakes e he))]
    decide

/-- **A request that is answered with a response** was forwarded. -/
theorem forward_of_response
    (hrun : (handleMatched X settings config route upstreamPath req).Runs tr (.response response)) :
    ∃ early upstreamBase rest, tr = early ++ rest ∧ early.filter isSend = [] ∧
      (forward X settings config route upstreamBase upstreamPath req).Runs rest
        (.response response) := by
  dsimp only [handleMatched] at hrun
  split at hrun
  · cases (runs_pure_iff.mp hrun).2
  · obtain ⟨limits, limited, tr, rfl, hlimits, hlimited⟩ := runs_bind_iff.mp hrun
    have hnone := filter_isSend_of_makes hlimits makes_limitRequest (by
      intro c hc
      cases c <;> simp_all)
    split at hlimited
    · obtain ⟨_, _, rfl⟩ := refused_limitRequest hlimits
      cases (runs_pure_iff.mp hlimited).2
    · obtain ⟨admission, result, rest, rfl, hasked, hresult⟩ := runs_bind_iff.mp hlimited
      have hnone' := filter_isSend_of_makes hasked makes_admitRequest (by
        intro c hc
        cases c <;> simp_all)
      split at hresult
      · obtain ⟨_, _, rfl⟩ := refused_admitRequest hasked
        cases (runs_pure_iff.mp hresult).2
      · exact ⟨limits ++ admission, _, rest, (List.append_assoc ..).symm,
          by rw [List.filter_append, hnone, hnone', List.nil_append], hresult⟩

theorem error_of_answerFailure {method : String} {status : ℕ} {error : GatewayError}
    {answer : HandlerAnswer}
    (hrun : (answerFailure X config route upstreamBase method status error).Runs tr answer) :
    answer = .error error none := by
  obtain ⟨_, _, tr, rfl, -, hrest⟩ := runs_bind_iff.mp hrun
  obtain ⟨_, tr, rfl, hcounted⟩ := runs_call_bind_iff.mp hrest
  obtain ⟨durationMs, tr, rfl, htimed⟩ := runs_call_bind_iff.mp hcounted
  obtain ⟨_, tr, rfl, hdone⟩ := runs_call_bind_iff.mp htimed
  exact (runs_pure_iff.mp hdone).2

/-- **A response is made of an upstream's response**: its status is told and counted before its
body is read. -/
theorem answerResponse_of_settle {method : String} {outcome : SendOutcome}
    (hrun : (settle X mode config route upstreamBase method outcome).Runs tr
      (.response response)) :
    ∃ status headers ending, outcome = .response status headers ∧ ending <:+ tr ∧
      (answerResponse X mode status headers).Runs ending (.response response) := by
  cases outcome with
  | response status headers =>
    obtain ⟨told, _, tr, rfl, -, hrest⟩ := runs_bind_iff.mp hrun
    obtain ⟨durationMs, tr, rfl, htimed⟩ := runs_call_bind_iff.mp hrest
    obtain ⟨_, ending, rfl, hending⟩ := runs_call_bind_iff.mp htimed
    exact ⟨status, headers, ending, rfl, ((List.suffix_cons _ _).trans (List.suffix_cons _ _)).trans
      (List.suffix_append told _), hending⟩
  | failed e => cases error_of_answerFailure hrun
  | timedOut => cases error_of_answerFailure hrun

/-- **How a response is made**: it ends with the body, which is signed twice. -/
theorem ending_of_answerResponse {status : ℕ} {headers : HeaderMap}
    (hrun : (answerResponse X mode status headers).Runs tr (.response response)) :
    ∃ output headers', response.status = status ∧
      tr = [⟨.readBody, (.ok response.body : Except String (List UInt8))⟩,
        ⟨.sign mode response.body, output⟩, ⟨.signBody response.body headers',
          response.headers⟩] := by
  obtain ⟨body, tr, rfl, hbody⟩ := runs_call_bind_iff.mp hrun
  cases body with
  | error e =>
    obtain ⟨_, tr, rfl, hdone⟩ := runs_call_bind_iff.mp hbody
    cases (runs_pure_iff.mp hdone).2
  | ok body =>
    obtain ⟨output, tr, rfl, hsigned⟩ := runs_call_bind_iff.mp hbody
    obtain ⟨signed, tr, rfl, hdone⟩ := runs_call_bind_iff.mp hsigned
    obtain ⟨rfl, hresponse⟩ := runs_pure_iff.mp hdone
    cases hresponse
    exact ⟨output, _, rfl, rfl⟩

/-- The response is made of what the request was sent for, once, on a route that a matcher matched
it to. -/
structure MadeOf (X : HandlerCrates) (settings : SigningSettings) (req : ProxyRequest)
    (tr : HandlerTrace X) (matcher : RouteMatcher) (route : Route) (upstream : HttpResponse)
    (ending : HandlerTrace X) (response : HttpResponse) : Prop where
  loaded : ⟨.loadMatcher, matcher⟩ ∈ tr
  sent : ∃ path upstreamBase uri client,
    matcher.matchRoute X.unicode req.path req.method = some (route, path) ∧
    X.parseUri (upstreamUri upstreamBase path req.query) = .ok uri ∧
    tr.filter isSend = [⟨.send client route.timeoutMs (upstreamRequest X route uri req),
      .response upstream.status upstream.headers⟩]
  status : response.status = upstream.status
  body : response.body = upstream.body
  ends : ending <:+ tr
  signed : (answerResponse X (SignatureMode.resolve X.unicode settings.envSignatureMode
    route.signatureMode settings.defaultSignatureMode) upstream.status upstream.headers).Runs
      ending (.response response)

/-- **What a response is made of.** -/
theorem exists_madeOf (hrun : (proxyHandler X settings req).Runs tr (.response response)) :
    ∃ matcher route upstream ending,
      MadeOf X settings req tr matcher route upstream ending response := by
  obtain ⟨config, tr, rfl, hconfig⟩ := runs_call_bind_iff.mp hrun
  obtain ⟨matcher, tr, rfl, hmatcher⟩ := runs_call_bind_iff.mp hconfig
  split at hmatcher
  · cases (runs_pure_iff.mp hmatcher).2
  · rename_i route path hmatch
    obtain ⟨early, upstreamBase, rest, rfl, hearly, hforward⟩ := forward_of_response hmatcher
    obtain ⟨e, -, -, herror⟩ | ⟨uri, mtlsClient, outcome, rest, huri, rfl, hsettle⟩ :=
      forward_cases hforward
    · cases herror
    have hlate := filter_isSend_of_makes hsettle (makes_settle outcome) (by
      intro c hc
      cases c <;> simp_all)
    obtain ⟨status, headers, ending, rfl, hends, hending⟩ := answerResponse_of_settle hsettle
    obtain ⟨output, headers', hstatus, -⟩ := ending_of_answerResponse hending
    refine ⟨matcher, route, ⟨status, headers, response.body⟩, ending, by simp,
      ⟨path, upstreamBase, uri, upstreamClient X route mtlsClient, hmatch, huri, ?_⟩, hstatus, rfl,
      hends.trans ?_, hending⟩
    · simp only [List.filter_cons, List.filter_append, hearly, hlate, isSend, List.nil_append]
      rfl
    · exact ((List.suffix_cons _ _).trans (List.suffix_cons _ _)).trans
        ((List.suffix_append early _).trans ((List.suffix_cons _ _).trans (List.suffix_cons _ _)))

end

/-! ## The signers of a run

The first signer is set at the start, and only rotations move the second. -/

section

variable {X : HandlerCrates} {settings : SigningSettings} {s t : Serving X}
  {events : List (RunEvent X)} {reports : List (RunReport X)} {env : Option String}
  {draw : StartDraw X.mlDsa} {config : GatewayConfig} {g : RunningGateway X}

/-- The report is of a rotation. -/
def rotates : RunReport X → Bool
  | .moved (.rotate _) => true
  | _ => false

/-- What another task does to the signers: a rotation is one of the key manager's. -/
theorem signers_move {moved : GatewayMove X} {g g' : RunningGateway X}
    (h : RunningGateway.move X moved g = .ok g') :
    g'.signatureKeyManager = g.signatureKeyManager ∧
      ∃ calls answers, (keyMachine X.mlDsa X.sha256).run g.versionedKeyManager calls
          = .ok (g'.versionedKeyManager, answers) ∧
        rotations calls = [(.moved moved : RunReport X)].countP rotates := by
  cases moved with
  | rotate draw =>
    obtain ⟨⟨mgr, kid⟩, hrotate, h⟩ := Checked.bind_eq_ok.mp h
    obtain rfl := Except.ok.inj h
    exact ⟨rfl, [.rotate draw], [.rotated kid], Machine.run_cons_eq_ok _ |>.mpr
      ⟨mgr, _, [], Checked.bind_eq_ok.mpr ⟨(mgr, kid), hrotate, rfl⟩, rfl, rfl⟩, rfl⟩
  | updateHealth now upstream healthy =>
    obtain ⟨_, -, h⟩ := Checked.bind_eq_ok.mp h
    obtain rfl := Except.ok.inj h
    exact ⟨rfl, [], [], rfl, rfl⟩
  | _ =>
    obtain rfl := Except.ok.inj h
    exact ⟨rfl, [], [], rfl, rfl⟩

/-- **The key manager runs by itself**: it moves by the rotations that are reported. -/
theorem run_keys (hrun : (gatewayServer X settings).machine.run s events = .ok (t, reports)) :
    ∃ calls answers, (keyMachine X.mlDsa X.sha256).run s.shared.versionedKeyManager calls
        = .ok (t.shared.versionedKeyManager, answers) ∧
      rotations calls = reports.countP rotates := by
  refine (gatewayServer X settings).machine.run_answered (I := fun reports t =>
    ∃ calls answers, (keyMachine X.mlDsa X.sha256).run s.shared.versionedKeyManager calls
        = .ok (t.shared.versionedKeyManager, answers) ∧
      rotations calls = reports.countP rotates) ?_ ⟨[], [], rfl, rfl⟩ hrun
  rintro reports s₁ event s₂ report ⟨calls, answers, hpast, hcount⟩ hstep
  have hnext : ∃ calls' answers', (keyMachine X.mlDsa X.sha256).run s₁.shared.versionedKeyManager
      calls' = .ok (s₂.shared.versionedKeyManager, answers') ∧
      rotations calls' = [report].countP rotates := by
    obtain ⟨request, -, rfl, rfl⟩ | ⟨id, d, job, call, next, answer, shared, -, -, -, -, hserve,
      rfl, rfl⟩ | ⟨id, job, -, -, rfl, rfl⟩ | ⟨moved, shared, -, hmove, rfl, rfl⟩ | ⟨rfl, rfl⟩ :=
      Server.step_cases hstep
    · exact ⟨[], [], rfl, rfl⟩
    · exact ⟨[], [], by rw [(signers_serve hserve).1]; rfl, rfl⟩
    · exact ⟨[], [], rfl, rfl⟩
    · exact (signers_move hmove).2
    · exact ⟨[], [], rfl, rfl⟩
  obtain ⟨calls', answers', hnext, hcount'⟩ := hnext
  refine ⟨calls ++ calls', _, Machine.run_append_eq_ok _ |>.mpr ⟨_, _, _, hpast, hnext, rfl⟩, ?_⟩
  rw [rotations, List.countP_append, List.countP_append, ← hcount, ← hcount']
  rfl

/-- The first signer made the signature, if one was asked for. -/
def SignedBy (skm : SignatureKeyManager X.signatures) : Exchange (@HandlerCall.Answer X) → Prop
  | ⟨.sign mode body, output⟩ => skm.sign mode body = .ok output
  | _ => True

theorem signedBy_serve {d : Delivery} {call : HandlerCall X} {g g' : RunningGateway X}
    {answer : call.Answer} (h : RunningGateway.serve X d call g = .ok (g', answer)) :
    SignedBy g.signatureKeyManager ⟨call, answer⟩ := by
  cases call with
  | sign mode body =>
    obtain ⟨output, hsign, h⟩ := Checked.bind_eq_ok.mp h
    obtain ⟨-, rfl⟩ := Prod.mk.inj (Except.ok.inj h)
    exact hsign
  | _ => trivial

/-- **The first signer is the same all along.** -/
theorem run_signedBy
    (hrun : (gatewayServer X settings).machine.run (Server.start g) events = .ok (t, reports)) :
    ∀ request ∈ t.jobs, ∀ e ∈ request.trace, SignedBy g.signatureKeyManager e := by
  refine (Server.run_answers
    (I := fun g' : RunningGateway X => g'.signatureKeyManager = g.signatureKeyManager)
    (fun d call g₁ g₂ answer hI h => ⟨(signers_serve h).2.trans hI, ?_⟩)
    (fun moved g₁ g₂ _ hI h => (signers_move h).1.trans hI) rfl
    (fun _ h => absurd h List.not_mem_nil) hrun).2
  exact hI ▸ signedBy_serve h

/-- Where an exchange was made. -/
theorem run_at {before after : List (RunReport X)} {id : ℕ} {d : Delivery}
    {e : Exchange (@HandlerCall.Answer X)}
    (hrun : (gatewayServer X settings).machine.run s events
      = .ok (t, before ++ .served id d e :: after)) :
    ∃ early s₁ s₂ late, (gatewayServer X settings).machine.run s early = .ok (s₁, before) ∧
      RunningGateway.serve X d e.1 s₁.shared = .ok (s₂.shared, e.2) ∧
      (gatewayServer X settings).machine.run s₂ late = .ok (t, after) := by
  obtain ⟨early, event, late, s₁, s₂, -, hbefore, hstep, hafter⟩ :=
    (gatewayServer X settings).machine.run_split hrun
  exact ⟨early, s₁, s₂, late, hbefore, Server.step_served hstep, hafter⟩

/-- **A response is made of what its request was sent for, and signed at one moment.**  In every run
the request was sent once, to a route that stored routes match it to, and the upstream's answer is
what `signResponse` signed for the client, with the keys of the moment; other headers are as the
upstream sent them.  The JWKS document of now has the response's key if at most as many rotations
came since as old keys are retained, and the response checks with it then. -/
theorem delivered (hX : X.toResponseCrates.Lawful) (hurl : X.jwt.b64url.Lawful)
    (hlaunch : Launched X env draw config g) (hmade : g.signatureKeyManager.Made)
    (hrun : (gatewayServer X settings).machine.run (Server.start g) events = .ok (t, reports))
    {id : ℕ} {request : Request X} {response : HttpResponse}
    (hrequest : t.jobs[id]? = some request)
    (hanswer : Job.answer? request = some (.response response)) :
    ∃ routes route upstream ending early s before d headers after,
      RoutesOf config events routes ∧
      MadeOf X settings request.request request.trace (RouteMatcher.new X.unicode routes) route
        upstream ending response ∧
      (gatewayServer X settings).machine.run (Server.start g) early = .ok (s, before) ∧
      reports = before ++ .served id d ⟨.signBody response.body headers, response.headers⟩ ::
        after ∧
      signResponse g.signatureKeyManager (SignatureMode.resolve X.unicode settings.envSignatureMode
        route.signatureMode settings.defaultSignatureMode) s.shared.versionedKeyManager upstream
          = .ok response ∧
      (∀ name ∉ signatureHeaders, response.headers.get name = upstream.headers.get name) ∧
      ∀ order, response.PublishedIn X.toResponseCrates
          (t.shared.versionedKeyManager.jwks X.jwt.b64url.encode order) ↔
        after.countP rotates ≤ config.threshold.maxRetainedKeys := by
  obtain ⟨htrace, hruns⟩ := Server.runs_of_answer hrun hrequest hanswer
  obtain ⟨matcher, route, upstream, ending, hmadeOf⟩ := exists_madeOf hruns
  have hmem := List.mem_of_getElem? hrequest
  obtain ⟨routes, hroutes, rfl⟩ : Loaded config events ⟨.loadMatcher, matcher⟩ :=
    run_loaded hlaunch hrun request hmem _ hmadeOf.loaded
  -- the body was signed last
  obtain ⟨output, headers, -, hending⟩ := ending_of_answerResponse hmadeOf.signed
  have hlast : [⟨.signBody response.body headers, response.headers⟩] <:+ ending := by
    rw [hending]
    exact List.suffix_append [_, _] _
  obtain ⟨before, d, after, rfl⟩ := Server.exists_served_last (htrace ▸ hlast.trans hmadeOf.ends)
  obtain ⟨early, s₁, s₂, late, hbefore, hserve, hafter⟩ := run_at hrun
  obtain ⟨hshared, hheaders⟩ := Prod.mk.inj (Except.ok.inj hserve)
  -- by the signers of that moment
  have hsigned := run_signedBy hrun request hmem
  have hsignBody : ∀ body headers' signed, ⟨.signBody body headers', signed⟩ ∈ ending →
      signed = signResponseBody X.toGatewayCrates s₁.shared.versionedKeyManager body headers' := by
    rw [hending]
    intro body headers' signed he
    simp only [List.mem_cons, List.not_mem_nil, or_false] at he
    obtain he | he | he := he
    · cases he
    · cases he
    · cases he
      exact hheaders.symm
  obtain ⟨body, hresponse⟩ := response_of_answerResponse hmadeOf.signed
    (fun mode body output he => hsigned _ (hmadeOf.ends.subset he)) hsignBody
  obtain rfl : upstream.body = body := hmadeOf.body.symm.trans (body_signResponse hresponse)
  refine ⟨routes, route, upstream, ending, early, s₁, before, d, headers, after, hroutes, hmadeOf,
    hbefore, rfl, hresponse, fun name hname => get_signResponse hresponse hname, fun order => ?_⟩
  -- the window of then, and what the rotations since have made of it
  have hstarted := started_launched hlaunch
  obtain ⟨cur₀, h₀, hmax⟩ := started_tracks hstarted
  obtain ⟨calls, answers, hkeys, -⟩ := run_keys hbefore
  obtain ⟨past, cur, h⟩ := h₀.run_of_ok hkeys
  obtain ⟨response', sig, hresponse', hsig, hwritten⟩ := written_signResponse hX hmade h.toTracks
    (isVisible_currentKid hstarted hkeys) _ upstream
  obtain rfl : response' = response := Except.ok.inj (hresponse'.symm.trans hresponse)
  obtain ⟨later, answers', hlater, hcount⟩ := run_keys hafter
  rw [(signers_serve hserve).1] at hlater
  obtain ⟨past', cur', h'⟩ := h.toTracks.run_of_ok hlater
  refine (hwritten.publishedIn_iff hX hurl h.made_current.pair hsig h'.toTracks
    (fun key hget => h'.publicKey_of_get hget) order).trans (h'.get_iff.trans ?_)
  rw [hcount, h.max_eq, ← hmax]

end

/-- The upstream answers. -/
def respondsOk : Delivery := ⟨0, .response 200 EntryMap.new, 1, .ok [1, 2, 3]⟩

/-- A request that is answered is answered with a response whose key the JWKS document has. -/
theorem delivered_ok : ∃ g t reports request response,
    Launched (plainHandler plainTls) none plainStart servingConfig g ∧
    (gatewayServer (plainHandler plainTls) ⟨none, .classical⟩).machine.run (Server.start g)
      (.start rootRequest :: List.replicate 12 (.advance 0 respondsOk)) = .ok (t, reports) ∧
    t.jobs[0]? = some request ∧ Job.answer? request = some (.response response) ∧
    ∀ order, response.PublishedIn plainResponse
      (t.shared.versionedKeyManager.jwks plainCodec.b64url.encode order) := by
  obtain ⟨keys, hlaunch⟩ := exists_serving servingConfig rfl rfl
  have hrun : ∃ t reports request response,
      (gatewayServer (plainHandler plainTls) ⟨none, .classical⟩).machine.run
        (Server.start (servingGateway servingConfig keys))
        (.start rootRequest :: List.replicate 12 (.advance 0 respondsOk)) = .ok (t, reports) ∧
      t.jobs[0]? = some request ∧ Job.answer? request = some (.response response) ∧
      reports.countP rotates = 0 := ⟨_, _, _, _, rfl, rfl, rfl, rfl⟩
  obtain ⟨t, reports, request, response, hrun, hrequest, hanswer, hnone⟩ := hrun
  obtain ⟨_, _, _, _, _, _, before, _, _, after, -, -, -, rfl, -, -, hpublished⟩ :=
    delivered lawful_plainResponse lawful_wideBase64 hlaunch (.inl ⟨_, _, rfl⟩) hrun hrequest
      hanswer
  refine ⟨_, t, _, request, response, hlaunch, hrun, hrequest, hanswer, fun order =>
    (hpublished order).mpr ?_⟩
  rw [List.countP_append, List.countP_cons] at hnone
  omega

end PqcGateway
