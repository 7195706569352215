import PqcGateway.Proxy.Outcome

/-!
# Proxy/BodyLimit — the size of a body, declared and sent

The handler compares the limit with the `content-length` header and sends the body as it comes.  A
body that is framed in another way declares no length: the limit holds of a request that is sent
(`LimitHolds`) exactly where the length is declared or the body is short anyway (`limitHolds_iff`).

* `limitHolds_two_bytes` — two bytes that are declared keep a limit of two.
* `chunked_body_sent` — three that are sent in chunks do not.
-/

namespace PqcGateway

open Program

/-- The body limit on a route: the route's, or the server's when the route sets none. -/
def bodyLimit (config : GatewayConfig) (route : Route) : ℕ :=
  route.maxRequestBodyBytes.getD config.server.maxRequestBodyBytes

/-- The length in the `content-length` header. -/
def ProxyRequest.contentLength (req : ProxyRequest) : Option ℕ :=
  (req.header "content-length").bind Text.parseU64

/-- The length that frames the body, which a transfer encoding overrides. -/
def ProxyRequest.declaredLength (req : ProxyRequest) : Option ℕ :=
  if (req.headers.get "transfer-encoding").isSome then none else req.contentLength

/-- The HTTP library ends a body at the length that frames it. -/
def ProxyRequest.Framed (req : ProxyRequest) : Prop :=
  ∀ n, req.declaredLength = some n → req.body.length ≤ n

/-- **The limit holds**: no longer body is sent to the upstream. -/
def LimitHolds {X : HandlerCrates} (config : GatewayConfig) (route : Route) (tr : HandlerTrace X) :
    Prop :=
  ∀ client timeoutMs sent outcome, ⟨.send client timeoutMs sent, outcome⟩ ∈ tr →
    sent.body.length ≤ bodyLimit config route

section

variable {X : HandlerCrates} {settings : SigningSettings} {config : GatewayConfig} {route : Route}
  {matcher : RouteMatcher} {upstreamPath : String} {req : ProxyRequest} {tr : HandlerTrace X}
  {answer : HandlerAnswer}

/-- **A request that makes a call** has passed the check of its length. -/
theorem contentLength_le_of_mem {e : Exchange (@HandlerCall.Answer X)} {n : ℕ}
    (hrun : (handleMatched X settings config route upstreamPath req).Runs tr answer) (he : e ∈ tr)
    (hlen : req.contentLength = some n) : n ≤ bodyLimit config route := by
  by_contra hlong
  have hany : ((req.header "content-length").bind Text.parseU64).any
      (route.maxRequestBodyBytes.getD config.server.maxRequestBodyBytes < ·) = true := by
    rw [ProxyRequest.contentLength] at hlen
    rw [hlen]
    exact decide_eq_true (not_le.mp hlong)
  dsimp only [handleMatched] at hrun
  rw [if_pos hany] at hrun
  rw [(runs_pure_iff.mp hrun).1] at he
  exact absurd he List.not_mem_nil

/-- The body is sent as it comes. -/
theorem body_of_sent {client : UpstreamClient X.tls} {timeoutMs : ℕ} {sent : UpstreamRequest X}
    {outcome : SendOutcome}
    (hrun : (handleMatched X settings config route upstreamPath req).Runs tr answer)
    (hsend : ⟨.send client timeoutMs sent, outcome⟩ ∈ tr) : sent.body = req.body := by
  obtain ⟨upstreamBase, uri, mtlsClient, -, -, -, -, rfl⟩ := sent_cases hrun hsend
  rfl

/-- **The limit holds of a request that is sent** exactly if its length is declared or its body is
no longer than the limit. -/
theorem limitHolds_iff
    (hmatch : matcher.matchRoute X.unicode req.path req.method = some (route, upstreamPath))
    (hrun : (proxyHandler X settings req).Runs
      (⟨.loadConfig, config⟩ :: ⟨.loadMatcher, matcher⟩ :: tr) answer)
    (hframed : req.Framed)
    (hsent : ∃ client timeoutMs sent outcome, ⟨.send client timeoutMs sent, outcome⟩ ∈ tr) :
    LimitHolds config route tr ↔
      req.declaredLength.isSome ∨ req.body.length ≤ bodyLimit config route := by
  have hmatched := (runs_proxyHandler_iff hmatch).mp hrun
  obtain ⟨client, timeoutMs, sent, outcome, hsend⟩ := hsent
  constructor
  · intro h
    have hle := h client timeoutMs sent outcome hsend
    rw [body_of_sent hmatched hsend] at hle
    exact .inr hle
  · intro h client timeoutMs sent outcome hsend
    rw [body_of_sent hmatched hsend]
    obtain hdeclared | hshort := h
    · obtain ⟨n, hn⟩ := Option.isSome_iff_exists.mp hdeclared
      have hlen : req.contentLength = some n := (Option.ite_none_left_eq_some.mp hn).2
      exact (hframed n hn).trans (contentLength_le_of_mem hmatched hsend hlen)
    · exact hshort

end

/-! ## A body that declares no length -/

/-- A configuration with one route and a limit of two bytes. -/
def limitedConfig : GatewayConfig :=
  let config := guardedConfig "http://a"
  { config with server := { config.server with maxRequestBodyBytes := 2 } }

/-- Its route. -/
def limitedRoute : Route := .ofConfig asciiCases (RouteConfig.plain "all" "/" "http://a")

/-- How a request on the route runs. -/
def limitedRun (req : ProxyRequest) : HandlerTrace (plainHandler plainTls) × HandlerAnswer :=
  (handleMatched (plainHandler plainTls) ⟨none, .classical⟩ limitedConfig limitedRoute "/"
    req).answered (plainAnswers limitedConfig EntryMap.new .timedOut (.ok []))

/-- A request for the root with a header and a body. -/
def bodyRequest (name value : String) (body : List UInt8) : ProxyRequest :=
  { rootRequest with headers := EntryMap.new.insert name [value], body }

theorem matchRoute_limited (name value : String) (body : List UInt8) :
    (RouteMatcher.new asciiCases limitedConfig.routes).matchRoute (plainHandler plainTls).unicode
      (bodyRequest name value body).path (bodyRequest name value body).method
        = some (limitedRoute, "/") := matchRoute_guarded "http://a"

theorem runs_limited (name value : String) (body : List UInt8) :
    (proxyHandler (plainHandler plainTls) ⟨none, .classical⟩ (bodyRequest name value body)).Runs
      (⟨.loadConfig, limitedConfig⟩ ::
        ⟨.loadMatcher, RouteMatcher.new asciiCases limitedConfig.routes⟩ ::
        (limitedRun (bodyRequest name value body)).1)
      (limitedRun (bodyRequest name value body)).2 :=
  (runs_proxyHandler_iff (matchRoute_limited name value body)).mpr (runs_answered _ _)

/-- A request with a length of two and a body of two bytes. -/
theorem limitHolds_two_bytes :
    LimitHolds limitedConfig limitedRoute
      (limitedRun (bodyRequest "content-length" "2" [1, 2])).1 := by
  have hdeclared : (bodyRequest "content-length" "2" [1, 2]).declaredLength = some 2 := by decide
  have hframed : (bodyRequest "content-length" "2" [1, 2]).Framed := by
    rintro n hn
    obtain rfl := Option.some.inj (hdeclared.symm.trans hn)
    exact le_rfl
  have hsent : ∃ client timeoutMs sent outcome, ⟨.send client timeoutMs sent, outcome⟩ ∈
      (limitedRun (bodyRequest "content-length" "2" [1, 2])).1 :=
    ⟨_, _, _, _, .tail _ (.tail _ (.tail _ (.tail _ (.head _))))⟩
  exact (limitHolds_iff (matchRoute_limited _ _ _) (runs_limited _ _ _) hframed hsent).mpr
    (.inl (by decide))

/-- **A chunked body is sent whatever its length**: three bytes where two are the limit. -/
theorem chunked_body_sent :
    limitedConfig.validate = .ok () ∧
    (bodyRequest "transfer-encoding" "chunked" [1, 2, 3]).Framed ∧
    ∃ tr answer client sent,
      (proxyHandler (plainHandler plainTls) ⟨none, .classical⟩
        (bodyRequest "transfer-encoding" "chunked" [1, 2, 3])).Runs
          (⟨.loadConfig, limitedConfig⟩ ::
            ⟨.loadMatcher, RouteMatcher.new asciiCases limitedConfig.routes⟩ :: tr) answer ∧
      ⟨.send client 5000 sent, .timedOut⟩ ∈ tr ∧ sent.body = [1, 2, 3] ∧
      bodyLimit limitedConfig limitedRoute = 2 ∧ ¬ LimitHolds limitedConfig limitedRoute tr := by
  have hvalid : limitedConfig.validate = .ok () :=
    GatewayConfig.validate_eq_ok.mpr (by
      simp [limitedConfig, guardedConfig, minimalConfig, RouteConfig.plain, RouteConfig.Valid])
  have hundeclared :
      (bodyRequest "transfer-encoding" "chunked" [1, 2, 3]).declaredLength = none := by decide
  have hsend : ∃ client sent, ⟨.send client 5000 sent, .timedOut⟩ ∈
      (limitedRun (bodyRequest "transfer-encoding" "chunked" [1, 2, 3])).1 ∧
      sent.body = [1, 2, 3] :=
    ⟨_, _, .tail _ (.tail _ (.tail _ (.tail _ (.head _)))), rfl⟩
  obtain ⟨client, sent, hsend, hbody⟩ := hsend
  refine ⟨hvalid, fun n hn => ?_, _, _, client, sent, runs_limited _ _ _, hsend, hbody, rfl,
    fun h => ?_⟩
  · rw [hundeclared] at hn
    cases hn
  · have hle := h client 5000 sent .timedOut hsend
    rw [hbody] at hle
    exact absurd hle (by decide)

end PqcGateway
