import PqcGateway.Proxy.Handler
import PqcGateway.Proxy.Restart
import PqcGateway.Routing.LongestPrefix

/-!
# Proxy/ClientChoice — which requests are sent with a client certificate

    mtls section ──buildMtlsConnector──▸ clients, by route id ──proxyHandler──▸ client of a request

A route that demands mTLS should be sent with the client built for it, and with its certificate
(`SentAsDemanded`).  At the start a client that fails to build is only logged, and at a request a
client that is not there is replaced by a standard one; and two routes with one id have one client.
`sentAsDemanded_iff` says which configured routes (`MtlsConfigured`) none of this happens to.
-/

namespace PqcGateway

open Program

/-- mTLS is on for the route. -/
def RouteConfig.DemandsMtls (cfg : RouteConfig) : Prop :=
  ∃ mtls, cfg.mtls = some mtls ∧ mtls.enabled = true

section

variable (T : TlsCrates)

variable {T} in
/-- The certificate the client shows. -/
def UpstreamClient.certificate : UpstreamClient T → Option T.CertifiedKey
  | .http => none
  | .https => none
  | .mtls connector => connector.clientAuth

/-- The client is built from the route's own mTLS section. -/
def OwnClient (cfg : RouteConfig) (client : UpstreamClient T) : Prop :=
  ∃ mtls connector, cfg.mtls = some mtls ∧ buildMtlsConnector T mtls = .ok connector ∧
    client = .mtls connector

/-- **The client is the one that the route demands.** -/
structure SentAsDemanded (cfg : RouteConfig) (client : UpstreamClient T) : Prop where
  own : OwnClient T cfg client ↔ cfg.DemandsMtls
  certified : cfg.DemandsMtls → client.certificate.isSome
  others : client.certificate.isSome → OwnClient T cfg client

/-- What the gateway must have been started with. -/
structure MtlsConfigured (started : List RouteConfig) (cfg : RouteConfig) : Prop where
  demanded : ∀ mtls, cfg.mtls = some mtls → mtls.enabled = true →
    mtls.clientCertFile.isSome ∧ mtls.clientKeyFile.isSome ∧
      ∃ connector, buildMtlsConnector T mtls = .ok connector ∧
        lastMtls T started cfg.id = some connector
  plain : ¬ cfg.DemandsMtls → ∀ connector, lastMtls T started cfg.id = some connector →
    connector.clientAuth = none ∧
      ∀ mtls, cfg.mtls = some mtls → buildMtlsConnector T mtls ≠ .ok connector

end

section

variable {T : TlsCrates} {mtls : RouteMtlsConfig} {connector : HttpsConnector T}

theorem isSome_of_loadClientAuth {certFile keyFile : Option String} {auth : Option T.CertifiedKey}
    (h : loadClientAuth T certFile keyFile = .ok auth) :
    auth.isSome ↔ certFile.isSome ∧ keyFile.isSome := by
  cases certFile with
  | none =>
    obtain rfl := Except.ok.inj h
    simp
  | some certPath =>
    cases keyFile with
    | none =>
      obtain rfl := Except.ok.inj h
      simp
    | some keyPath =>
      simp only [loadClientAuth, Except.bind_eq_ok] at h
      obtain ⟨_, -, _, -, key, -, hkey⟩ := h
      split at hkey
      · cases hkey
      · obtain ⟨certified, -, hauth⟩ := Except.bind_eq_ok.mp hkey
        obtain rfl := Except.ok.inj hauth
        simp

/-- **A connector shows a certificate** iff its section names one and its key. -/
theorem clientAuth_isSome_iff (h : buildMtlsConnector T mtls = .ok connector) :
    connector.clientAuth.isSome ↔ mtls.clientCertFile.isSome ∧ mtls.clientKeyFile.isSome := by
  obtain ⟨roots, -, hroots⟩ := Except.bind_eq_ok.mp h
  obtain ⟨auth, hauth, hconnector⟩ := Except.bind_eq_ok.mp hroots
  obtain rfl := Except.ok.inj hconnector
  exact isSome_of_loadClientAuth hauth

theorem certificate_upstreamClient {X : HandlerCrates} (route : Route)
    (mtlsClient : Option (HttpsConnector X.tls)) :
    (upstreamClient X route mtlsClient).certificate
      = mtlsClient.bind HttpsConnector.clientAuth := by
  cases mtlsClient with
  | some connector => rfl
  | none =>
    rw [upstreamClient]
    split <;> rfl

theorem upstreamClient_eq_mtls_iff {X : HandlerCrates} {route : Route}
    {mtlsClient : Option (HttpsConnector X.tls)} {connector : HttpsConnector X.tls} :
    upstreamClient X route mtlsClient = .mtls connector ↔ mtlsClient = some connector := by
  cases mtlsClient with
  | some connector' => simp [upstreamClient]
  | none =>
    rw [upstreamClient]
    split <;> simp

theorem ownClient_upstreamClient_iff {X : HandlerCrates} {route : Route}
    {mtlsClient : Option (HttpsConnector X.tls)} {cfg : RouteConfig} :
    OwnClient X.tls cfg (upstreamClient X route mtlsClient) ↔
      ∃ mtls connector, cfg.mtls = some mtls ∧ buildMtlsConnector X.tls mtls = .ok connector ∧
        mtlsClient = some connector := by
  simp only [OwnClient, upstreamClient_eq_mtls_iff]

/-- **A client looked up** is the one the route demands exactly if the configuration is such. -/
theorem sentAsDemanded_upstreamClient {X : HandlerCrates} {route : Route}
    {started : List RouteConfig} {cfg : RouteConfig} :
    SentAsDemanded X.tls cfg (upstreamClient X route (lastMtls X.tls started cfg.id)) ↔
      MtlsConfigured X.tls started cfg := by
  constructor
  · rintro ⟨hown, hcertified, hothers⟩
    rw [ownClient_upstreamClient_iff] at hown hothers
    rw [certificate_upstreamClient] at hcertified hothers
    refine ⟨fun mtls hmtls henabled => ?_, fun hplain connector hlast => ⟨?_, ?_⟩⟩
    · have hdemands : cfg.DemandsMtls := ⟨mtls, hmtls, henabled⟩
      obtain ⟨_, connector, hsection, hbuild, hclient⟩ := hown.mpr hdemands
      obtain rfl := Option.some.inj (hmtls.symm.trans hsection)
      have hauth := hcertified hdemands
      rw [hclient] at hauth
      have hfiles := (clientAuth_isSome_iff hbuild).mp hauth
      exact ⟨hfiles.1, hfiles.2, connector, hbuild, hclient⟩
    · refine Option.not_isSome_iff_eq_none.mp fun hauth => hplain (hown.mp (hothers ?_))
      rwa [hlast]
    · exact fun mtls hmtls hbuild => hplain (hown.mp ⟨mtls, connector, hmtls, hbuild, hlast⟩)
  · rintro ⟨hdemanded, hplain⟩
    by_cases hdemands : cfg.DemandsMtls
    · obtain ⟨mtls, hmtls, henabled⟩ := hdemands
      obtain ⟨hcert, hkey, connector, hbuild, hlast⟩ := hdemanded mtls hmtls henabled
      have hown : OwnClient X.tls cfg (upstreamClient X route (lastMtls X.tls started cfg.id)) :=
        ownClient_upstreamClient_iff.mpr ⟨mtls, connector, hmtls, hbuild, hlast⟩
      refine ⟨iff_of_true hown ⟨mtls, hmtls, henabled⟩, fun _ => ?_, fun _ => hown⟩
      rw [certificate_upstreamClient, hlast]
      exact (clientAuth_isSome_iff hbuild).mpr ⟨hcert, hkey⟩
    · refine ⟨iff_of_false ?_ hdemands, fun h => absurd h hdemands, fun hauth => ?_⟩
      · rw [ownClient_upstreamClient_iff]
        rintro ⟨mtls, connector, hmtls, hbuild, hlast⟩
        exact (hplain hdemands connector hlast).2 mtls hmtls hbuild
      · rw [certificate_upstreamClient] at hauth
        cases hlast : lastMtls X.tls started cfg.id with
        | none =>
          rw [hlast] at hauth
          cases hauth
        | some connector =>
          rw [hlast, Option.bind_some, (hplain hdemands connector hlast).1] at hauth
          cases hauth

end

/-- The crates the gateway is started with. -/
abbrev HandlerCrates.proxy (X : HandlerCrates) : ProxyCrates :=
  ⟨X.mlDsa, X.sha256, X.tls, X.unicode⟩

/-- **A request is sent with the client its route demands** exactly if the gateway was started so:
with certificate files that can be read, and no other client under the route's id. -/
theorem sentAsDemanded_iff {X : HandlerCrates} {settings : SigningSettings} {env : Option String}
    {draw : StartDraw X.mlDsa} {started config : GatewayConfig} {state : ProxyState X.tls}
    {routes : List RouteConfig} {route : Route} {cfg : RouteConfig} {i : ℕ} {upstreamPath : String}
    {req : ProxyRequest} {tr : HandlerTrace X} {answer : HandlerAnswer}
    {client : UpstreamClient X.tls} {timeoutMs : ℕ} {sent : UpstreamRequest X}
    {outcome : SendOutcome} (hstart : ProxyState.new X.proxy env draw started = .ok state)
    (hmatch : (RouteMatcher.new X.unicode routes).matchRoute X.unicode req.path req.method
      = some (route, upstreamPath))
    (hlongest : IsLongest X.unicode req.path req.method routes route i cfg)
    (hrun : (proxyHandler X settings req).Runs
      (⟨.loadConfig, config⟩ :: ⟨.loadMatcher, RouteMatcher.new X.unicode routes⟩ :: tr) answer)
    (hclients : ∀ id found, ⟨.mtlsClient id, found⟩ ∈ tr → found = state.mtlsClients.get id)
    (hsend : ⟨.send client timeoutMs sent, outcome⟩ ∈ tr) :
    SentAsDemanded X.tls cfg client ↔ MtlsConfigured X.tls started.routes cfg := by
  obtain ⟨_, _, mtlsClient, -, hlookup, rfl, -, -⟩ :=
    sent_cases ((runs_proxyHandler_iff hmatch).mp hrun) hsend
  obtain ⟨keys, -, rfl⟩ := ProxyState.new_eq_ok.mp hstart
  have hid : route.id = cfg.id := by
    rw [hlongest.compiled]
    rfl
  have hfound : mtlsClient = lastMtls X.tls started.routes cfg.id := by
    rw [hclients _ _ hlookup, hid]
    exact get_buildMtlsClients X.tls started.routes cfg.id
  rw [hfound]
  exact sentAsDemanded_upstreamClient

/-! ## Clients of another -/

/-- The only route is the longest. -/
theorem isLongest_singleton {unicode : CaseMap} {path method upstreamPath : String} {route : Route}
    {cfg : RouteConfig}
    (hmatch : (RouteMatcher.new unicode [cfg]).matchRoute unicode path method
      = some (route, upstreamPath)) :
    IsLongest unicode path method [cfg] route 0 cfg := by
  obtain ⟨i, cfg', hlongest⟩ := (isLongest_of_matchRoute hmatch).1
  have hi : i = 0 := by
    have hlt := (List.getElem?_eq_some_iff.mp hlongest.configured).1
    simpa using hlt
  subst hi
  obtain rfl := Option.some.inj hlongest.configured
  exact hlongest

theorem exists_plainHandler_start (tls : TlsCrates) (config : GatewayConfig)
    (h : config.threshold.enabled = false) :
    ∃ state, ProxyState.new (plainHandler tls).proxy none plainStart config = .ok state :=
  ProxyState.starts_iff.mpr fun henabled => by rw [h] at henabled; cases henabled

/-- The lookups of a run that is answered with the clients of the start. -/
theorem lookups_plainRun {tls : TlsCrates} {started config : GatewayConfig} {cfg : RouteConfig}
    {state : ProxyState tls} {outcome : SendOutcome} {body : Except String (List UInt8)}
    (hstart : ProxyState.new (plainHandler tls).proxy none plainStart started = .ok state)
    (id : String) (found : Option (HttpsConnector tls))
    (h : ⟨.mtlsClient id, found⟩ ∈
      (plainRun config cfg (buildMtlsClients tls started.routes) outcome body).1) :
    found = state.mtlsClients.get id := by
  obtain ⟨_, -, rfl⟩ := ProxyState.new_eq_ok.mp hstart
  exact answered_mem _ _ _ h

/-- The request for the root, on the first route of a configuration. -/
def startedRun (tls : TlsCrates) (config : GatewayConfig) (cfg : RouteConfig) :
    HandlerTrace (plainHandler tls) × HandlerAnswer :=
  plainRun config cfg (buildMtlsClients tls config.routes) .timedOut (.ok [])

/-- A route with a client certificate that can be read. -/
theorem sentAsDemanded_secured :
    ∃ connector sent, ⟨.send (.mtls connector) 5000 sent, .timedOut⟩ ∈
        (startedRun plainTls (minimalConfig [securedRoute]) securedRoute).1 ∧
      SentAsDemanded plainTls securedRoute (.mtls connector) := by
  obtain ⟨state, hstart⟩ := exists_plainHandler_start plainTls (minimalConfig [securedRoute]) rfl
  have hmatch : (RouteMatcher.new asciiCases (minimalConfig [securedRoute]).routes).matchRoute
      (plainHandler plainTls).unicode rootRequest.path rootRequest.method
        = some (.ofConfig asciiCases securedRoute, "/") := matchRoute_securedRoute
  obtain ⟨connector, sent, hsend⟩ : ∃ connector sent,
      ⟨.send (.mtls connector) 5000 sent, .timedOut⟩ ∈
        (startedRun plainTls (minimalConfig [securedRoute]) securedRoute).1 :=
    ⟨_, _, .tail _ (.tail _ (.tail _ (.head _)))⟩
  refine ⟨connector, sent, hsend, (sentAsDemanded_iff hstart hmatch (isLongest_singleton hmatch)
    (runs_plainRun _ _ _ hmatch) (lookups_plainRun hstart) hsend).mpr ⟨?_, ?_⟩⟩
  · rintro mtls ⟨⟩ -
    exact ⟨rfl, rfl, _, rfl, rfl⟩
  · exact fun hplain => absurd ⟨_, rfl, rfl⟩ hplain

/-- A gateway that is started with a valid configuration sends a request of the route with a client
that is not the one the route demands. -/
def Missent (tls : TlsCrates) (config : GatewayConfig) (cfg : RouteConfig) : Prop :=
  config.validate = .ok () ∧ ∃ state tr answer client sent,
    ProxyState.new (plainHandler tls).proxy none plainStart config = .ok state ∧
    (∃ route i, (RouteMatcher.new asciiCases config.routes).matchRoute asciiCases "/" "GET"
      = some (route, "/") ∧ IsLongest asciiCases "/" "GET" config.routes route i cfg) ∧
    (proxyHandler (plainHandler tls) ⟨none, .classical⟩ rootRequest).Runs
      (⟨.loadConfig, config⟩ :: ⟨.loadMatcher, RouteMatcher.new asciiCases config.routes⟩ :: tr)
        answer ∧
    (∀ id found, ⟨.mtlsClient id, found⟩ ∈ tr → found = state.mtlsClients.get id) ∧
    ⟨.send client 5000 sent, .timedOut⟩ ∈ tr ∧ ¬ SentAsDemanded tls cfg client

theorem missent_of_startedRun {tls : TlsCrates} {config : GatewayConfig} {cfg : RouteConfig} {i : ℕ}
    {client : UpstreamClient tls} {sent : UpstreamRequest (plainHandler tls)}
    (hvalid : config.validate = .ok ()) (hthreshold : config.threshold.enabled = false)
    (hmatch : (RouteMatcher.new asciiCases config.routes).matchRoute (plainHandler tls).unicode
      rootRequest.path rootRequest.method = some (.ofConfig asciiCases cfg, "/"))
    (hlongest : IsLongest asciiCases "/" "GET" config.routes (.ofConfig asciiCases cfg) i cfg)
    (hsend : ⟨.send client 5000 sent, .timedOut⟩ ∈ (startedRun tls config cfg).1)
    (hother : ¬ SentAsDemanded tls cfg client) : Missent tls config cfg := by
  obtain ⟨state, hstart⟩ := exists_plainHandler_start tls config hthreshold
  exact ⟨hvalid, state, _, _, client, sent, hstart, ⟨_, i, hmatch, hlongest⟩,
    runs_plainRun _ _ _ hmatch, lookups_plainRun hstart, hsend, hother⟩

/-- A host that has none of the files. -/
abbrev emptyTls : TlsCrates := { plainTls with read := fun _ => .error "No such file or directory" }

/-- A route without mTLS, under the id of the route with a client certificate. -/
def namesakeRoute : RouteConfig := .plain "all" "/" "http://b"

/-- **Clients that are not the route's own.**  A request whose route has a certificate that cannot
be read is sent with the client that shows none, and one whose route has no mTLS is sent with the
certificate of another route that has its id. -/
theorem missent_requests : Missent emptyTls (minimalConfig [securedRoute]) securedRoute ∧
    Missent plainTls (minimalConfig [namesakeRoute, securedRoute]) namesakeRoute := by
  constructor
  · obtain ⟨sent, hsend⟩ : ∃ sent, ⟨.send .https 5000 sent, .timedOut⟩ ∈
        (startedRun emptyTls (minimalConfig [securedRoute]) securedRoute).1 :=
      ⟨_, .tail _ (.tail _ (.tail _ (.head _)))⟩
    refine missent_of_startedRun (validate_tlsRoute _) rfl matchRoute_securedRoute
      (isLongest_singleton matchRoute_securedRoute) hsend fun h => ?_
    obtain ⟨_, _, -, -, hclient⟩ := h.own.mpr ⟨_, rfl, rfl⟩
    cases hclient
  · have hmatch : (RouteMatcher.new asciiCases [namesakeRoute, securedRoute]).matchRoute asciiCases
        "/" "GET" = some (.ofConfig asciiCases namesakeRoute, "/") := by
      rw [RouteMatcher.new, List.mergeSort_of_pairwise (by decide)]
      rfl
    have hlongest : IsLongest asciiCases "/" "GET" [namesakeRoute, securedRoute]
        (.ofConfig asciiCases namesakeRoute) 0 namesakeRoute := by
      obtain ⟨i, cfg, hlongest⟩ := (isLongest_of_matchRoute hmatch).1
      rcases i with _ | _ | i
      · obtain rfl := Option.some.inj hlongest.configured
        exact hlongest
      · obtain rfl := Option.some.inj hlongest.configured
        exact absurd (congrArg Route.upstream hlongest.compiled) (by decide)
      · cases hlongest.configured
    obtain ⟨connector, sent, hsend, hcertificate⟩ : ∃ connector sent,
        ⟨.send (.mtls connector) 5000 sent, .timedOut⟩ ∈
          (startedRun plainTls (minimalConfig [namesakeRoute, securedRoute]) namesakeRoute).1 ∧
        connector.clientAuth.isSome :=
      ⟨_, _, .tail _ (.tail _ (.tail _ (.head _))), rfl⟩
    have hvalid : (minimalConfig [namesakeRoute, securedRoute]).validate = .ok () :=
      GatewayConfig.validate_eq_ok.mpr (by
        simp [minimalConfig, namesakeRoute, securedRoute, tlsRoute, RouteConfig.plain,
          RouteConfig.Valid])
    refine missent_of_startedRun hvalid rfl hmatch hlongest hsend fun h => ?_
    obtain ⟨_, _, hsection, -⟩ := h.others hcertificate
    cases hsection

end PqcGateway
