import PqcGateway.Proxy.Reload

/-!
# Proxy/Admin — configurations changed while the gateway runs

`/admin/config/reload` installs a whole configuration, `/admin/routes/update` other routes in the
configuration stored.  Reading JSON and TOML into configurations is `serde`'s (`Serde`).

* `handle_eq` — a handler installs what the request asks for, or answers an error.
* `updates_serializable` — concurrent requests act one after another, if no update loses settings.
* `installed_valid_iff` — which requests leave every installed configuration valid.
* `update_lost` — a routes update that loaded the config before a reload undoes the reload.
-/

namespace PqcGateway

/-! ## The handlers -/

/-- `serde_json` and `toml`.  An error is the text it displays as. -/
structure Serde where
  Value : Type
  get : Value → String → Option Value
  toString : Value → Except String String
  configFromJson : String → Except String GatewayConfig
  routesFromJson : String → Except String (List RouteConfig)
  configFromToml : String → Except String GatewayConfig

/-- `serde_json::to_string(value).unwrap_or_default()`. -/
def Serde.text (S : Serde) (value : S.Value) : String := (S.toString value).toOption.getD ""

/-- The body of a reply: its status, with the number of routes or the error. -/
inductive AdminReply
  | reloaded (routes : ℕ)
  | updated (routes : ℕ)
  | error (message : String)
deriving DecidableEq, Repr

/-- The reply reports an error. -/
def AdminReply.IsError : AdminReply → Prop
  | .error _ => True
  | _ => False

/-- A request to one of the two endpoints, with its JSON body. -/
inductive AdminRequest (S : Serde)
  | configReload (body : S.Value)
  | routesUpdate (body : S.Value)

section

variable (S : Serde) (unicode : CaseMap) {T : TlsCrates}

/-- `/admin/config/reload`. -/
def configReload (body : S.Value) (state : ProxyState T) : ProxyState T × AdminReply :=
  let jsonStr := S.text body
  match GatewayConfig.fromText S.configFromJson jsonStr with
  | .ok newConfig => (state.reloadConfig unicode newConfig, .reloaded newConfig.routes.length)
  | .error e => (state, .error e)

/-- `/admin/routes/update`: accept `{"routes": [...]}` to update just routes. -/
def routesUpdate (body : S.Value) (state : ProxyState T) : ProxyState T × AdminReply :=
  match S.get body "routes" with
  | some routesVal =>
    let routesStr := S.text routesVal
    match S.routesFromJson routesStr with
    | .ok newRoutes =>
      if newRoutes = [] then (state, .error "empty routes")
      else
        let cfg := state.config.withRoutes newRoutes
        (state.reloadConfig unicode cfg, .updated cfg.routes.length)
    | .error e => (state, .error e)
  | none => (state, .error "missing 'routes' field")

/-- **The admin endpoints**, one request after another. -/
def adminMachine : Machine (ProxyState T) (AdminRequest S) AdminReply where
  step state
    | .configReload body => pure (configReload S unicode body state)
    | .routesUpdate body => pure (routesUpdate S unicode body state)

end

/-! ### What a request asks for -/

/-- A change of the configuration: another one, or other routes. -/
inductive ConfigUpdate
  | reload (newConfig : GatewayConfig)
  | routes (newRoutes : List RouteConfig)
deriving DecidableEq, Repr

namespace ConfigUpdate

/-- The configuration changed. -/
def apply : ConfigUpdate → GatewayConfig → GatewayConfig
  | .reload newConfig, _ => newConfig
  | .routes newRoutes, config => config.withRoutes newRoutes

/-- The configuration a reload installs. -/
def reloaded : ConfigUpdate → Option GatewayConfig
  | .reload newConfig => some newConfig
  | .routes _ => none

/-- The reply to a request that changes the configuration. -/
def reply : ConfigUpdate → AdminReply
  | .reload newConfig => .reloaded newConfig.routes.length
  | .routes newRoutes => .updated newRoutes.length

end ConfigUpdate

namespace AdminRequest

variable {S : Serde}

/-- What the request asks for, or the error it is answered with. -/
def parse : AdminRequest S → Except String ConfigUpdate
  | .configReload body => (GatewayConfig.fromText S.configFromJson (S.text body)).map .reload
  | .routesUpdate body =>
    match S.get body "routes" with
    | none => .error "missing 'routes' field"
    | some routesVal => do
      let newRoutes ← S.routesFromJson (S.text routesVal)
      if newRoutes = [] then .error "empty routes" else .ok (.routes newRoutes)

/-- The routes of a `/admin/routes/update`, where its body has any, all have a prefix and an
upstream. -/
def RoutesValid : AdminRequest S → Prop
  | .configReload _ => True
  | .routesUpdate body => ∀ routesVal, S.get body "routes" = some routesVal →
      ∀ newRoutes, S.routesFromJson (S.text routesVal) = .ok newRoutes →
        ∀ route ∈ newRoutes, route.Valid

end AdminRequest

/-- **A handler installs what the request asks for, or answers an error.** -/
theorem handle_eq {S : Serde} (unicode : CaseMap) {T : TlsCrates} (request : AdminRequest S)
    (state : ProxyState T) :
    (adminMachine S unicode).step state request = pure (match request.parse with
      | .ok update => (state.reloadConfig unicode (update.apply state.config), update.reply)
      | .error e => (state, .error e)) := by
  cases request with
  | configReload body =>
    simp only [adminMachine, configReload, AdminRequest.parse]
    cases GatewayConfig.fromText S.configFromJson (S.text body) with
    | ok newConfig => rfl
    | error e => rfl
  | routesUpdate body =>
    simp only [adminMachine, routesUpdate, AdminRequest.parse]
    cases S.get body "routes" with
    | none => rfl
    | some routesVal =>
      dsimp only
      cases S.routesFromJson (S.text routesVal) with
      | error e => rfl
      | ok newRoutes =>
        by_cases hempty : newRoutes = []
        · simp [hempty, bind, Except.bind]
        · simp [hempty, bind, Except.bind, ConfigUpdate.apply, ConfigUpdate.reply,
            GatewayConfig.withRoutes]

/-! ## Requests at once

A request that reports success loads the stored config, if it is to change only the routes, and
calls `reload_config` with the config changed.  The requests' loads and stores are the steps of
`Machinery/Swap`, with what each request asks for.
-/

/-- The stored config and matcher, and the requests being handled. -/
abbrev UpdateCells : Type := Swap.Cells ConfigUpdate GatewayConfig RouteMatcher

/-- **Admin requests at once**, one load or store at a time. -/
def updateMachine (unicode : CaseMap) : Machine UpdateCells (Swap.Act ConfigUpdate)
    (Swap.Report ConfigUpdate GatewayConfig RouteMatcher) :=
  Swap.machine ConfigUpdate.apply (·.matcher unicode)

/-- The gateway just started, with no request at work. -/
def UpdateCells.start (unicode : CaseMap) (config : GatewayConfig) : UpdateCells :=
  Swap.start (·.matcher unicode) config

/-- **A request alone** installs what its handler does. -/
theorem update_alone {S : Serde} (unicode : CaseMap) {T : TlsCrates} {request : AdminRequest S}
    {update : ConfigUpdate} (hparse : request.parse = .ok update) (state : ProxyState T)
    {cells : UpdateCells} (hvalue : cells.value = state.config) {id : ℕ}
    (hidle : cells.writes id = .idle) :
    ∃ s reports state' reply,
      (updateMachine unicode).run cells [.draft id update, .swap id, .store id] = .ok (s, reports) ∧
      (adminMachine S unicode).step state request = .ok (state', reply) ∧
      s.value = state'.config ∧ s.derived = state'.matcher := by
  refine ⟨_, _, _, _, Swap.run_alone hidle update, handle_eq unicode request state, ?_, ?_⟩
  · rw [hparse, hvalue]
    rfl
  · rw [hparse, hvalue]
    rfl

/-- The last configuration the requests install whole. -/
def lastReload (requests : List (ℕ × ConfigUpdate)) : Option GatewayConfig :=
  (requests.filterMap fun e => e.2.reloaded).getLast?

/-- Requests in series leave the settings of the last configuration installed whole. -/
theorem settings_applyAll (requests : List (ℕ × ConfigUpdate)) (config : GatewayConfig) :
    (Swap.applyAll ConfigUpdate.apply requests config).withRoutes []
      = ((lastReload requests).getD config).withRoutes [] := by
  induction requests using List.reverseRecOn with
  | nil => rfl
  | append_singleton requests e ih =>
    obtain ⟨id, update⟩ := e
    rw [Swap.applyAll, List.foldl_concat, ← Swap.applyAll, lastReload, List.filterMap_append]
    cases update with
    | reload newConfig =>
      rw [List.getLast?_append]
      rfl
    | routes newRoutes =>
      simp only [List.filterMap_cons, List.filterMap_nil, ConfigUpdate.reloaded, List.append_nil]
      exact ih

/-- A routes update does not store settings other than those stored. -/
def KeepsSettings (s : UpdateCells) (act : Swap.Act ConfigUpdate) : Prop :=
  ∀ id newRoutes config, act = .store id → s.writes id = .swapped (.routes newRoutes) config →
    config.withRoutes [] = s.value.withRoutes []

/-- A reload's store is never stale, and a routes update's is not if it keeps the settings. -/
theorem not_stale_of_keepsSettings {s : UpdateCells} {act : Swap.Act ConfigUpdate}
    (hmade : ∀ id, (s.writes id).Made ConfigUpdate.apply) (hkeeps : KeepsSettings s act) :
    ¬ Swap.Stale ConfigUpdate.apply s act := by
  rintro ⟨id, update, config, hact, hwrite, hne⟩
  have hconfig := hmade id
  rw [hwrite] at hconfig
  obtain ⟨loaded, rfl⟩ := hconfig
  cases update with
  | reload newConfig => exact hne rfl
  | routes newRoutes =>
    have hsettings := hkeeps id newRoutes _ hact hwrite
    exact hne (congrArg (GatewayConfig.withRoutes newRoutes) hsettings).symm

/-- **Admin updates are serializable** — the final config is what the acknowledged requests make of
the first one, in some order, and its settings are those of the order's last reload — in every run
in which a routes update stores the settings it loaded only while they are the ones stored. -/
theorem updates_serializable (unicode : CaseMap) {config : GatewayConfig}
    {acts : List (Swap.Act ConfigUpdate)} {s : UpdateCells}
    {reports : List (Swap.Report ConfigUpdate GatewayConfig RouteMatcher)}
    (hrun : (updateMachine unicode).run (.start unicode config) acts = .ok (s, reports))
    (hkeeps : (updateMachine unicode).Along KeepsSettings (.start unicode config) acts)
    (hquiescent : Swap.Quiescent s) :
    ∃ order, order.Perm (Swap.drafts reports) ∧
      s.value = Swap.applyAll ConfigUpdate.apply order config ∧
      s.value.withRoutes [] = ((lastReload order).getD config).withRoutes [] := by
  have hfresh : (updateMachine unicode).Along (fun s act => ¬ Swap.Stale ConfigUpdate.apply s act)
      (.start unicode config) acts :=
    (updateMachine unicode).along_mono (fun _ _ _ _ h hstep => Swap.step_made h hstep)
      (fun _ _ => not_stale_of_keepsSettings) (fun _ => trivial) hkeeps
  obtain ⟨order, hperm, hvalue⟩ := Swap.serializable hrun hfresh hquiescent
  exact ⟨order, hperm, hvalue, hvalue ▸ settings_applyAll order config⟩

/-- What a request would store has these settings. -/
def HasSettings (settings : GatewayConfig) : Swap.Write ConfigUpdate GatewayConfig → Prop
  | .drafted _ new => new.withRoutes [] = settings
  | .swapped _ new => new.withRoutes [] = settings
  | _ => True

theorem hasSettings_update {settings : GatewayConfig}
    {writes : ℕ → Swap.Write ConfigUpdate GatewayConfig}
    {write : Swap.Write ConfigUpdate GatewayConfig} (hnew : HasSettings settings write)
    (hwrites : ∀ id, HasSettings settings (writes id)) (id : ℕ) :
    ∀ id', HasSettings settings (Function.update writes id write id') :=
  (Function.forall_update_iff writes fun _ w => HasSettings settings w).mpr
    ⟨hnew, fun id' _ => hwrites id'⟩

/-- Unless another configuration is loaded, the settings stay those that are stored. -/
theorem step_hasSettings {unicode : CaseMap} {s s' : UpdateCells} {act : Swap.Act ConfigUpdate}
    {report : Swap.Report ConfigUpdate GatewayConfig RouteMatcher}
    (hact : ∀ id update, act = .draft id update → update.reloaded = none)
    (hwrites : ∀ id, HasSettings (s.value.withRoutes []) (s.writes id))
    (hstep : (updateMachine unicode).step s act = .ok (s', report)) :
    ∀ id, HasSettings (s'.value.withRoutes []) (s'.writes id) := by
  obtain ⟨id, update, rfl, -, -, rfl⟩ | ⟨id, update, new, -, hwrite, -, rfl⟩ |
    ⟨id, update, new, -, hwrite, -, rfl⟩ | ⟨-, _, rfl⟩ := Swap.step_write_cases hstep
  · refine hasSettings_update ?_ hwrites id
    cases update with
    | reload newConfig => cases hact id _ rfl
    | routes newRoutes => rfl
  · have hnew := hwrites id
    rw [hwrite] at hnew
    have hswapped : HasSettings (s.value.withRoutes []) (.swapped update new) := hnew
    exact hasSettings_update hswapped hwrites id
  · have hnew := hwrites id
    rw [hwrite] at hnew
    have hsettings : new.withRoutes [] = s.value.withRoutes [] := hnew
    have hdone : HasSettings (new.withRoutes []) .done := trivial
    exact hasSettings_update hdone (hsettings ▸ hwrites) id
  · exact hwrites

/-- **Routes updates alone keep the settings**, however they interleave. -/
theorem keepsSettings_of_routes (unicode : CaseMap) {s : UpdateCells}
    {acts : List (Swap.Act ConfigUpdate)}
    (hacts : ∀ id update, .draft id update ∈ acts → update.reloaded = none)
    (hwrites : ∀ id, HasSettings (s.value.withRoutes []) (s.writes id)) :
    (updateMachine unicode).Along KeepsSettings s acts := by
  induction acts generalizing s with
  | nil => trivial
  | cons act acts ih =>
    refine ⟨fun id newRoutes config _ hwrite => ?_, fun s' _ hstep => ?_⟩
    · have hsettings := hwrites id
      rw [hwrite] at hsettings
      exact hsettings
    · refine ih (fun id update hmem => hacts id update (List.mem_cons_of_mem _ hmem)) ?_
      exact step_hasSettings (fun id update hact => hacts id update (hact ▸ List.mem_cons_self))
        hwrites hstep

/-- Two routes updates that overlap, and are stored the other way round than they began. -/
def overlappingUpdates : List (Swap.Act ConfigUpdate) :=
  [.draft 0 (.routes (oneRoute "http://b").routes), .draft 1 (.routes (oneRoute "http://c").routes),
    .swap 0, .swap 1, .store 1, .store 0]

/-- Two routes updates that overlap have an order, as the update stored last keeps the settings. -/
theorem updates_serializable_overlapping :
    ∃ s reports, (updateMachine asciiCases).run (.start asciiCases (oneRoute "http://a"))
        overlappingUpdates = .ok (s, reports) ∧
      ∃ order, order.Perm (Swap.drafts reports) ∧
        s.value = Swap.applyAll ConfigUpdate.apply order (oneRoute "http://a") ∧
        s.value.withRoutes [] = ((lastReload order).getD (oneRoute "http://a")).withRoutes [] := by
  have hkeeps : (updateMachine asciiCases).Along KeepsSettings
      (.start asciiCases (oneRoute "http://a")) overlappingUpdates := by
    refine keepsSettings_of_routes asciiCases (fun id update hmem => ?_) fun _ => trivial
    simp only [overlappingUpdates, List.mem_cons, List.not_mem_nil, or_false, reduceCtorEq,
      Swap.Act.draft.injEq] at hmem
    obtain ⟨-, rfl⟩ | ⟨-, rfl⟩ := hmem <;> rfl
  refine ⟨_, _, rfl, updates_serializable asciiCases rfl hkeeps fun id hprogress => ?_⟩
  obtain ⟨hid, hprogress⟩ := Swap.inProgress_update_done.mp hprogress
  dsimp only at hprogress
  obtain ⟨hid', hprogress⟩ := Swap.inProgress_update_done.mp hprogress
  rw [Function.update_of_ne hid', Function.update_of_ne hid, Function.update_of_ne hid',
    Function.update_of_ne hid] at hprogress
  exact hprogress

/-- Tighter limits. -/
def tightened : GatewayConfig :=
  { oneRoute "http://a" with
    rateLimit := { enabled := true, defaultRequests := 10, defaultWindowSeconds := 60 } }

/-- **A reload lost**: a routes update that loaded the config before the reload stores its settings
over the reload's, as no order of the two does. -/
theorem update_lost :
    ∃ s reports, (updateMachine asciiCases).run (.start asciiCases (oneRoute "http://a"))
        [.draft 0 (.routes (oneRoute "http://b").routes), .draft 1 (.reload tightened), .swap 1,
          .store 1, .swap 0, .store 0] = .ok (s, reports) ∧
      Swap.Quiescent s ∧ ∀ order : List (ℕ × ConfigUpdate), order.Perm (Swap.drafts reports) →
        s.value ≠ Swap.applyAll ConfigUpdate.apply order (oneRoute "http://a") := by
  refine ⟨_, _, rfl, fun id hprogress => ?_, fun order hperm hvalue => ?_⟩
  · obtain ⟨hid, hprogress⟩ := Swap.inProgress_update_done.mp hprogress
    dsimp only at hprogress
    rw [Function.update_of_ne hid] at hprogress
    obtain ⟨hid', hprogress⟩ := Swap.inProgress_update_done.mp hprogress
    rw [Function.update_of_ne hid', Function.update_of_ne hid', Function.update_of_ne hid]
      at hprogress
    exact hprogress
  · have hlast : lastReload order = some tightened := by
      have hreloads := hperm.filterMap fun e => e.2.reloaded
      rw [lastReload, List.perm_singleton.mp hreloads]
      rfl
    have hsettings := congrArg (GatewayConfig.withRoutes []) hvalue
    rw [settings_applyAll, hlast] at hsettings
    exact absurd hsettings (by decide)

/-! ## Which configurations are installed

A reload reads its configuration as a file is read, and a routes update is not validated. -/

section

variable {S : Serde} {unicode : CaseMap} {T : TlsCrates} {state state' : ProxyState T}
  {request : AdminRequest S} {reply : AdminReply}

/-- **A request that reports an error leaves the state as it was.** -/
theorem error_unchanged (h : (adminMachine S unicode).step state request = .ok (state', reply))
    (herror : reply.IsError) : state' = state := by
  rw [handle_eq] at h
  cases hparse : request.parse with
  | error e =>
    rw [hparse] at h
    exact (congrArg Prod.fst (Except.ok.inj h)).symm
  | ok update =>
    rw [hparse] at h
    obtain ⟨-, rfl⟩ := Prod.mk.inj (Except.ok.inj h)
    cases update with
    | reload newConfig => exact herror.elim
    | routes newRoutes => exact herror.elim

/-- **A request leaves a valid configuration valid** exactly if the routes it updates are. -/
theorem step_valid_iff (hvalid : state.config.validate = .ok ())
    (h : (adminMachine S unicode).step state request = .ok (state', reply)) :
    state'.config.validate = .ok () ↔ request.RoutesValid := by
  cases request with
  | configReload body =>
    refine iff_of_true ?_ trivial
    simp only [adminMachine, configReload] at h
    cases htext : GatewayConfig.fromText S.configFromJson (S.text body) with
    | error e =>
      rw [htext] at h
      obtain ⟨rfl, -⟩ := Prod.mk.inj (Except.ok.inj h)
      exact hvalid
    | ok newConfig =>
      rw [htext] at h
      obtain ⟨rfl, -⟩ := Prod.mk.inj (Except.ok.inj h)
      exact (GatewayConfig.fromText_eq_ok.mp htext).2
  | routesUpdate body =>
    simp only [adminMachine, routesUpdate] at h
    simp only [AdminRequest.RoutesValid]
    cases hget : S.get body "routes" with
    | none =>
      rw [hget] at h
      obtain ⟨rfl, -⟩ := Prod.mk.inj (Except.ok.inj h)
      exact iff_of_true hvalid (by simp)
    | some routesVal =>
      rw [hget] at h
      dsimp only at h
      simp only [Option.some.injEq, forall_eq']
      cases hparse : S.routesFromJson (S.text routesVal) with
      | error e =>
        rw [hparse] at h
        obtain ⟨rfl, -⟩ := Prod.mk.inj (Except.ok.inj h)
        exact iff_of_true hvalid (by simp)
      | ok newRoutes =>
        rw [hparse] at h
        dsimp only at h
        simp only [Except.ok.injEq, forall_eq']
        by_cases hempty : newRoutes = []
        · rw [if_pos hempty] at h
          obtain ⟨rfl, -⟩ := Prod.mk.inj (Except.ok.inj h)
          exact iff_of_true hvalid (by simp [hempty])
        · -- the branch that stores routes as they were parsed
          rw [if_neg hempty] at h
          obtain ⟨rfl, -⟩ := Prod.mk.inj (Except.ok.inj h)
          exact GatewayConfig.validate_eq_ok.trans (and_iff_right hempty)

/-- **Only valid configurations are installed, and errors change nothing** — in every state reached
from a configuration file — if and only if the routes of every `/admin/routes/update` whose body has
some have a prefix and an upstream. -/
theorem installed_valid_iff {S : Serde} {X : ProxyCrates} {env : Option String}
    {draw : StartDraw X.mlDsa} {text : String} {config : GatewayConfig} {state : ProxyState X.tls}
    (hfile : GatewayConfig.fromText S.configFromToml text = .ok config)
    (hnew : ProxyState.new X env draw config = .ok state) (requests : List (AdminRequest S)) :
    (state.config.validate = .ok () ∧
      ∀ turn ∈ (adminMachine S X.unicode).turns state requests,
        turn.after.config.validate = .ok () ∧
        (turn.answer.IsError → turn.after = turn.before)) ↔
    ∀ request ∈ requests, request.RoutesValid := by
  have hstart : state.config.validate = .ok () := by
    obtain ⟨_, -, rfl⟩ := ProxyState.new_eq_ok.mp hnew
    exact (GatewayConfig.fromText_eq_ok.mp hfile).2
  have hiff : (∀ turn ∈ (adminMachine S X.unicode).turns state requests,
      turn.after.config.validate = .ok ()) ↔
      ∀ turn ∈ (adminMachine S X.unicode).turns state requests, turn.call.RoutesValid :=
    (adminMachine S X.unicode).forall_turns_iff
      (I := fun s : ProxyState X.tls => s.config.validate = .ok ())
      (fun _ _ _ _ hvalid h => step_valid_iff hvalid h) hstart
  have hmade : ∀ request ∈ requests,
      ∃ turn ∈ (adminMachine S X.unicode).turns state requests, turn.call = request :=
    fun request => (adminMachine S X.unicode).exists_turn_of_mem
      fun s request => ⟨_, handle_eq X.unicode request s⟩
  constructor
  · rintro ⟨-, hturns⟩ request hrequest
    obtain ⟨turn, hturn, rfl⟩ := hmade request hrequest
    exact hiff.mp (fun turn hturn => (hturns turn hturn).1) turn hturn
  · intro hroutes
    have hcalls : ∀ turn ∈ (adminMachine S X.unicode).turns state requests,
        turn.call.RoutesValid :=
      fun turn hturn => hroutes _ ((adminMachine S X.unicode).mem_of_mem_turns hturn)
    refine ⟨hstart, fun turn hturn => ⟨hiff.mpr hcalls turn hturn, fun herror => ?_⟩⟩
    exact error_unchanged ((adminMachine S X.unicode).step_of_mem_turns hturn) herror

end

/-! ### One update -/

/-- The file of `oneRoute "http://a"`. -/
def gatewayToml : String :=
  "[server]\nbind_address = \"127.0.0.1\"\nhttp_port = 0\ndrain_timeout_seconds = 5\n" ++
  "max_request_body_bytes = 1024\n\n[logging]\nlevel = \"error\"\nformat = \"pretty\"\n\n" ++
  "[circuit_breaker]\nenabled = false\n\n[rate_limit]\nenabled = true\n" ++
  "default_requests = 100\ndefault_window_seconds = 60\n\n[metrics]\nenabled = true\n\n" ++
  "[[routes]]\nid = \"all\"\npath_prefix = \"/\"\nupstream = \"http://a\"\ntimeout_ms = 5000\n"

/-- One route under the prefix, in JSON. -/
def routesJson (pathPrefix : String) : String :=
  "[\x7b\"id\":\"all\",\"path_prefix\":\"" ++ pathPrefix ++
    "\",\"timeout_ms\":5000,\"upstream\":\"http://b\"\x7d]"

/-- The body of an update to that route. -/
def updateJson (pathPrefix : String) : String :=
  "\x7b\"routes\":" ++ routesJson pathPrefix ++ "\x7d"

/-- A reader of these texts; a value is its text. -/
abbrev plainSerde (pathPrefix : String) : Serde where
  Value := String
  get body field :=
    if body = updateJson pathPrefix ∧ field = "routes" then some (routesJson pathPrefix) else none
  toString := .ok
  configFromJson _ := .error "missing field"
  routesFromJson text :=
    if text = routesJson pathPrefix then .ok [.plain "all" pathPrefix "http://b"]
    else .error "expected value"
  configFromToml text := if text = gatewayToml then .ok (oneRoute "http://a")
    else .error "expected value"

theorem fromText_gatewayToml (pathPrefix : String) :
    GatewayConfig.fromText (plainSerde pathPrefix).configFromToml gatewayToml
      = .ok (oneRoute "http://a") := by
  refine GatewayConfig.fromText_eq_ok.mpr ⟨by simp, GatewayConfig.validate_eq_ok.mpr ?_⟩
  simp [oneRoute, minimalConfig, RouteConfig.plain, RouteConfig.Valid]

theorem parse_updateJson (pathPrefix : String) :
    (AdminRequest.routesUpdate (updateJson pathPrefix) : AdminRequest (plainSerde pathPrefix)).parse
      = .ok (.routes [.plain "all" pathPrefix "http://b"]) := by
  simp [AdminRequest.parse, Serde.text, bind, Except.bind, Except.toOption]

/-- An update to a route with a prefix installs a valid configuration. -/
theorem installed_valid_after :
    ∃ state, ProxyState.new plainProxyCrates none plainStart (oneRoute "http://a") = .ok state ∧
      state.config.validate = .ok () ∧
      ∀ turn ∈ (adminMachine (plainSerde "/b") asciiCases).turns state
          [.routesUpdate (updateJson "/b")],
        turn.after.config.validate = .ok () ∧ (turn.answer.IsError → turn.after = turn.before) := by
  obtain ⟨state, hnew⟩ := exists_plain_start (oneRoute "http://a") rfl
  have hroutes : ∀ request ∈ [(.routesUpdate (updateJson "/b") : AdminRequest (plainSerde "/b"))],
      request.RoutesValid := by
    simp [AdminRequest.RoutesValid, Serde.text, Except.toOption, RouteConfig.plain,
      RouteConfig.Valid]
  exact ⟨state, hnew, (installed_valid_iff (fromText_gatewayToml "/b") hnew _).mpr hroutes⟩

/-- **An invalid configuration installed**: an update to a route without a prefix, which takes every
request, is acknowledged. -/
theorem installed_invalid :
    ∃ state, GatewayConfig.fromText (plainSerde "").configFromToml gatewayToml
        = .ok (oneRoute "http://a") ∧
      ProxyState.new plainProxyCrates none plainStart (oneRoute "http://a") = .ok state ∧
      ∃ turn ∈ (adminMachine (plainSerde "") asciiCases).turns state
          [.routesUpdate (updateJson "")],
        turn.answer = .updated 1 ∧ turn.after.config.validate ≠ .ok () := by
  obtain ⟨state, hnew⟩ := exists_plain_start (oneRoute "http://a") rfl
  have hstep := handle_eq asciiCases (.routesUpdate (updateJson "") : AdminRequest (plainSerde ""))
    state
  rw [parse_updateJson] at hstep
  have hturn := (adminMachine (plainSerde "") asciiCases).mem_turns_concat
    ((adminMachine (plainSerde "") asciiCases).run_nil state) hstep
  refine ⟨state, fromText_gatewayToml "", hnew, _, hturn, rfl, fun hvalid => ?_⟩
  have hroutes := (GatewayConfig.validate_eq_ok.mp hvalid).2 _ List.mem_cons_self
  exact hroutes.1 rfl

end PqcGateway
