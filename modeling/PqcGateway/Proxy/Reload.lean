import PqcGateway.Machinery.Swap
import PqcGateway.Proxy.State

/-!
# Proxy/Reload — reloads, and the requests they meet

`reload_config` stores the new matcher and then the new config; `proxy_handler` loads the config and
then the matcher.  Each load and store is one step (`reloadMachine`, an instance of
`Machinery/Swap`), so a reload may come between the two loads of a request, and the stores of two
reloads may cross.

* `reload_alone` — a call of `reload_config` with nothing between its stores is `reloadConfig`.
* `request_consistent_iff` — which requests work with a config and a matcher of one reload.
* `reloads_consistent_iff` — when no reload is in progress, the matcher is that of the stored config
  if one reload made the last two stores.
-/

namespace PqcGateway

/-! ## The two cells -/

/-- The stored config and matcher, the calls of `reload_config` with their new configs, and the
requests. -/
abbrev ReloadCells : Type := Swap.Cells GatewayConfig GatewayConfig RouteMatcher

abbrev ReloadReport : Type := Swap.Report GatewayConfig GatewayConfig RouteMatcher

section

variable (unicode : CaseMap)

/-- The matcher of a config. -/
def GatewayConfig.matcher (config : GatewayConfig) : RouteMatcher :=
  RouteMatcher.new unicode config.routes

/-- The gateway just started, with no call in progress. -/
def ReloadCells.start (config : GatewayConfig) : ReloadCells :=
  Swap.start (·.matcher unicode) config

/-- **Reloads and requests**, one load or store at a time.  A call of `reload_config` is drafted
with its argument. -/
def reloadMachine : Machine ReloadCells (Swap.Act GatewayConfig) ReloadReport :=
  Swap.machine (fun newConfig _ => newConfig) (·.matcher unicode)

end

/-- The state's config and matcher, with no call in progress. -/
def ProxyState.cells {T : TlsCrates} (state : ProxyState T) : ReloadCells where
  value := state.config
  derived := state.matcher
  writes _ := .idle
  reads _ := .idle

theorem cells_of_new {X : ProxyCrates} {env : Option String} {draw : StartDraw X.mlDsa}
    {config : GatewayConfig} {state : ProxyState X.tls}
    (h : ProxyState.new X env draw config = .ok state) :
    state.cells = ReloadCells.start X.unicode config := by
  obtain ⟨_, -, rfl⟩ := ProxyState.new_eq_ok.mp h
  rfl

/-- **A reload alone** installs what `reloadConfig` does. -/
theorem reload_alone {T : TlsCrates} (unicode : CaseMap) (newConfig : GatewayConfig)
    (state : ProxyState T) (id : ℕ) :
    ∃ s reports, (reloadMachine unicode).run state.cells [.draft id newConfig, .swap id, .store id]
        = .ok (s, reports) ∧
      s.value = (state.reloadConfig unicode newConfig).config ∧
      s.derived = (state.reloadConfig unicode newConfig).matcher :=
  ⟨_, _, Swap.run_alone rfl newConfig, rfl, rfl⟩

/-! ## A request among reloads

A reload that tears a request stores its config after the request loads it, and its matcher before.
-/

section

variable {unicode : CaseMap} {config loaded held : GatewayConfig} {matcher : RouteMatcher}
  {acts acts' : List (Swap.Act GatewayConfig)} {s s₁ s₂ s₃ : ReloadCells}
  {reports reports' : List ReloadReport} {request : ℕ}

/-- **A request's config and matcher belong together** — where reloads run one after another — if
and only if it is not so that the last reload to store its matcher before the request loads the
matcher had not stored its config when the request loaded the config, and its matcher is not that of
the config loaded. -/
theorem request_consistent_iff
    (hbefore : (reloadMachine unicode).run (.start unicode config) acts = .ok (s, reports))
    (hserial : (reloadMachine unicode).Along Swap.OneByOne (.start unicode config) acts)
    (hload : (reloadMachine unicode).step s (.load request) = .ok (s₁, .loaded request loaded))
    (hbetween : (reloadMachine unicode).run s₁ acts' = .ok (s₂, reports'))
    (hserial' : (reloadMachine unicode).Along Swap.OneByOne s₁ acts')
    (hread : (reloadMachine unicode).step s₂ (.loadDerived request)
      = .ok (s₃, .read request held matcher)) :
    matcher = RouteMatcher.new unicode held.routes ↔
      ¬ ∃ id newConfig, Swap.lastSwap (reports ++ reports') = some (id, newConfig) ∧
        s.writes id ≠ .done ∧
        RouteMatcher.new unicode newConfig.routes ≠ RouteMatcher.new unicode loaded.routes :=
  Swap.read_consistent_iff hbefore hserial hload hbetween hserial' hread

end

/-! ### A request and one reload -/

/-- A configuration that sends every request to one upstream. -/
def oneRoute (upstream : String) : GatewayConfig :=
  minimalConfig [.plain "all" "/" upstream]

/-- Configurations with other upstreams have other matchers. -/
theorem matcher_oneRoute_ne (unicode : CaseMap) {upstream upstream' : String}
    (h : upstream ≠ upstream') :
    (oneRoute upstream).matcher unicode ≠ (oneRoute upstream').matcher unicode := by
  intro hsame
  simp [GatewayConfig.matcher, oneRoute, minimalConfig, RouteMatcher.new, Route.ofConfig,
    RouteConfig.allUpstreams, RouteConfig.plain] at hsame
  exact h hsame

/-- A call of `reload_config` alone is in series. -/
theorem along_alone (unicode : CaseMap) {s : ReloadCells} (hs : Swap.Quiescent s) (id : ℕ)
    (newConfig : GatewayConfig) :
    (reloadMachine unicode).Along Swap.OneByOne s [.draft id newConfig, .swap id, .store id] :=
  ⟨fun _ _ _ => hs, fun _ _ _ => ⟨fun _ _ h => (nomatch h), fun _ _ _ =>
    ⟨fun _ _ h => (nomatch h), fun _ _ _ => trivial⟩⟩⟩

/-- A request that begins after a reload works with the new config and its matcher. -/
theorem request_consistent_after :
    ∃ (s s₁ s₃ : ReloadCells) (reports : List ReloadReport) (matcher : RouteMatcher),
      (reloadMachine asciiCases).run (.start asciiCases (oneRoute "http://a"))
        [.draft 0 (oneRoute "http://b"), .swap 0, .store 0] = .ok (s, reports) ∧
      (reloadMachine asciiCases).step s (.load 0) = .ok (s₁, .loaded 0 (oneRoute "http://b")) ∧
      (reloadMachine asciiCases).step s₁ (.loadDerived 0)
        = .ok (s₃, .read 0 (oneRoute "http://b") matcher) ∧
      (matcher = RouteMatcher.new asciiCases (oneRoute "http://b").routes ↔
        ¬ ∃ id newConfig, Swap.lastSwap (reports ++ []) = some (id, newConfig) ∧
          s.writes id ≠ .done ∧
          RouteMatcher.new asciiCases newConfig.routes
            ≠ RouteMatcher.new asciiCases (oneRoute "http://b").routes) := by
  have hstart : Swap.Quiescent (ReloadCells.start asciiCases (oneRoute "http://a")) :=
    fun _ h => h
  have hrun : (reloadMachine asciiCases).run (.start asciiCases (oneRoute "http://a"))
      [.draft 0 (oneRoute "http://b"), .swap 0, .store 0] = .ok (_, _) := Swap.run_alone rfl _
  let s : ReloadCells :=
    { ReloadCells.start asciiCases (oneRoute "http://b") with
      writes := Function.update (fun _ => .idle) 0 .done }
  have hload : (reloadMachine asciiCases).step s (.load 0)
      = .ok (_, .loaded 0 (oneRoute "http://b")) := rfl
  exact ⟨_, _, _, _, _, hrun, hload, rfl, request_consistent_iff hrun
    (along_alone asciiCases hstart 0 _) hload ((reloadMachine asciiCases).run_nil _) trivial rfl⟩

/-- **A request torn by a reload**: its config is the old one and its matcher the new one. -/
theorem request_torn :
    ∃ (acts : List (Swap.Act GatewayConfig)) (s s₁ s₂ : ReloadCells) (reports : List ReloadReport)
      (matcher : RouteMatcher),
      (reloadMachine asciiCases).step (.start asciiCases (oneRoute "http://a")) (.load 0)
        = .ok (s, .loaded 0 (oneRoute "http://a")) ∧
      (reloadMachine asciiCases).run s acts = .ok (s₁, reports) ∧
      (reloadMachine asciiCases).Along Swap.OneByOne s acts ∧
      (reloadMachine asciiCases).step s₁ (.loadDerived 0)
        = .ok (s₂, .read 0 (oneRoute "http://a") matcher) ∧
      matcher ≠ RouteMatcher.new asciiCases (oneRoute "http://a").routes := by
  let s : ReloadCells :=
    { ReloadCells.start asciiCases (oneRoute "http://a") with
      reads := Function.update (fun _ => .idle) 0 (.holding (oneRoute "http://a")) }
  have hs : Swap.Quiescent s := fun _ h => h
  exact ⟨[.draft 0 (oneRoute "http://b"), .swap 0, .store 0], s, _, _, _, _, rfl,
    Swap.run_alone rfl _, along_alone asciiCases hs 0 _, rfl,
    matcher_oneRoute_ne asciiCases (by decide)⟩

/-! ## When no reload is in progress -/

/-- **The stored matcher is that of the stored config**, after any run that leaves no call of
`reload_config` in progress, exactly if the call that stored its matcher last is the one that stored
its config last, or the matchers of their two configs are the same. -/
theorem reloads_consistent_iff {unicode : CaseMap} {config : GatewayConfig}
    {acts : List (Swap.Act GatewayConfig)} {s : ReloadCells} {reports : List ReloadReport}
    (hrun : (reloadMachine unicode).run (.start unicode config) acts = .ok (s, reports))
    (hquiet : Swap.Quiescent s) :
    s.derived = RouteMatcher.new unicode s.value.routes ↔
      Swap.Paired (fun config => RouteMatcher.new unicode config.routes) reports :=
  Swap.quiescent_consistent_iff hrun hquiet

/-- Two reloads at once, the stores of one after those of the other. -/
theorem reloads_consistent_overlapping :
    ∃ (s : ReloadCells) (reports : List ReloadReport),
      (reloadMachine asciiCases).run (.start asciiCases (oneRoute "http://a"))
        [.draft 0 (oneRoute "http://b"), .draft 1 (oneRoute "http://c"), .swap 1, .store 1, .swap 0,
          .store 0] = .ok (s, reports) ∧
      s.value = oneRoute "http://b" ∧
      s.derived = RouteMatcher.new asciiCases (oneRoute "http://b").routes := by
  have hrun : (reloadMachine asciiCases).run (.start asciiCases (oneRoute "http://a"))
      [.draft 0 (oneRoute "http://b"), .draft 1 (oneRoute "http://c"), .swap 1, .store 1, .swap 0,
        .store 0] = .ok (_, [.drafted 0 _, .drafted 1 _, .swapped 1 _, .stored 1 _, .swapped 0 _,
          .stored 0 _]) := rfl
  refine ⟨_, _, hrun, rfl, (reloads_consistent_iff hrun fun id => ?_).mpr ?_⟩
  · rcases id with _ | _ | id <;> exact fun h => h
  · rintro _ _ _ _ _ ⟨⟩ ⟨⟩ -
    exact .inl rfl

/-- **Two reloads that cross** leave the config of one and the matcher of the other. -/
theorem reloads_crossed :
    ∃ turn ∈ (reloadMachine asciiCases).turns (.start asciiCases (oneRoute "http://a"))
        [.draft 0 (oneRoute "http://b"), .draft 1 (oneRoute "http://c"), .swap 0, .swap 1, .store 1,
          .store 0],
      Swap.Quiescent turn.after ∧
      turn.after.derived ≠ RouteMatcher.new asciiCases turn.after.value.routes := by
  have hrun : (reloadMachine asciiCases).run (.start asciiCases (oneRoute "http://a"))
      [.draft 0 (oneRoute "http://b"), .draft 1 (oneRoute "http://c"), .swap 0, .swap 1, .store 1]
        = .ok (_, _) := rfl
  refine ⟨_, (reloadMachine asciiCases).mem_turns_concat hrun rfl, fun id hprogress => ?_,
    matcher_oneRoute_ne asciiCases (by decide)⟩
  obtain ⟨hid, hprogress⟩ := Swap.inProgress_update_done.mp hprogress
  obtain ⟨hid', hprogress⟩ := Swap.inProgress_update_done.mp hprogress
  dsimp only at hprogress
  rw [Function.update_of_ne hid', Function.update_of_ne hid, Function.update_of_ne hid',
    Function.update_of_ne hid] at hprogress
  exact hprogress

end PqcGateway
