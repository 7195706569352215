import PqcGateway.Config.Gateway
import PqcGateway.Machinery.Text
import Mathlib.Data.List.Sort

/-!
# Routing/Router — which route a request takes

`RouteMatcher::new` compiles the routes of a configuration and orders them, longest prefix first;
`matchRoute` takes the first that applies to the path and admits the method.  Upper and lower case
are Unicode's (`CaseMap`).
-/

namespace PqcGateway

/-- `str::to_lowercase` and `str::to_uppercase`. -/
structure CaseMap where
  toLowercase : String → String
  toUppercase : String → String

/-- The case map of ASCII, which leaves other characters. -/
def asciiCases : CaseMap where
  toLowercase s := String.ofList (s.toList.map Char.toLower)
  toUppercase s := String.ofList (s.toList.map Char.toUpper)

/-! ## Signature modes -/

/-- Which signature algorithms the gateway applies to responses. -/
inductive SignatureMode
  | classical
  | hybrid
  | mlDsaOnly
deriving DecidableEq, Repr

namespace SignatureMode

def fromStr (unicode : CaseMap) (s : String) : Except String SignatureMode :=
  match unicode.toLowercase s with
  | "classical" => .ok .classical
  | "hybrid" => .ok .hybrid
  | "mldsa-only" => .ok .mlDsaOnly
  | "mldsa_only" => .ok .mlDsaOnly
  | "mldsaonly" => .ok .mlDsaOnly
  | other => .error
    ("unknown signature mode '" ++ other ++ "': expected classical|hybrid|mldsa-only")

/-- Resolve the effective mode using precedence: the environment's override, the route's mode, the
global default. -/
def resolve (unicode : CaseMap) (envOverride : Option String) (routeMode : Option SignatureMode)
    (globalDefault : SignatureMode) : SignatureMode :=
  match envOverride.bind fun envVal => (fromStr unicode envVal).toOption with
  | some mode => mode
  | none => routeMode.getD globalDefault

end SignatureMode

/-! ## Routes -/

structure Route where
  id : String
  pathPrefix : String
  upstreams : List String
  upstream : String
  stripPrefix : Bool
  methods : List String
  timeoutMs : ℕ
  signatureMode : Option SignatureMode
  rateLimit : Option (ℕ × ℕ)
  maxRequestBodyBytes : Option ℕ
  upstreamTls : Bool
deriving DecidableEq, Repr

namespace Route

variable (unicode : CaseMap)

/-- `Route::from`. -/
def ofConfig (cfg : RouteConfig) : Route where
  id := cfg.id
  pathPrefix := cfg.pathPrefix
  upstream := cfg.allUpstreams.head (List.cons_ne_nil _ _)
  upstreams := cfg.allUpstreams
  stripPrefix := cfg.stripPrefix
  methods := cfg.methods.map unicode.toUppercase
  timeoutMs := cfg.timeoutMs
  signatureMode := cfg.signatureMode.bind fun s => (SignatureMode.fromStr unicode s).toOption
  rateLimit := cfg.rateLimit.map fun rl => (rl.requests, rl.windowSeconds)
  maxRequestBodyBytes := cfg.maxRequestBodyBytes
  upstreamTls := cfg.upstreamTls

/-- The path is under the route's prefix, or is the prefix without its slash. -/
def applies (path : String) (route : Route) : Bool :=
  Text.startsWith route.pathPrefix path || path == Text.trimEndMatches '/' route.pathPrefix

/-- The route admits the method; no methods admit every one. -/
def admits (methodUpper : String) (route : Route) : Bool :=
  route.methods.isEmpty || route.methods.contains methodUpper

/-- The rewritten upstream path. -/
def upstreamPath (path : String) (route : Route) : String :=
  if route.stripPrefix then
    let stripped := (Text.stripPrefix route.pathPrefix path).getD ""
    if stripped = "" ∨ Text.startsWith "/" stripped then stripped else "/" ++ stripped
  else path

end Route

/-! ## The matcher -/

structure RouteMatcher where
  routes : List Route
deriving DecidableEq, Repr

namespace RouteMatcher

variable (unicode : CaseMap)

/-- Sort by prefix length descending so longer (more specific) prefixes match first; the sort is
stable. -/
def new (configs : List RouteConfig) : RouteMatcher where
  routes := (configs.map (Route.ofConfig unicode)).mergeSort fun a b =>
    Text.byteLen b.pathPrefix.toList ≤ Text.byteLen a.pathPrefix.toList

theorem new_singleton (cfg : RouteConfig) :
    new unicode [cfg] = ⟨[.ofConfig unicode cfg]⟩ := by
  rw [new, List.map_singleton, List.mergeSort_singleton]

/-- Find the matching route for a given path and method, and the rewritten upstream path. -/
def matchRoute (path method : String) (matcher : RouteMatcher) : Option (Route × String) :=
  let methodUpper := unicode.toUppercase method
  let found := matcher.routes.find? fun route => route.applies path && route.admits methodUpper
  found.map fun route => (route, route.upstreamPath path)

variable {unicode}

/-- A request is routed by one of the configured routes. -/
theorem mem_of_matchRoute {routes : List RouteConfig} {path method path' : String} {route : Route}
    (h : (new unicode routes).matchRoute unicode path method = some (route, path')) :
    ∃ cfg ∈ routes, route = .ofConfig unicode cfg := by
  obtain ⟨found, hfound, hroute⟩ := Option.map_eq_some_iff.mp h
  obtain ⟨rfl, -⟩ := Prod.mk.inj hroute
  have hmem := List.mem_mergeSort.mp (List.mem_of_find?_eq_some hfound)
  obtain ⟨cfg, hcfg, rfl⟩ := List.mem_map.mp hmem
  exact ⟨cfg, hcfg, rfl⟩

end RouteMatcher

end PqcGateway
