import PqcGateway.Machinery.StableSort
import PqcGateway.Routing.Router

/-!
# Routing/LongestPrefix — the route a request is given

`matchRoute` scans the routes sorted by length and passes over those that do not admit the method,
so a request falls through to shorter prefixes.  In terms of the configuration it chooses, of the
routes that serve the request, one with the longest prefix, the earliest of these
(`matchRoute_longest`).  The path it sends upstream is empty or starts with a slash, so that it ends
the authority of whatever URI it is put behind.
-/

namespace PqcGateway

/-! ## The routes that serve a request -/

namespace RouteConfig

/-- The path is under the route's prefix, or is the prefix without trailing slashes. -/
def Applies (path : String) (cfg : RouteConfig) : Prop :=
  Text.startsWith cfg.pathPrefix path = true ∨ path = Text.trimEndMatches '/' cfg.pathPrefix

/-- The route lists no methods, or lists this one, in whatever case. -/
def Admits (unicode : CaseMap) (method : String) (cfg : RouteConfig) : Prop :=
  cfg.methods = [] ∨ unicode.toUppercase method ∈ cfg.methods.map unicode.toUppercase

/-- The route applies to the path and admits the method. -/
def Serves (unicode : CaseMap) (path method : String) (cfg : RouteConfig) : Prop :=
  cfg.Applies path ∧ cfg.Admits unicode method

/-- `path_prefix.len()`. -/
def prefixLen (cfg : RouteConfig) : ℕ := Text.byteLen cfg.pathPrefix.toList

end RouteConfig

section

variable {unicode : CaseMap} {path method : String} {cfg : RouteConfig}

theorem applies_ofConfig :
    (Route.ofConfig unicode cfg).applies path = true ↔ cfg.Applies path := by
  rw [Route.applies, Bool.or_eq_true, beq_iff_eq]
  rfl

theorem admits_ofConfig :
    (Route.ofConfig unicode cfg).admits (unicode.toUppercase method) = true ↔
      cfg.Admits unicode method := by
  rw [Route.admits, Bool.or_eq_true, List.isEmpty_iff, List.contains_iff_mem]
  exact or_congr_left List.map_eq_nil_iff

/-- **A compiled route is found for a request** iff its configuration serves it. -/
theorem serves_ofConfig : ((Route.ofConfig unicode cfg).applies path &&
    (Route.ofConfig unicode cfg).admits (unicode.toUppercase method)) = true ↔
      cfg.Serves unicode path method := by
  rw [Bool.and_eq_true, applies_ofConfig, admits_ofConfig]
  rfl

end

/-! ## Authorities

A URI is put together as text, so what is put behind an upstream's address can become part of its
authority. -/

/-- What stands behind the first `://`. -/
def afterScheme : List Char → Option (List Char)
  | ':' :: '/' :: '/' :: rest => some rest
  | _ :: cs => afterScheme cs
  | [] => none

/-- A character that ends the authority. -/
def endsAuthority (c : Char) : Bool := c == '/' || c == '?' || c == '#'

/-- The authority of a URI: what stands behind its scheme, up to the path, query or fragment. -/
def authority (uri : String) : Option String :=
  (afterScheme uri.toList).map fun rest =>
    String.ofList (rest.takeWhile fun c => !endsAuthority c)

theorem afterScheme_append {cs rest : List Char} (h : afterScheme cs = some rest)
    (ds : List Char) : afterScheme (cs ++ ds) = some (rest ++ ds) := by
  induction cs using afterScheme.induct with
  | case1 rest' =>
    obtain rfl := Option.some.inj h
    rfl
  | case2 c cs hscheme ih =>
    rw [afterScheme.eq_2 c cs hscheme] at h
    rw [List.cons_append, afterScheme.eq_2 c (cs ++ ds) ?_, ih h]
    -- what is appended comes too late to make a `://` here
    rintro rest' rfl hslashes
    match cs, h with
    | _ :: _ :: cs, h =>
      simp only [List.cons_append, List.cons.injEq] at hslashes
      obtain ⟨rfl, rfl, -⟩ := hslashes
      exact hscheme cs rfl rfl
  | case3 => cases h

/-- **What is empty or starts with a slash leaves the authority** of the URI it is put behind. -/
theorem authority_append {base path : String} {auth : String} (h : authority base = some auth)
    (hpath : path = "" ∨ Text.startsWith "/" path = true) :
    authority (base ++ path) = some auth := by
  obtain ⟨rest, hrest, rfl⟩ := Option.map_eq_some_iff.mp h
  rw [authority, String.toList_append, afterScheme_append hrest, Option.map_some]
  have hends : path.toList.takeWhile (fun c => !endsAuthority c) = [] := by
    rcases hpath with rfl | hslash
    · rfl
    · obtain ⟨cs, hcs⟩ := List.isPrefixOf_iff_prefix.mp hslash
      rw [← hcs]
      rfl
  rw [List.takeWhile_append, hends, List.append_nil]
  split_ifs with hlen
  · rw [(List.takeWhile_prefix _).eq_of_length hlen]
  · rfl

/-- The path sent upstream for a path that starts with a slash. -/
theorem upstreamPath_slash {path : String} (hpath : Text.startsWith "/" path = true)
    (route : Route) :
    route.upstreamPath path = "" ∨ Text.startsWith "/" (route.upstreamPath path) = true := by
  rw [Route.upstreamPath]
  by_cases hstrip : route.stripPrefix = true
  · rw [if_pos hstrip]
    by_cases hslash : (Text.stripPrefix route.pathPrefix path).getD "" = "" ∨
        Text.startsWith "/" ((Text.stripPrefix route.pathPrefix path).getD "") = true
    · rwa [if_pos hslash]
    · rw [if_neg hslash, Text.startsWith, String.toList_append]
      exact .inr (List.isPrefixOf_iff_prefix.mpr (List.prefix_append _ _))
  · rw [if_neg hstrip]
    exact .inr hpath

/-! ## Longest prefix -/

/-- The route is compiled from the `i`-th of the configured ones that serve the request, none of
which has a longer prefix, nor one as long that comes earlier. -/
structure IsLongest (unicode : CaseMap) (path method : String) (configs : List RouteConfig)
    (route : Route) (i : ℕ) (cfg : RouteConfig) : Prop where
  configured : configs[i]? = some cfg
  compiled : route = Route.ofConfig unicode cfg
  serves : cfg.Serves unicode path method
  longest : ∀ (j : ℕ) cfg', configs[j]? = some cfg' → cfg'.Serves unicode path method →
    cfg'.prefixLen ≤ cfg.prefixLen
  earliest : ∀ (j : ℕ) cfg', configs[j]? = some cfg' → cfg'.Serves unicode path method →
    cfg'.prefixLen = cfg.prefixLen → i ≤ j

section

variable {unicode : CaseMap} {path method : String} {configs : List RouteConfig}

/-- A route is found iff one serves the request. -/
theorem exists_matchRoute_iff :
    (∃ found, (RouteMatcher.new unicode configs).matchRoute unicode path method = some found) ↔
      ∃ cfg ∈ configs, cfg.Serves unicode path method := by
  simp only [RouteMatcher.matchRoute, RouteMatcher.new, Option.map_eq_some_iff]
  constructor
  · rintro ⟨_, route, hfind, -⟩
    obtain ⟨_, hmem, hserves⟩ := List.find?_mergeSort_isSome.mp ⟨route, hfind⟩
    obtain ⟨cfg, hcfg, rfl⟩ := List.mem_map.mp hmem
    exact ⟨cfg, hcfg, serves_ofConfig.mp hserves⟩
  · rintro ⟨cfg, hcfg, hserves⟩
    obtain ⟨route, hfind⟩ := List.find?_mergeSort_isSome
      (p := fun route : Route => route.applies path && route.admits (unicode.toUppercase method))
      |>.mpr ⟨_, List.mem_map_of_mem hcfg, serves_ofConfig.mpr hserves⟩
    exact ⟨_, route, hfind, rfl⟩

/-- **The route found is the longest, and the earliest of these.** -/
theorem isLongest_of_matchRoute {route : Route} {upstreamPath : String}
    (h : (RouteMatcher.new unicode configs).matchRoute unicode path method
      = some (route, upstreamPath)) :
    (∃ i cfg, IsLongest unicode path method configs route i cfg) ∧
      upstreamPath = route.upstreamPath path := by
  obtain ⟨route', hfind, heq⟩ := Option.map_eq_some_iff.mp h
  obtain ⟨rfl, rfl⟩ := Prod.mk.inj heq
  obtain ⟨i, hi, hserves, hleast⟩ := List.find?_mergeSort_eq_some
    (fun a b c hab hbc => decide_eq_true ((of_decide_eq_true hbc).trans (of_decide_eq_true hab)))
    (fun a b => by simpa using Nat.le_total _ _) hfind
  obtain ⟨cfg, hcfg, rfl⟩ := Option.map_eq_some_iff.mp (List.getElem?_map ▸ hi)
  have hbest : ∀ (j : ℕ) cfg', configs[j]? = some cfg' → cfg'.Serves unicode path method →
      cfg'.prefixLen ≤ cfg.prefixLen ∧ (cfg.prefixLen ≤ cfg'.prefixLen → i ≤ j) := by
    intro j cfg' hcfg' hserves'
    have hj : (configs.map (Route.ofConfig unicode))[j]? = some (Route.ofConfig unicode cfg') := by
      rw [List.getElem?_map, hcfg']
      rfl
    obtain ⟨hle, hfirst⟩ := hleast j _ hj (serves_ofConfig.mpr hserves')
    exact ⟨of_decide_eq_true hle, fun h => hfirst (decide_eq_true h)⟩
  exact ⟨⟨i, cfg,
    { configured := hcfg
      compiled := rfl
      serves := serves_ofConfig.mp hserves
      longest := fun j cfg' hcfg' hserves' => (hbest j cfg' hcfg' hserves').1
      earliest := fun j cfg' hcfg' hserves' heq => (hbest j cfg' hcfg' hserves').2 heq.ge }⟩, rfl⟩

end

/-- **Longest-prefix routing.**  A request is given a route iff one serves it: the one with the
longest prefix, the earliest of these.  The path sent upstream for a path that starts with a slash
is empty or starts with one, and leaves the authority of every URI it is put behind. -/
theorem matchRoute_longest (unicode : CaseMap) (configs : List RouteConfig)
    (path method : String) :
    ((∃ found, (RouteMatcher.new unicode configs).matchRoute unicode path method = some found) ↔
      ∃ cfg ∈ configs, cfg.Serves unicode path method) ∧
    ∀ route upstreamPath,
      (RouteMatcher.new unicode configs).matchRoute unicode path method
        = some (route, upstreamPath) →
      (∃ i cfg, IsLongest unicode path method configs route i cfg) ∧
      (Text.startsWith "/" path = true →
        (upstreamPath = "" ∨ Text.startsWith "/" upstreamPath = true) ∧
        ∀ base auth, authority base = some auth →
          authority (base ++ upstreamPath) = some auth) := by
  refine ⟨exists_matchRoute_iff, fun route upstreamPath h => ?_⟩
  obtain ⟨hlongest, rfl⟩ := isLongest_of_matchRoute h
  refine ⟨hlongest, fun hpath => ?_⟩
  have hslash := upstreamPath_slash hpath route
  exact ⟨hslash, fun base auth hbase => authority_append hbase hslash⟩

end PqcGateway
