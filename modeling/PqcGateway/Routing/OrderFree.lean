import PqcGateway.Routing.LongestPrefix
import Mathlib.Data.List.Pairwise

/-!
# Routing/OrderFree — the order of the routes does not matter

Of the routes with the longest prefix the earliest is taken, so the order matters only between
prefixes of one length that apply to one path.  These are one prefix (`pathPrefix_eq_of_applies`):
where no two routes with one prefix admit a common method, every order of the routes gives a request
the same route (`matchRoute_perm`).

* `matchRoute_reads_writes` — two routes with one prefix, one for reading and one for writing.
-/

namespace PqcGateway

section

variable {unicode : CaseMap} {path method : String} {configs configs' : List RouteConfig}

/-- **A prefix that applies** is the start of the path with enough slashes behind it. -/
theorem RouteConfig.Applies.prefix_slashes {cfg : RouteConfig} (h : cfg.Applies path) :
    ∃ n, cfg.pathPrefix.toList <+: path.toList ++ List.replicate n '/' := by
  obtain hstarts | rfl := h
  · exact ⟨0, (List.isPrefixOf_iff_prefix.mp hstarts).trans (List.prefix_append _ _)⟩
  · obtain ⟨n, hn⟩ := Text.toList_eq_trimEndMatches '/' cfg.pathPrefix
    exact ⟨n, hn ▸ List.prefix_rfl⟩

/-- **Prefixes of one length that apply to one path are one prefix.** -/
theorem pathPrefix_eq_of_applies {a b : RouteConfig} (ha : a.Applies path) (hb : b.Applies path)
    (hlen : a.prefixLen = b.prefixLen) : a.pathPrefix = b.pathPrefix := by
  obtain ⟨m, hm⟩ := ha.prefix_slashes
  obtain ⟨n, hn⟩ := hb.prefix_slashes
  have hslashes : ∀ k ≤ max m n, path.toList ++ List.replicate k '/'
      <+: path.toList ++ List.replicate (max m n) '/' := fun k hk =>
    (List.prefix_append_right_inj _).mpr
      ⟨List.replicate (max m n - k) '/', by rw [List.replicate_append_replicate]; congr 1; omega⟩
  exact String.toList_injective (Text.eq_of_prefix_of_byteLen_eq
    (hm.trans (hslashes m (le_max_left m n))) (hn.trans (hslashes n (le_max_right m n))) hlen)

/-- No two of the routes have the same prefix and admit a common method. -/
def MethodsDisjoint (unicode : CaseMap) (configs : List RouteConfig) : Prop :=
  configs.Pairwise fun a b => a.pathPrefix = b.pathPrefix →
    ¬ ∃ method, a.Admits unicode method ∧ b.Admits unicode method

/-- **At most one route of each length serves a request.** -/
theorem MethodsDisjoint.eq_of_serves (h : MethodsDisjoint unicode configs) {a b : RouteConfig}
    (ha : a ∈ configs) (hb : b ∈ configs) (hserves : a.Serves unicode path method)
    (hserves' : b.Serves unicode path method) (hlen : a.prefixLen = b.prefixLen) : a = b := by
  by_contra hne
  have hsymm : Std.Symm fun a b : RouteConfig => a.pathPrefix = b.pathPrefix →
      ¬ ∃ method, a.Admits unicode method ∧ b.Admits unicode method :=
    ⟨fun a b hab heq ⟨m, hb, ha⟩ => hab heq.symm ⟨m, ha, hb⟩⟩
  exact List.Pairwise.forall h ha hb hne
    (pathPrefix_eq_of_applies hserves.1 hserves'.1 hlen) ⟨method, hserves.2, hserves'.2⟩

/-- **The longest route is the same** for both orders. -/
theorem eq_of_isLongest (hperm : configs.Perm configs') (h : MethodsDisjoint unicode configs)
    {route route' : Route} {i i' : ℕ} {cfg cfg' : RouteConfig}
    (hlongest : IsLongest unicode path method configs route i cfg)
    (hlongest' : IsLongest unicode path method configs' route' i' cfg') : cfg = cfg' := by
  have hmem : cfg ∈ configs := List.mem_of_getElem? hlongest.configured
  have hmem' : cfg' ∈ configs := hperm.mem_iff.mpr (List.mem_of_getElem? hlongest'.configured)
  obtain ⟨j, hj⟩ := List.getElem?_of_mem hmem'
  obtain ⟨j', hj'⟩ := List.getElem?_of_mem (hperm.mem_iff.mp hmem)
  exact h.eq_of_serves hmem hmem' hlongest.serves hlongest'.serves
    (le_antisymm (hlongest'.longest j' cfg hj' hlongest.serves)
      (hlongest.longest j cfg' hj hlongest'.serves))

/-- A request that is given a route in one order is given it in the other. -/
theorem matchRoute_of_perm (hperm : configs.Perm configs') (h : MethodsDisjoint unicode configs)
    {route : Route} {upstreamPath : String}
    (hmatch : (RouteMatcher.new unicode configs).matchRoute unicode path method
      = some (route, upstreamPath)) :
    (RouteMatcher.new unicode configs').matchRoute unicode path method
        = some (route, upstreamPath) ∧
      ∃ i i' cfg, IsLongest unicode path method configs route i cfg ∧
        IsLongest unicode path method configs' route i' cfg := by
  obtain ⟨⟨i, cfg, hlongest⟩, rfl⟩ := isLongest_of_matchRoute hmatch
  obtain ⟨⟨route', upstreamPath'⟩, hmatch'⟩ := exists_matchRoute_iff.mpr
    ⟨cfg, hperm.mem_iff.mp (List.mem_of_getElem? hlongest.configured), hlongest.serves⟩
  obtain ⟨⟨i', cfg', hlongest'⟩, rfl⟩ := isLongest_of_matchRoute hmatch'
  obtain rfl := eq_of_isLongest hperm h hlongest hlongest'
  obtain rfl := hlongest.compiled.trans hlongest'.compiled.symm
  exact ⟨hmatch', i, i', cfg, hlongest, hlongest'⟩

end

/-- **Routing does not depend on the order of the routes.**  Where no two with the same prefix admit
a common method, a request is answered alike in every order: by the same route of the configuration
and the same path upstream, or by none. -/
theorem matchRoute_perm (unicode : CaseMap) {configs configs' : List RouteConfig}
    (hperm : configs.Perm configs') (h : MethodsDisjoint unicode configs) (path method : String) :
    (RouteMatcher.new unicode configs).matchRoute unicode path method
        = (RouteMatcher.new unicode configs').matchRoute unicode path method ∧
      ∀ route upstreamPath, (RouteMatcher.new unicode configs).matchRoute unicode path method
          = some (route, upstreamPath) →
        ∃ i i' cfg, IsLongest unicode path method configs route i cfg ∧
          IsLongest unicode path method configs' route i' cfg := by
  refine ⟨?_, fun route upstreamPath hmatch => (matchRoute_of_perm hperm h hmatch).2⟩
  cases hmatch : (RouteMatcher.new unicode configs).matchRoute unicode path method with
  | some found => exact (matchRoute_of_perm hperm h hmatch).1.symm
  | none =>
    refine (Option.eq_none_iff_forall_ne_some.mpr fun found hfound => ?_).symm
    obtain ⟨cfg, hmem, hserves⟩ := exists_matchRoute_iff.mp ⟨found, hfound⟩
    obtain ⟨found', hfound'⟩ := exists_matchRoute_iff.mpr ⟨cfg, hperm.mem_iff.mpr hmem, hserves⟩
    exact Option.some_ne_none found' (hfound'.symm.trans hmatch)

/-- Reads and writes of one prefix go to different upstreams, in either order. -/
theorem matchRoute_reads_writes :
    (RouteMatcher.new asciiCases
        [{ RouteConfig.plain "read" "/items" "http://a" with methods := ["GET"] },
          { RouteConfig.plain "write" "/items" "http://b" with methods := ["POST"] }]).matchRoute
        asciiCases "/items/1" "post"
      = (RouteMatcher.new asciiCases
        [{ RouteConfig.plain "write" "/items" "http://b" with methods := ["POST"] },
          { RouteConfig.plain "read" "/items" "http://a" with methods := ["GET"] }]).matchRoute
        asciiCases "/items/1" "post" := by
  refine (matchRoute_perm asciiCases (List.Perm.swap _ _ []) ?_ "/items/1" "post").1
  refine List.pairwise_pair.mpr fun _ hcommon => ?_
  obtain ⟨method, hget, hpost⟩ := hcommon
  have hupper : asciiCases.toUppercase method = "GET" := by
    simpa [RouteConfig.Admits, asciiCases] using hget
  have hupper' : asciiCases.toUppercase method = "POST" := by
    simpa [RouteConfig.Admits, asciiCases] using hpost
  exact absurd (hupper.symm.trans hupper') (by decide)

end PqcGateway
