import PqcGateway.Routing.Router

/-!
# Routing/StripPrefix — what a stripped prefix takes with it

A route that strips its prefix sends what is left of the path upstream, with a slash in front if
there is none.  The prefix is compared as text, so it may end inside a segment of the path, and the
slash in front then makes a segment of the rest.

* `upToSlash_strip_iff` — the paths that are the prefix and what is sent upstream, up to a slash at
  the end; of these no two that differ by more are sent to one path.
* `strip_aliases` — `/apix` and `/api/x` are sent to one path.
-/

namespace PqcGateway

/-! ## Slashes -/

/-- As many slashes. -/
def slashes (n : ℕ) : String := String.ofList (List.replicate n '/')

/-- Equal, up to one slash at the end. -/
def UpToSlash (s t : String) : Prop := s = t ∨ s = t ++ "/" ∨ t = s ++ "/"

instance (s t : String) : Decidable (UpToSlash s t) := inferInstanceAs (Decidable (_ ∨ _ ∨ _))

section

variable {s t u : String}

theorem upToSlash_iff_toList : UpToSlash s t ↔
    s.toList = t.toList ∨ s.toList = t.toList ++ ['/'] ∨ t.toList = s.toList ++ ['/'] := by
  simp only [UpToSlash, ← String.toList_inj, String.toList_append]
  rfl

/-- A common start does not matter. -/
theorem upToSlash_append_left : UpToSlash (s ++ t) (s ++ u) ↔ UpToSlash t u := by
  simp only [upToSlash_iff_toList, String.toList_append, List.append_assoc,
    List.append_cancel_left_eq]

theorem UpToSlash.symm (h : UpToSlash s t) : UpToSlash t s := by
  obtain rfl | h | h := h
  · exact .inl rfl
  · exact .inr (.inr h)
  · exact .inr (.inl h)

theorem slashes_eq_empty_iff {n : ℕ} : slashes n = "" ↔ n = 0 := by
  rw [← String.toList_inj, slashes, String.toList_ofList, String.toList_empty,
    List.replicate_eq_nil_iff]

theorem slashes_eq_slash_iff {n : ℕ} : slashes n = "/" ↔ n = 1 := by
  rw [← String.toList_inj, slashes, String.toList_ofList]
  constructor
  · intro h
    simpa using congrArg List.length h
  · rintro rfl
    rfl

/-- One more in front is one more behind only among copies. -/
theorem cons_eq_concat_iff {c : Char} {cs : List Char} :
    c :: cs = cs ++ [c] ↔ ∀ d ∈ cs, d = c := by
  induction cs with
  | nil => simp
  | cons d cs ih =>
    rw [List.cons_append, List.cons.injEq, List.forall_mem_cons, ← ih]
    constructor
    · rintro ⟨rfl, h⟩
      exact ⟨rfl, h⟩
    · rintro ⟨rfl, h⟩
      exact ⟨rfl, h⟩

end

/-! ## What is left

A prefix has some slashes at its end, mostly none or one; what is lost depends on how many, and on
how the rest of the path begins. -/

/-- What is left of a path, with a slash in front if there is none. -/
def rooted (left : String) : String :=
  if left = "" ∨ Text.startsWith "/" left then left else "/" ++ left

section

variable {left path : String} {route : Route}

theorem rooted_of_slash (h : left = "" ∨ Text.startsWith "/" left = true) : rooted left = left :=
  if_pos h

theorem upstreamPath_append (hstrip : route.stripPrefix = true) (left : String) :
    route.upstreamPath (route.pathPrefix ++ left) = rooted left := by
  rw [Route.upstreamPath, if_pos hstrip, Text.stripPrefix_append, Option.getD_some]
  rfl

theorem upstreamPath_of_not_startsWith (hstrip : route.stripPrefix = true)
    (h : ¬ Text.startsWith route.pathPrefix path = true) : route.upstreamPath path = "" := by
  rw [Route.upstreamPath, if_pos hstrip, Text.stripPrefix, if_neg h]
  rfl

/-- The prefix without its slashes, and how many it has. -/
theorem exists_slashes (route : Route) : ∃ n,
    route.pathPrefix = Text.trimEndMatches '/' route.pathPrefix ++ slashes n := by
  obtain ⟨n, hn⟩ := Text.toList_eq_trimEndMatches '/' route.pathPrefix
  exact ⟨n, String.toList_injective (by rw [hn, String.toList_append, slashes,
    String.toList_ofList])⟩

theorem startsWith_slash_iff :
    Text.startsWith "/" left = true ↔ left.toList.head? = some '/' := by
  have hslash : "/".toList = ['/'] := rfl
  rw [Text.startsWith, hslash]
  rcases left.toList with _ | ⟨c, cs⟩
  · exact iff_of_false Bool.false_ne_true (Option.some_ne_none '/').symm
  · rw [List.isPrefixOf_iff_prefix, List.cons_prefix_cons, List.head?_cons, Option.some_inj,
      and_iff_left List.nil_prefix, eq_comm]

theorem eq_empty_iff : left = "" ↔ left.toList = [] := by
  rw [← String.toList_inj]
  rfl

theorem toList_rooted : (rooted left).toList
    = if left.toList = [] ∨ left.toList.head? = some '/' then left.toList
      else '/' :: left.toList := by
  simp only [rooted, eq_empty_iff, startsWith_slash_iff]
  split_ifs
  · rfl
  · exact String.toList_append

/-- **How what is left compares with what is sent**, behind so many slashes. -/
theorem upToSlash_rooted {n : ℕ} : UpToSlash (slashes n ++ left) (rooted left) ↔
    n = 0 ∧ (left = "" ∨ Text.startsWith "/" left = true) ∨
      n = 1 ∧ (¬ Text.startsWith "/" left = true ∨ ∀ c ∈ left.toList, c = '/') := by
  rw [upToSlash_iff_toList, toList_rooted, eq_empty_iff, startsWith_slash_iff, String.toList_append,
    slashes, String.toList_ofList]
  generalize left.toList = cs
  rcases cs with _ | ⟨c, cs⟩
  · rcases n with _ | _ | n
    · simp
    · simp
    · simp [List.replicate_succ]
  by_cases hc : c = '/'
  · subst hc
    rcases n with _ | _ | n
    · simp
    · have hlonger : cs ≠ '/' :: (cs ++ ['/']) := fun h => by
        have := congrArg List.length h
        simp only [List.length_cons, List.length_append, List.length_nil] at this
        omega
      simp [cons_eq_concat_iff, hlonger]
    · -- more than one slash too many
      rw [List.head?_cons, if_pos (.inr rfl)]
      refine iff_of_false ?_ (by simp)
      rintro (h | h | h) <;>
      · have := congrArg List.length h
        simp only [List.length_append, List.length_replicate, List.length_cons,
          List.length_nil] at this
        omega
  · have hc' : '/' ≠ c := Ne.symm hc
    rcases n with _ | _ | n
    · simp [hc, hc']
    · simp [hc]
    · simp [List.replicate_succ, hc, hc']

/-! ## What is lost, and what is not

A request for a prefix without the slash at its end is sent where one for the whole prefix is; one
slash is what `UpToSlash` forgives. -/

/-- **The prefix ends where a segment does.**  The path is the prefix without its slashes; or the
prefix has none, and what is left is empty or starts with one; or the prefix has one, and what is
left does not start with another, or is slashes only. -/
def Route.StripsSegments (path : String) (route : Route) : Prop :=
  path = Text.trimEndMatches '/' route.pathPrefix ∨
    ∃ left, path = route.pathPrefix ++ left ∧
      (route.pathPrefix = Text.trimEndMatches '/' route.pathPrefix ∧
          (left = "" ∨ Text.startsWith "/" left = true) ∨
        route.pathPrefix = Text.trimEndMatches '/' route.pathPrefix ++ "/" ∧
          (¬ Text.startsWith "/" left = true ∨ ∀ c ∈ left.toList, c = '/'))

/-- What follows a prefix with so many slashes. -/
theorem stripsSegments_append {n : ℕ}
    (hn : route.pathPrefix = Text.trimEndMatches '/' route.pathPrefix ++ slashes n) :
    route.StripsSegments (route.pathPrefix ++ left) ↔
      n = 0 ∧ (left = "" ∨ Text.startsWith "/" left = true) ∨
        n = 1 ∧ (¬ Text.startsWith "/" left = true ∨ ∀ c ∈ left.toList, c = '/') := by
  rw [Route.StripsSegments]
  generalize Text.trimEndMatches '/' route.pathPrefix = trimmed at hn ⊢
  have hnone : route.pathPrefix = trimmed ↔ n = 0 := by
    rw [hn, String.append_eq_left_iff, slashes_eq_empty_iff]
  have hone : route.pathPrefix = trimmed ++ "/" ↔ n = 1 := by
    rw [hn, String.append_right_inj, slashes_eq_slash_iff]
  rw [hnone, hone]
  constructor
  · intro h
    obtain htrimmed | ⟨left', hleft, hends⟩ := h
    · rw [hn, String.append_assoc, String.append_eq_left_iff, String.append_eq_empty_iff,
        slashes_eq_empty_iff] at htrimmed
      exact .inl ⟨htrimmed.1, .inl htrimmed.2⟩
    · rw [String.append_right_inj] at hleft
      rwa [hleft]
  · exact fun hends => .inr ⟨left, rfl, hends⟩

/-- **Nothing is lost** exactly where the prefix ends with a segment. -/
theorem upToSlash_upstreamPath (hstrip : route.stripPrefix = true)
    (happlies : route.applies path = true) :
    UpToSlash path (Text.trimEndMatches '/' route.pathPrefix ++ route.upstreamPath path) ↔
      route.StripsSegments path := by
  obtain ⟨n, hn⟩ := exists_slashes route
  by_cases hstarts : Text.startsWith route.pathPrefix path = true
  · obtain ⟨left, rfl⟩ := Text.startsWith_iff.mp hstarts
    rw [upstreamPath_append hstrip, stripsSegments_append hn, ← upToSlash_rooted]
    have hpath : route.pathPrefix ++ left
        = Text.trimEndMatches '/' route.pathPrefix ++ (slashes n ++ left) := by
      conv_lhs => rw [hn, String.append_assoc]
    rw [hpath, upToSlash_append_left]
  · have htrimmed : path = Text.trimEndMatches '/' route.pathPrefix := by
      simpa [Route.applies, hstarts] using happlies
    rw [upstreamPath_of_not_startsWith hstrip hstarts, String.append_empty]
    exact iff_of_true (.inl htrimmed) (.inl htrimmed)

/-- Slashes only: nothing is put in front, and one in front is one behind. -/
theorem rooted_of_slashes (hall : ∀ c ∈ left.toList, c = '/') :
    rooted left = left ∧ "/" ++ left = left ++ "/" := by
  constructor
  · refine rooted_of_slash ?_
    rw [eq_empty_iff, startsWith_slash_iff]
    generalize left.toList = cs at hall
    rcases cs with _ | ⟨c, cs⟩
    · exact .inl rfl
    · exact .inr (congrArg some (hall c List.mem_cons_self))
  · refine String.toList_injective ?_
    rw [String.toList_append, String.toList_append]
    exact cons_eq_concat_iff.mpr hall

/-- **Where the prefix ends with a segment**, the path is the prefix and what is sent, or that with
a slash behind slashes. -/
theorem Route.StripsSegments.eq_append (hstrip : route.stripPrefix = true)
    (happlies : route.applies path = true) (h : route.StripsSegments path) :
    path = Text.trimEndMatches '/' route.pathPrefix ++ route.upstreamPath path ∨
      path = Text.trimEndMatches '/' route.pathPrefix ++ route.upstreamPath path ++ "/" ∧
        route.pathPrefix = Text.trimEndMatches '/' route.pathPrefix ++ "/" ∧
        ∀ c ∈ (route.upstreamPath path).toList, c = '/' := by
  by_cases hstarts : Text.startsWith route.pathPrefix path = true
  · obtain ⟨n, hn⟩ := exists_slashes route
    obtain ⟨left, rfl⟩ := Text.startsWith_iff.mp hstarts
    rw [stripsSegments_append hn] at h
    rw [upstreamPath_append hstrip]
    generalize Text.trimEndMatches '/' route.pathPrefix = trimmed at hn ⊢
    obtain ⟨rfl, hslash⟩ | ⟨rfl, hends⟩ := h
    · rw [rooted_of_slash hslash, hn, slashes_eq_empty_iff.mpr rfl, String.append_empty]
      exact .inl rfl
    · rw [slashes_eq_slash_iff.mpr rfl] at hn
      by_cases hall : ∀ c ∈ left.toList, c = '/'
      · obtain ⟨hrooted, hbehind⟩ := rooted_of_slashes hall
        rw [hrooted, hn, String.append_assoc, String.append_assoc, hbehind]
        exact .inr ⟨rfl, rfl, hall⟩
      · have hempty : left ≠ "" := by
          rintro rfl
          exact hall (by simp)
        rw [rooted, if_neg (not_or.mpr ⟨hempty, hends.resolve_right hall⟩), hn, String.append_assoc]
        exact .inl rfl
  · have htrimmed : path = Text.trimEndMatches '/' route.pathPrefix := by
      simpa [Route.applies, hstarts] using happlies
    rw [upstreamPath_of_not_startsWith hstrip hstarts, String.append_empty]
    exact .inl htrimmed

/-- **Two paths sent to one path are one, up to a slash**, if one of them ends the prefix with a
segment, exactly if the other does too. -/
theorem upToSlash_iff_of_stripsSegments {path' : String} (hstrip : route.stripPrefix = true)
    (happlies : route.applies path = true) (happlies' : route.applies path' = true)
    (hsent : route.upstreamPath path = route.upstreamPath path')
    (h : route.StripsSegments path) : UpToSlash path path' ↔ route.StripsSegments path' := by
  have heq := h.eq_append hstrip happlies
  rw [hsent] at heq
  constructor
  · intro hsame
    rw [← upToSlash_upstreamPath hstrip happlies']
    obtain hpath | ⟨hpath, hone, hall⟩ := heq
    · rw [hpath] at hsame
      exact hsame.symm
    · obtain rfl | hpath' | hpath' := hsame
      · exact .inr (.inl hpath)
      · rw [hpath, String.append_left_inj] at hpath'
        exact .inl hpath'.symm
      · -- one more slash would be sent upstream
        have hall' : ∀ c ∈ (route.upstreamPath path' ++ "/").toList, c = '/' := by
          rw [String.toList_append]
          exact List.forall_mem_append.mpr ⟨hall, by simp⟩
        have hlonger : path' = route.pathPrefix ++ (route.upstreamPath path' ++ "/") := by
          generalize route.upstreamPath path' = sent at hpath hall
          generalize Text.trimEndMatches '/' route.pathPrefix = trimmed at hpath hone
          rw [String.append_assoc] at hpath
          calc path'
              = trimmed ++ (sent ++ "/") ++ "/" := by rw [hpath', hpath]
            _ = trimmed ++ ("/" ++ sent) ++ "/" := by rw [(rooted_of_slashes hall).2]
            _ = route.pathPrefix ++ (sent ++ "/") := by simp only [hone, String.append_assoc]
        have hsent' := upstreamPath_append hstrip (route.upstreamPath path' ++ "/")
        rw [← hlonger, (rooted_of_slashes hall').1] at hsent'
        simpa using congrArg (fun s => s.toList.length) hsent'
  · intro h'
    obtain hpath | ⟨hpath, -, -⟩ := heq <;>
      obtain hpath' | ⟨hpath', -, -⟩ := h'.eq_append hstrip happlies'
    · exact .inl (hpath.trans hpath'.symm)
    · exact .inr (.inr (hpath'.trans (congrArg (· ++ "/") hpath.symm)))
    · exact .inr (.inl (hpath.trans (congrArg (· ++ "/") hpath'.symm)))
    · exact .inl (hpath.trans hpath'.symm)

end

/-- A route that is found applies to the path, and its path upstream is sent. -/
theorem applies_of_matchRoute {unicode : CaseMap} {matcher : RouteMatcher} {path method : String}
    {route : Route} {upstreamPath : String}
    (h : matcher.matchRoute unicode path method = some (route, upstreamPath)) :
    route.applies path = true ∧ upstreamPath = route.upstreamPath path := by
  obtain ⟨found, hfind, heq⟩ := Option.map_eq_some_iff.mp h
  obtain ⟨rfl, rfl⟩ := Prod.mk.inj heq
  have hfound := List.find?_some hfind
  rw [Bool.and_eq_true] at hfound
  exact ⟨hfound.1, rfl⟩

/-- **What stripping a prefix loses.**  A request path that a route with a stripped prefix is found
for is the prefix without its slashes and the path sent upstream, up to one slash at the end,
exactly if the prefix ends with a segment of it; a path for which it does and another that is sent
to the same path differ by no more than a slash exactly if it does for the other too. -/
theorem upToSlash_strip_iff {unicode : CaseMap} {matcher : RouteMatcher} {path method : String}
    {route : Route} {upstreamPath : String}
    (hmatch : matcher.matchRoute unicode path method = some (route, upstreamPath))
    (hstrip : route.stripPrefix = true) :
    (UpToSlash path (Text.trimEndMatches '/' route.pathPrefix ++ upstreamPath) ↔
      route.StripsSegments path) ∧
    ∀ path' method', matcher.matchRoute unicode path' method' = some (route, upstreamPath) →
      route.StripsSegments path → (UpToSlash path path' ↔ route.StripsSegments path') := by
  obtain ⟨happlies, rfl⟩ := applies_of_matchRoute hmatch
  refine ⟨upToSlash_upstreamPath hstrip happlies, fun path' method' hmatch' h => ?_⟩
  obtain ⟨happlies', hsent⟩ := applies_of_matchRoute hmatch'
  exact upToSlash_iff_of_stripsSegments hstrip happlies happlies' hsent h

/-- A route that strips its prefix. -/
def strippingRoute (pathPrefix : String) : RouteConfig :=
  { RouteConfig.plain "r1" pathPrefix "http://localhost:9001" with stripPrefix := true }

/-- An item behind a prefix without a slash. -/
theorem upToSlash_items :
    UpToSlash "/api/v1/items/42" (Text.trimEndMatches '/' "/api/v1/items" ++ "/42") := by
  have hmatch : RouteMatcher.matchRoute asciiCases "/api/v1/items/42" "GET"
      (.new asciiCases [strippingRoute "/api/v1/items"])
        = some (.ofConfig asciiCases (strippingRoute "/api/v1/items"), "/42") := by
    rw [RouteMatcher.new_singleton]
    rfl
  exact (upToSlash_strip_iff hmatch rfl).1.mpr (.inr ⟨"/42", rfl, .inl ⟨rfl, .inr rfl⟩⟩)

/-- **A prefix that ends inside a segment.**  Another path and one behind the prefix are sent to one
path, though they are not one up to a slash. -/
theorem strip_aliases :
    RouteMatcher.matchRoute asciiCases "/apix" "GET" (.new asciiCases [strippingRoute "/api"])
      = some (.ofConfig asciiCases (strippingRoute "/api"), "/x") ∧
    RouteMatcher.matchRoute asciiCases "/api/x" "GET" (.new asciiCases [strippingRoute "/api"])
      = some (.ofConfig asciiCases (strippingRoute "/api"), "/x") ∧
    ¬ UpToSlash "/apix" (Text.trimEndMatches '/' "/api" ++ "/x") ∧
    ¬ UpToSlash "/apix" "/api/x" := by
  rw [RouteMatcher.new_singleton]
  exact ⟨rfl, rfl, by decide +kernel, by decide +kernel⟩

end PqcGateway
