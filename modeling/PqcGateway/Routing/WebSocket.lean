import PqcGateway.Routing.LongestPrefix

/-!
# Routing/WebSocket — where a WebSocket is tunnelled to

`buildUpstreamWsUrl` changes the scheme of the upstream and appends the path as `matchRoute`
rewrites it, but for the slash that `matchRoute` puts in front of what a prefix leaves.  Without it
what is left is put right behind the authority and becomes part of it.  `sameTarget_iff` says when
the two agree.

* `sameTarget_chat` — a room behind a prefix without a slash at its end, and the two agree.
* `host_from_path` — behind a prefix with that slash, the client's path names the host.
-/

namespace PqcGateway

/-- The upstream with the scheme of a WebSocket. -/
def wsBase (base : String) : String :=
  -- Convert http:// to ws:// for the upstream connection
  if Text.startsWith "http://" base then Text.replace "http://" "ws://" base
  else if Text.startsWith "https://" base then Text.replace "https://" "wss://" base
  else "ws://" ++ base

/-- What is put behind the upstream. -/
def Route.wsSuffix (requestPath : String) (route : Route) : String :=
  if route.stripPrefix then (Text.stripPrefix route.pathPrefix requestPath).getD ""
  else requestPath

/-- Build the upstream WebSocket URL from a route and request path. -/
def buildUpstreamWsUrl (route : Route) (requestPath : String) : String :=
  wsBase route.upstream ++ route.wsSuffix requestPath

/-! ## The target

The scheme of the upstream is the one thing that may change, and the path is to start where the
authority ends. -/

/-- The schemes an upstream starts with, and what a WebSocket has for them. -/
def wsSchemes : List (String × String) := [("http://", "ws://"), ("https://", "wss://")]

/-- The URL is the upstream with only its scheme changed, and the path sent upstream; its authority
is the upstream's. -/
def SameTarget (route : Route) (path upstreamPath wsScheme rest : String) : Prop :=
  buildUpstreamWsUrl route path = wsScheme ++ rest ++ upstreamPath ∧
    authority (buildUpstreamWsUrl route path) = authority route.upstream

/-- The upstream has its scheme once; behind a prefix that is stripped there is nothing or a slash;
and a path that is not stripped is empty or starts with a character that ends an authority, unless
the upstream has one itself. -/
structure JoinsUpstream (scheme rest path : String) (route : Route) : Prop where
  scheme_once : ¬ scheme.toList <:+: rest.toList
  stripped : route.stripPrefix = true → ∀ left,
    Text.stripPrefix route.pathPrefix path = some left →
      left = "" ∨ Text.startsWith "/" left = true
  whole : route.stripPrefix = false → (∃ c ∈ rest.toList, endsAuthority c = true) ∨
    path = "" ∨ ∃ c ∈ path.toList.head?, endsAuthority c = true

section

variable {scheme wsScheme rest path : String} {route : Route}

theorem wsSchemes_cases (h : (scheme, wsScheme) ∈ wsSchemes) :
    scheme = "http://" ∧ wsScheme = "ws://" ∨ scheme = "https://" ∧ wsScheme = "wss://" := by
  simpa [wsSchemes] using h

theorem afterScheme_of_mem (h : (scheme, wsScheme) ∈ wsSchemes) (cs : List Char) :
    afterScheme (scheme.toList ++ cs) = some cs ∧
      afterScheme (wsScheme.toList ++ cs) = some cs := by
  obtain ⟨rfl, rfl⟩ | ⟨rfl, rfl⟩ := wsSchemes_cases h
  · exact ⟨rfl, rfl⟩
  · exact ⟨rfl, rfl⟩

theorem length_wsScheme_lt (h : (scheme, wsScheme) ∈ wsSchemes) :
    wsScheme.toList.length < scheme.toList.length := by
  obtain ⟨rfl, rfl⟩ | ⟨rfl, rfl⟩ := wsSchemes_cases h
  · decide
  · decide

/-- The scheme is changed, and every further copy of its text. -/
theorem toList_wsBase (h : (scheme, wsScheme) ∈ wsSchemes) (rest : String) :
    (wsBase (scheme ++ rest)).toList
      = wsScheme.toList ++ Text.replaceFrom scheme.toList wsScheme.toList 0 rest.toList := by
  have hreplace : (Text.replace scheme wsScheme (scheme ++ rest)).toList
      = wsScheme.toList ++ Text.replaceFrom scheme.toList wsScheme.toList 0 rest.toList := by
    have hne : scheme.toList ≠ [] := by
      intro hnil
      have hlt := length_wsScheme_lt h
      rw [hnil] at hlt
      cases hlt
    rw [Text.replace, String.toList_ofList, String.toList_append, Text.replaceFrom_append hne]
  rw [← hreplace]
  obtain ⟨rfl, rfl⟩ | ⟨rfl, rfl⟩ := wsSchemes_cases h
  · have hstarts : Text.startsWith "http://" ("http://" ++ rest) = true := by
      rw [Text.startsWith, String.toList_append]
      rfl
    rw [wsBase, if_pos hstarts]
  · have hother : ¬ Text.startsWith "http://" ("https://" ++ rest) = true := by
      rw [Text.startsWith, String.toList_append]
      exact Bool.false_ne_true
    have hstarts : Text.startsWith "https://" ("https://" ++ rest) = true := by
      rw [Text.startsWith, String.toList_append]
      rfl
    rw [wsBase, if_neg hother, if_pos hstarts]

/-- What is put behind the upstream is what is sent upstream, but for a slash in front. -/
theorem wsSuffix_eq_iff : route.wsSuffix path = route.upstreamPath path ↔
    (route.stripPrefix = true → ∀ left, Text.stripPrefix route.pathPrefix path = some left →
      left = "" ∨ Text.startsWith "/" left = true) := by
  rw [Route.wsSuffix, Route.upstreamPath]
  by_cases hstrip : route.stripPrefix = true
  · rw [if_pos hstrip, if_pos hstrip, forall_prop_of_true hstrip]
    rcases Text.stripPrefix route.pathPrefix path with _ | left
    · exact iff_of_true rfl fun _ h => absurd h.symm (Option.some_ne_none _)
    · simp only [Option.getD_some, Option.some.injEq, forall_eq']
      by_cases hslash : left = "" ∨ Text.startsWith "/" left = true
      · exact iff_of_true (if_pos hslash).symm hslash
      · rw [if_neg hslash]
        refine iff_of_false (fun h => ?_) hslash
        simpa using congrArg (fun s => s.toList.length) h
  · rw [if_neg hstrip, if_neg hstrip]
    exact iff_of_true rfl fun h => absurd h hstrip

theorem length_wsSuffix_le (path : String) (route : Route) :
    (route.wsSuffix path).toList.length ≤ (route.upstreamPath path).toList.length := by
  have hcases : route.upstreamPath path = route.wsSuffix path ∨
      route.upstreamPath path = "/" ++ route.wsSuffix path := by
    rw [Route.wsSuffix, Route.upstreamPath]
    by_cases hstrip : route.stripPrefix = true
    · rw [if_pos hstrip, if_pos hstrip]
      exact ite_eq_or_eq _ _ _
    · exact .inl (by rw [if_neg hstrip, if_neg hstrip])
  obtain heq | heq := hcases
  · rw [heq]
  · rw [heq, String.toList_append, List.length_append]
    exact Nat.le_add_left _ _

/-- **The URL is the upstream and the path** exactly when the upstream has its scheme once and no
slash is missing: a further copy of the scheme makes the URL shorter, and so does a missing
slash. -/
theorem buildUpstreamWsUrl_eq_iff (h : (scheme, wsScheme) ∈ wsSchemes)
    (hupstream : route.upstream = scheme ++ rest) :
    buildUpstreamWsUrl route path = wsScheme ++ rest ++ route.upstreamPath path ↔
      ¬ scheme.toList <:+: rest.toList ∧ route.wsSuffix path = route.upstreamPath path := by
  have hlists : buildUpstreamWsUrl route path = wsScheme ++ rest ++ route.upstreamPath path ↔
      Text.replaceFrom scheme.toList wsScheme.toList 0 rest.toList ++ (route.wsSuffix path).toList
        = rest.toList ++ (route.upstreamPath path).toList := by
    rw [buildUpstreamWsUrl, hupstream, ← String.toList_inj, String.toList_append,
      toList_wsBase h, String.toList_append, String.toList_append, List.append_assoc,
      List.append_assoc, List.append_cancel_left_eq]
  rw [hlists]
  constructor
  · intro heq
    have hlength := congrArg List.length heq
    rw [List.length_append, List.length_append] at hlength
    have hsuffix := length_wsSuffix_le path route
    have honce : ¬ scheme.toList <:+: rest.toList := fun hcopy => by
      have hlt := Text.length_replaceFrom_lt (length_wsScheme_lt h) hcopy
      omega
    rw [Text.replaceFrom_of_not_infix honce] at heq
    exact ⟨honce, String.toList_inj.mp (List.append_cancel_left heq)⟩
  · rintro ⟨honce, hsuffix⟩
    rw [Text.replaceFrom_of_not_infix honce, hsuffix]

/-- Taking characters stops in the first part, or at once in the second. -/
theorem takeWhile_append_eq_iff {α : Type} {p : α → Bool} {l l' : List α} :
    (l ++ l').takeWhile p = l.takeWhile p ↔ (∃ a ∈ l, p a = false) ∨ l'.takeWhile p = [] := by
  induction l with
  | nil => simp
  | cons a l ih =>
    by_cases ha : p a = true
    · simp [ha, ih]
    · simp [ha]

/-- The path ends the authority if it is not to become part of it. -/
theorem takeWhile_authority_eq_nil {path : String} :
    path.toList.takeWhile (fun c => !endsAuthority c) = [] ↔
      path = "" ∨ ∃ c ∈ path.toList.head?, endsAuthority c = true := by
  rw [← String.toList_eq_nil_iff]
  rcases path.toList with _ | ⟨c, cs⟩
  · simp
  · by_cases hc : endsAuthority c = true
    · simp [hc]
    · simp [hc]

/-- The authority is the upstream's unless the path becomes part of it. -/
theorem authority_eq_iff (h : (scheme, wsScheme) ∈ wsSchemes) (rest path : String) :
    authority (wsScheme ++ rest ++ path) = authority (scheme ++ rest) ↔
      (∃ c ∈ rest.toList, endsAuthority c = true) ∨
        path = "" ∨ ∃ c ∈ path.toList.head?, endsAuthority c = true := by
  have hafter := afterScheme_of_mem h
  rw [authority, authority, String.toList_append, String.toList_append, String.toList_append,
    List.append_assoc, (hafter _).1, (hafter _).2, Option.map_some, Option.map_some,
    Option.some.injEq, String.ofList_inj, takeWhile_append_eq_iff, takeWhile_authority_eq_nil]
  simp only [Bool.not_eq_false']

/-- **WebSocket and HTTP forwarding agree** exactly when the upstream has its scheme once, no slash
is missing behind a stripped prefix, and a path that is not stripped cannot run on the authority. -/
theorem sameTarget_iff {unicode : CaseMap} {matcher : RouteMatcher} {method upstreamPath : String}
    (hmatch : matcher.matchRoute unicode path method = some (route, upstreamPath))
    (h : (scheme, wsScheme) ∈ wsSchemes) (hupstream : route.upstream = scheme ++ rest) :
    SameTarget route path upstreamPath wsScheme rest ↔ JoinsUpstream scheme rest path route := by
  obtain ⟨route, -, heq⟩ := Option.map_eq_some_iff.mp hmatch
  obtain ⟨rfl, rfl⟩ := Prod.mk.inj heq
  rw [SameTarget, buildUpstreamWsUrl_eq_iff h hupstream, wsSuffix_eq_iff]
  constructor
  · rintro ⟨⟨honce, hstripped⟩, hauthority⟩
    refine ⟨honce, hstripped, fun hstrip => ?_⟩
    rw [(buildUpstreamWsUrl_eq_iff h hupstream).mpr ⟨honce, wsSuffix_eq_iff.mpr hstripped⟩,
      hupstream, authority_eq_iff h, Route.upstreamPath, if_neg (by simp [hstrip])] at hauthority
    exact hauthority
  · rintro ⟨honce, hstripped, hwhole⟩
    refine ⟨⟨honce, hstripped⟩, ?_⟩
    have hsuffix := wsSuffix_eq_iff.mpr hstripped
    rw [(buildUpstreamWsUrl_eq_iff h hupstream).mpr ⟨honce, hsuffix⟩, hupstream,
      authority_eq_iff h, ← hsuffix, Route.wsSuffix]
    by_cases hstrip : route.stripPrefix = true
    · rw [if_pos hstrip]
      rcases hleft : Text.stripPrefix route.pathPrefix path with _ | left
      · exact .inr (.inl rfl)
      · refine .inr ((hstripped hstrip left hleft).imp_right fun hslash => ⟨'/', ?_, rfl⟩)
        obtain ⟨cs, hcs⟩ := List.isPrefixOf_iff_prefix.mp hslash
        rw [Option.getD_some, ← hcs]
        rfl
    · rw [if_neg hstrip]
      exact hwhole (Bool.eq_false_of_not_eq_true hstrip)

end

/-- A route to a tunnel, at a prefix that is stripped with its slash. -/
def tunnelRoute (pathPrefix : String) : Route where
  id := "ws-chat"
  pathPrefix
  upstreams := ["http://127.0.0.1:9001"]
  upstream := "http://127.0.0.1:9001"
  stripPrefix := true
  methods := ["GET"]
  timeoutMs := 30000
  signatureMode := none
  rateLimit := none
  maxRequestBodyBytes := none
  upstreamTls := false

/-- A room of a chat, behind a prefix without a slash. -/
theorem sameTarget_chat :
    SameTarget (tunnelRoute "/ws") "/ws/chat/room1" "/chat/room1" "ws://" "127.0.0.1:9001" := by
  have hmatch : RouteMatcher.matchRoute asciiCases "/ws/chat/room1" "GET" ⟨[tunnelRoute "/ws"]⟩
      = some (tunnelRoute "/ws", "/chat/room1") := rfl
  refine (sameTarget_iff hmatch List.mem_cons_self rfl).mpr ⟨fun hcopy => ?_, ?_, ?_⟩
  · have hslash : '/' ∈ "127.0.0.1:9001".toList := hcopy.subset (by decide)
    exact absurd hslash (by decide)
  · rintro - left hleft
    have hroom : Text.stripPrefix "/ws" "/ws/chat/room1" = some "/chat/room1" := rfl
    obtain rfl := Option.some.inj (hroom.symm.trans hleft)
    exact .inr (by decide)
  · rintro ⟨⟩

/-- **A missing slash.**  Behind a prefix with a slash, what the client asks for is put right behind
the port: the authority names the upstream as a user, and the client's host. -/
theorem host_from_path :
    RouteMatcher.matchRoute asciiCases "/ws/@evil.com/x" "GET" ⟨[tunnelRoute "/ws/"]⟩
      = some (tunnelRoute "/ws/", "/@evil.com/x") ∧
    buildUpstreamWsUrl (tunnelRoute "/ws/") "/ws/@evil.com/x" = "ws://127.0.0.1:9001@evil.com/x" ∧
    authority "ws://127.0.0.1:9001@evil.com/x" = some "127.0.0.1:9001@evil.com" ∧
    ¬ SameTarget (tunnelRoute "/ws/") "/ws/@evil.com/x" "/@evil.com/x" "ws://"
      "127.0.0.1:9001" := by
  refine ⟨rfl, rfl, rfl, fun h => ?_⟩
  exact absurd (congrArg (fun s => s.toList.length) h.1) (by decide)

end PqcGateway
