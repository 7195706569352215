import PqcGateway.Auth.Middleware

/-!
# Auth/PublicPaths — a public path exempts whatever starts with its text

`isPublicPath` compares texts, so `"/health"` lets `"/healthz"` through as well.  Only the public
paths and what lies under them are exempt (`ExemptsOnlyUnder`) exactly where each public path lies
under a public path itself, as one that ends with a slash lies under itself
(`exemptsOnlyUnder_iff`).

* `healthz_exempt` — with `/health` public, `/healthz` asks for no token.
-/

namespace PqcGateway

/-- The path continues `p` with a slash, or starts with `p`, which ends with one. -/
def Under (p path : String) : Prop :=
  (p ++ "/").toList <+: path.toList ∨ p.toList.getLast? = some '/' ∧ p.toList <+: path.toList

/-- **Nothing but the public paths and what lies under them** is let through without verified
claims. -/
def ExemptsOnlyUnder (C : GatewayCrates) (auth : AuthState) : Prop :=
  ∀ now req req', jwtAuthMiddleware C auth now req = .next req' →
    verifiedClaims C auth now req = none →
    ∃ p ∈ auth.publicPaths, req.path = p ∨ Under p req.path

section

variable {C : GatewayCrates} {auth : AuthState} {now : ℕ} {req : AuthRequest} {p q path : String}

theorem isPublicPath_iff :
    auth.isPublicPath path = true ↔ ∃ p ∈ auth.publicPaths, p.toList <+: path.toList := by
  simp only [AuthState.isPublicPath, List.any_eq_true, Text.startsWith, List.isPrefixOf_iff_prefix]

/-- **The handler runs without verified claims** on the public paths. -/
theorem exists_next_unverified_iff :
    (∃ req', jwtAuthMiddleware C auth now req = .next req' ∧ verifiedClaims C auth now req = none)
      ↔ auth.isPublicPath req.path = true := by
  constructor
  · rintro ⟨req', hnext, hnone⟩
    by_contra hprivate
    obtain ⟨claims, hclaims, -⟩ := (middleware_eq_next hprivate).mp hnext
    rw [hnone] at hclaims
    cases hclaims
  · intro hpublic
    exact ⟨req, middleware_of_public hpublic, if_pos hpublic⟩

theorem exemptsOnlyUnder_iff_paths :
    ExemptsOnlyUnder C auth ↔ ∀ path, auth.isPublicPath path = true →
      ∃ p ∈ auth.publicPaths, path = p ∨ Under p path := by
  constructor
  · intro h path hpublic
    let req : AuthRequest := ⟨path, EntryMap.new⟩
    have hunverified : ∃ req', jwtAuthMiddleware C auth 0 req = .next req' ∧
        verifiedClaims C auth 0 req = none := exists_next_unverified_iff.mpr hpublic
    obtain ⟨req', hnext, hnone⟩ := hunverified
    exact h 0 req req' hnext hnone
  · intro h now req req' hnext hnone
    exact h req.path (exists_next_unverified_iff.mp ⟨req', hnext, hnone⟩)

theorem Under.trans_prefix (h : Under q p) (hpath : p.toList <+: path.toList) : Under q path := by
  obtain hcontinues | ⟨hslash, hstarts⟩ := h
  · exact .inl (hcontinues.trans hpath)
  · exact .inr ⟨hslash, hstarts.trans hpath⟩

/-- **A slash is not among other characters**: a text that ends with one and starts `as` with copies
of another character behind it starts `as`. -/
theorem prefix_of_prefix_append_replicate {dir as : List Char} {c : Char} {n : ℕ} (hc : c ≠ '/')
    (hslash : dir.getLast? = some '/') (h : dir <+: as ++ List.replicate n c) : dir <+: as := by
  obtain hle | hlt := le_or_gt dir.length as.length
  · exact List.prefix_of_prefix_length_le h (List.prefix_append _ _) hle
  · obtain ⟨bs, rfl⟩ := List.prefix_of_prefix_length_le (List.prefix_append as _) h hlt.le
    have hbs : bs <+: List.replicate n c := (List.prefix_append_right_inj as).mp h
    have hne : bs ≠ [] := by
      rintro rfl
      simp at hlt
    rw [List.getLast?_append_of_ne_nil _ hne] at hslash
    have hmem : '/' ∈ List.replicate n c := hbs.subset (List.mem_of_getLast? hslash)
    exact absurd (List.eq_of_mem_replicate hmem).symm hc

/-- A path that starts with `p` and is longer than every public path. -/
def overlong (auth : AuthState) (p : String) : String :=
  p ++ String.ofList (List.replicate ((auth.publicPaths.map String.length).sum + 1) 'x')

theorem toList_overlong : (overlong auth p).toList
    = p.toList ++ List.replicate ((auth.publicPaths.map String.length).sum + 1) 'x' := by
  rw [overlong, String.toList_append, String.toList_ofList]

theorem overlong_ne (hq : q ∈ auth.publicPaths) : overlong auth p ≠ q := by
  intro h
  have hle : q.length ≤ (auth.publicPaths.map String.length).sum :=
    List.le_sum_of_mem (List.mem_map_of_mem hq)
  have hlen := congrArg List.length (@toList_overlong auth p)
  rw [h, List.length_append, List.length_replicate, String.length_toList] at hlen
  omega

theorem under_of_under_overlong (h : Under q (overlong auth p)) : Under q p := by
  have hx : 'x' ≠ '/' := by decide
  rw [Under, toList_overlong] at h
  obtain hcontinues | ⟨hslash, hstarts⟩ := h
  · have hslash : (q ++ "/").toList.getLast? = some '/' := by simp
    exact .inl (prefix_of_prefix_append_replicate hx hslash hcontinues)
  · exact .inr ⟨hslash, prefix_of_prefix_append_replicate hx hslash hstarts⟩

/-- **Only what lies under the public paths is exempt** exactly where each of them lies under one of
them. -/
theorem exemptsOnlyUnder_iff (C : GatewayCrates) (auth : AuthState) :
    ExemptsOnlyUnder C auth ↔ ∀ p ∈ auth.publicPaths, ∃ q ∈ auth.publicPaths, Under q p := by
  rw [exemptsOnlyUnder_iff_paths]
  constructor
  · intro h p hp
    have hpublic : auth.isPublicPath (overlong auth p) = true :=
      isPublicPath_iff.mpr ⟨p, hp, toList_overlong ▸ List.prefix_append _ _⟩
    obtain ⟨q, hq, heq | hunder⟩ := h _ hpublic
    · exact absurd heq (overlong_ne hq)
    · exact ⟨q, hq, under_of_under_overlong hunder⟩
  · intro h path hpublic
    obtain ⟨p, hp, hprefix⟩ := isPublicPath_iff.mp hpublic
    obtain ⟨q, hq, hunder⟩ := h p hp
    exact ⟨q, hq, .inr (hunder.trans_prefix hprefix)⟩

end

/-- **The default public paths exempt more than themselves**: `"/healthz"` needs no token. -/
theorem healthz_exempt :
    ∃ mgr, VersionedKeyManager.new plainDsa headDigest 5 plainDraw.toKeyDraw = .ok mgr ∧
      let C : GatewayCrates := .plain fun _ => true
      let auth : AuthState := ⟨mgr, "pqc-gateway", "pqc-gateway-api", ["/health", "/.well-known/"]⟩
      let req : AuthRequest := ⟨"/healthz", EntryMap.new⟩
      jwtAuthMiddleware C auth 0 req = .next req ∧ verifiedClaims C auth 0 req = none ∧
        ¬ ExemptsOnlyUnder C auth := by
  obtain ⟨mgr, -, hnew, -⟩ := new_tracks plainDsa headDigest 5 plainDraw.toKeyDraw
  refine ⟨mgr, hnew, rfl, rfl, fun h => ?_⟩
  obtain ⟨p, hp, hcovers⟩ := h 0 ⟨"/healthz", EntryMap.new⟩ _ rfl rfl
  simp only [List.mem_cons, List.not_mem_nil, or_false] at hp
  obtain rfl | rfl := hp <;> simp [Under] at hcovers

end PqcGateway
