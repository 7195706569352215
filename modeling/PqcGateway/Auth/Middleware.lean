import PqcGateway.Auth.Gateway

/-!
# Auth/Middleware — which identity headers reach the inner handler

`jwtAuthMiddleware` lets a request through on a public path as it came, and elsewhere after checking
its token, whose claims it writes into three headers (`identityHeaders`).  A claim that is no header
value is not written.  The client cannot forge these headers (`Unforgeable`) exactly where the path
is not public and every claim of an accepted token is written (`unforgeable_iff`).

* `public_path_forged` — on a public path the client names itself.
-/

namespace PqcGateway

/-! ## The middleware -/

/-- `HeaderMap::get`: the first value of the name. -/
def HeaderMap.first (headers : HeaderMap) (name : String) : Option String :=
  (headers.get name).bind List.head?

/-- `HeaderValue::to_str`: visible ASCII characters and tabs. -/
def headerToStr (value : String) : Option String :=
  if value.toList.all fun c => (' ' ≤ c ∧ c ≤ '~') ∨ c = '\t' then some value else none

theorem headerToStr_eq_some {value text : String} (h : headerToStr value = some text) :
    value = text := by
  rw [headerToStr] at h
  split_ifs at h
  exact Option.some.inj h

/-- Shared auth state injected into the middleware. -/
structure AuthState where
  keyManager : VersionedKeyManager
  issuer : String
  audience : String
  publicPaths : List String

/-- The path starts with a public one. -/
def AuthState.isPublicPath (auth : AuthState) (path : String) : Bool :=
  auth.publicPaths.any fun p => Text.startsWith p path

/-- What the middleware reads and writes of a request. -/
structure AuthRequest where
  path : String
  headers : HeaderMap

/-- What becomes of the request. -/
inductive AuthOutcome
  | next (req : AuthRequest)
  | rejected (error : JwtError)

/-- The token of the `Authorization` header. -/
def AuthRequest.bearerToken (req : AuthRequest) : Option String :=
  ((req.headers.first "authorization").bind headerToStr).bind (Text.stripPrefix "Bearer ")

section

variable (C : GatewayCrates)

/-- Write the claims into the headers, but for those that are no header values. -/
def setIdentity (claims : JwtClaims) (headers : HeaderMap) : HeaderMap :=
  let headers := setHeader C.isHeaderValue "x-auth-subject" claims.sub headers
  let headers := setHeader C.isHeaderValue "x-auth-roles" (",".intercalate claims.roles) headers
  setHeader C.isHeaderValue "x-auth-kid" claims.kid headers

/-- Validate JWT tokens on protected routes, `now` seconds on the clock. -/
def jwtAuthMiddleware (auth : AuthState) (now : ℕ) (req : AuthRequest) : AuthOutcome :=
  if auth.isPublicPath req.path then .next req
  else match req.bearerToken with
    | none => .rejected .missingToken
    | some token =>
      match verifyJwt C.mlDsa C.jwt auth.keyManager token auth.issuer auth.audience now with
      | .ok claims => .next { req with headers := setIdentity C claims req.headers }
      | .error e => .rejected e

/-! ## Who the handler is told the caller is

A forgery would be two requests that differ in the identity headers only, and that the handler is
told different callers of. -/

/-- The headers that name the caller. -/
def identityHeaders : List String := ["x-auth-subject", "x-auth-roles", "x-auth-kid"]

/-- The claims the middleware verified, if it verified any. -/
def verifiedClaims (auth : AuthState) (now : ℕ) (req : AuthRequest) : Option JwtClaims :=
  if auth.isPublicPath req.path then none
  else req.bearerToken.bind fun token =>
    (verifyJwt C.mlDsa C.jwt auth.keyManager token auth.issuer auth.audience now).toOption

/-- The claim that an identity header is for. -/
def claimOf (claims : JwtClaims) (name : String) : String :=
  if name = "x-auth-subject" then claims.sub
  else if name = "x-auth-roles" then ",".intercalate claims.roles
  else claims.kid

/-- What verified claims, or their absence, make of an identity header. -/
def claimedHeader : Option JwtClaims → String → Option (List String)
  | none, _ => none
  | some claims, name =>
    if C.isHeaderValue (claimOf claims name) then some [claimOf claims name] else none

/-- The requests differ at most in the identity headers. -/
structure SameButIdentity (a b : AuthRequest) : Prop where
  path : a.path = b.path
  headers : ∀ name ∉ identityHeaders, a.headers.get name = b.headers.get name

/-- **The client cannot forge an identity**: requests that differ from `req` only in their identity
headers reach the handler with the same ones, which are those of the verified claims. -/
structure Unforgeable (auth : AuthState) (now : ℕ) (req : AuthRequest) : Prop where
  same : ∀ a b a' b', SameButIdentity req a → SameButIdentity req b →
    jwtAuthMiddleware C auth now a = .next a' → jwtAuthMiddleware C auth now b = .next b' →
    ∀ name ∈ identityHeaders, a'.headers.get name = b'.headers.get name
  from_claims : ∀ a a', SameButIdentity req a → jwtAuthMiddleware C auth now a = .next a' →
    ∀ name ∈ identityHeaders,
      a'.headers.get name = claimedHeader C (verifiedClaims C auth now req) name

end

section

variable {C : GatewayCrates} {auth : AuthState} {now : ℕ} {req a a' : AuthRequest}
  {claims : JwtClaims} {name : String}

/-- **A claim that is a header value overwrites** what the client sent; another leaves it. -/
theorem get_setIdentity (headers : HeaderMap) (hname : name ∈ identityHeaders) :
    (setIdentity C claims headers).get name
      = if C.isHeaderValue (claimOf claims name) then some [claimOf claims name]
        else headers.get name := by
  simp only [identityHeaders, List.mem_cons, List.not_mem_nil, or_false] at hname
  rcases hname with rfl | rfl | rfl <;> simp [setIdentity, get_setHeader, claimOf]

theorem SameButIdentity.symm {b : AuthRequest} (h : SameButIdentity a b) : SameButIdentity b a :=
  ⟨h.path.symm, fun name hname => (h.headers name hname).symm⟩

/-- The token is not among the identity headers. -/
theorem SameButIdentity.bearerToken (h : SameButIdentity req a) :
    a.bearerToken = req.bearerToken := by
  have hget := h.headers "authorization" (by decide)
  rw [AuthRequest.bearerToken, AuthRequest.bearerToken, HeaderMap.first, HeaderMap.first, hget]

theorem SameButIdentity.verifiedClaims (h : SameButIdentity req a) :
    verifiedClaims C auth now a = verifiedClaims C auth now req := by
  rw [PqcGateway.verifiedClaims, PqcGateway.verifiedClaims, h.bearerToken, h.path]

theorem middleware_of_public (hpublic : auth.isPublicPath req.path = true) :
    jwtAuthMiddleware C auth now req = .next req := if_pos hpublic

/-- **On a private path** a request is passed on exactly with verified claims, written into it. -/
theorem middleware_eq_next (hprivate : ¬ auth.isPublicPath req.path = true) :
    jwtAuthMiddleware C auth now req = .next a' ↔
      ∃ claims, verifiedClaims C auth now req = some claims ∧
        a' = { req with headers := setIdentity C claims req.headers } := by
  rw [jwtAuthMiddleware, if_neg hprivate, verifiedClaims, if_neg hprivate]
  cases req.bearerToken with
  | none => simp
  | some token =>
    simp only [Option.bind_some]
    cases verifyJwt C.mlDsa C.jwt auth.keyManager token auth.issuer auth.audience now <;>
      simp [Except.toOption, eq_comm]

/-- The request with this value of a header. -/
def AuthRequest.withHeader (req : AuthRequest) (name value : String) : AuthRequest :=
  { req with headers := req.headers.insert name [value] }

theorem sameButIdentity_withHeader (hname : name ∈ identityHeaders) (value : String) :
    SameButIdentity req (req.withHeader name value) where
  path := rfl
  headers name' hname' := by
    have hne : name' ≠ name := fun h => hname' (h ▸ hname)
    exact (EntryMap.get_insert_of_ne _ hne _).symm

/-- **A header that is passed on as it came is forged.** -/
theorem not_unforgeable_of_kept (hname : name ∈ identityHeaders)
    (hkept : ∀ a, SameButIdentity req a →
      ∃ a', jwtAuthMiddleware C auth now a = .next a' ∧
        a'.headers.get name = a.headers.get name) :
    ¬ Unforgeable C auth now req := by
  intro h
  obtain ⟨a, ha, hgeta⟩ := hkept _ (sameButIdentity_withHeader hname "alice")
  obtain ⟨b, hb, hgetb⟩ := hkept _ (sameButIdentity_withHeader hname "mallory")
  have hsame := h.same _ _ a b (sameButIdentity_withHeader hname "alice")
    (sameButIdentity_withHeader hname "mallory") ha hb name hname
  rw [hgeta, hgetb, AuthRequest.withHeader, AuthRequest.withHeader, EntryMap.get_insert_self,
    EntryMap.get_insert_self] at hsame
  exact absurd hsame (by decide)

/-- What reaches the handler on a private path is written from the claims. -/
theorem get_of_next (hprivate : ¬ auth.isPublicPath req.path = true)
    (hvalues : ∀ claims, verifiedClaims C auth now req = some claims →
      ∀ name ∈ identityHeaders, C.isHeaderValue (claimOf claims name) = true)
    (ha : SameButIdentity req a) (hnext : jwtAuthMiddleware C auth now a = .next a')
    (hname : name ∈ identityHeaders) :
    a'.headers.get name = claimedHeader C (verifiedClaims C auth now req) name := by
  obtain ⟨claims, hclaims, rfl⟩ := (middleware_eq_next (ha.path ▸ hprivate)).mp hnext
  rw [ha.verifiedClaims] at hclaims
  have hvalue := hvalues claims hclaims name hname
  rw [get_setIdentity _ hname, if_pos hvalue, hclaims, claimedHeader, if_pos hvalue]

/-- **The identity headers cannot be forged** exactly where the path is not public and the claims of
an accepted token are header values. -/
theorem unforgeable_iff (C : GatewayCrates) (auth : AuthState) (now : ℕ) (req : AuthRequest) :
    Unforgeable C auth now req ↔
      auth.isPublicPath req.path = false ∧
        ∀ claims, verifiedClaims C auth now req = some claims →
          ∀ name ∈ identityHeaders, C.isHeaderValue (claimOf claims name) = true := by
  rw [← Bool.not_eq_true]
  constructor
  · intro h
    have hprivate : ¬ auth.isPublicPath req.path = true := by
      intro hpublic
      have hsubject : "x-auth-subject" ∈ identityHeaders := by decide
      refine not_unforgeable_of_kept hsubject (fun a ha => ?_) h
      exact ⟨a, middleware_of_public (ha.path ▸ hpublic), rfl⟩
    refine ⟨hprivate, fun claims hclaims name hname => ?_⟩
    by_contra hvalue
    refine not_unforgeable_of_kept hname (fun a ha => ?_) h
    have hverified : verifiedClaims C auth now a = some claims := ha.verifiedClaims.trans hclaims
    refine ⟨_, (middleware_eq_next (ha.path ▸ hprivate)).mpr ⟨claims, hverified, rfl⟩, ?_⟩
    rw [get_setIdentity _ hname, if_neg hvalue]
  · rintro ⟨hprivate, hvalues⟩
    have hget : ∀ a a', SameButIdentity req a → jwtAuthMiddleware C auth now a = .next a' →
        ∀ name ∈ identityHeaders,
          a'.headers.get name = claimedHeader C (verifiedClaims C auth now req) name :=
      fun a a' ha hnext name hname => get_of_next hprivate hvalues ha hnext hname
    refine ⟨fun a b a' b' ha hb hnext hnext' name hname => ?_, hget⟩
    rw [hget a a' ha hnext name hname, hget b b' hb hnext' name hname]

end

/-! ## A forged identity -/

/-- Nobody signed in, and a client that says who it is. -/
def forgedRequest : AuthRequest where
  path := "/health"
  headers := EntryMap.new.insert "x-auth-subject" ["mallory"]

/-- **On a public path the client names itself**, and the handler is told so. -/
theorem public_path_forged :
    ∃ mgr, VersionedKeyManager.new plainDsa headDigest 5 plainDraw.toKeyDraw = .ok mgr ∧
      let C : GatewayCrates := .plain fun _ => true
      let auth : AuthState := ⟨mgr, "gateway", "clients", ["/health"]⟩
      jwtAuthMiddleware C auth 0 forgedRequest = .next forgedRequest ∧
        forgedRequest.headers.get "x-auth-subject" = some ["mallory"] ∧
        verifiedClaims C auth 0 forgedRequest = none ∧ ¬ Unforgeable C auth 0 forgedRequest := by
  obtain ⟨mgr, -, hnew, -⟩ := new_tracks plainDsa headDigest 5 plainDraw.toKeyDraw
  have hget : forgedRequest.headers.get "x-auth-subject" = some ["mallory"] :=
    EntryMap.get_insert_self _ _ _
  refine ⟨mgr, hnew, rfl, hget, rfl, fun h => ?_⟩
  have hclaimed := h.from_claims forgedRequest forgedRequest ⟨rfl, fun _ _ => rfl⟩ rfl
    "x-auth-subject" (by decide)
  rw [hget] at hclaimed
  cases hclaimed

end PqcGateway
