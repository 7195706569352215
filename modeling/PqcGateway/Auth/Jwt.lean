import PqcGateway.Crypto.Base64
import PqcGateway.Keys.Manager
import Mathlib.Data.Nat.Digits.Defs
import Mathlib.Logic.Equiv.List

/-!
# Auth/Jwt — tokens signed with the versioned keys

`create_jwt` takes the manager's lock twice: for the kid it writes into the header, and to sign.
It is cut between the two, into `draftJwt` and `JwtDraft.sign`, so that other calls can fall there.
`verify_jwt` is cut where it stops parsing (`readToken`).

* `readToken_eq_some`, `readToken_token` — what reads as a token, and that an issued one does.
* `verifyJwt_eq_ok` — what an accepted token passed.
* `verifyJwt_token` — an issued token is verified as what it was issued as.
-/

namespace PqcGateway

/-! ## Tokens -/

/-- JWT Header. -/
structure JwtHeader where
  alg : String
  typ : String
  kid : String
deriving DecidableEq, Repr

/-- JWT claims payload. -/
structure JwtClaims where
  sub : String
  iss : String
  aud : String
  exp : ℕ
  iat : ℕ
  jti : String
  roles : List String
  kid : String
  alg : String
deriving DecidableEq, Repr

/-- JWT validation errors. -/
inductive JwtError
  | malformedToken
  | unsupportedAlgorithm (alg : String)
  | invalidSignature
  | expired
  | invalidIssuer
  | invalidAudience
  | missingToken
deriving DecidableEq, Repr

/-- What a token is encoded with: unpadded URL-safe base64, and `serde_json`. -/
structure JwtCodec where
  b64url : Base64
  headerToVec : JwtHeader → Option (List UInt8)
  headerFromSlice : List UInt8 → Option JwtHeader
  claimsToVec : JwtClaims → Option (List UInt8)
  claimsFromSlice : List UInt8 → Option JwtClaims

/-- What was encoded decodes. -/
structure JwtCodec.Lawful (J : JwtCodec) : Prop where
  b64url : J.b64url.Lawful
  headerFromSlice_of_toVec : ∀ header bytes, J.headerToVec header = some bytes →
    J.headerFromSlice bytes = some header
  claimsFromSlice_of_toVec : ∀ claims bytes, J.claimsToVec claims = some bytes →
    J.claimsFromSlice bytes = some claims

variable {J : JwtCodec}

/-! ## Issuing -/

/-- What the caller asks a token for. -/
structure TokenRequest where
  sub : String
  roles : List String
  issuer : String
  audience : String
  ttlSeconds : ℕ
deriving DecidableEq, Repr

/-- A token between the two times `create_jwt` takes the lock: serialized, and not signed yet. -/
structure JwtDraft (J : JwtCodec) where
  header : JwtHeader
  claims : JwtClaims
  headerBytes : List UInt8
  claimsBytes : List UInt8
  alg_eq : header.alg = "ML-DSA-65"
  headerToVec_eq : J.headerToVec header = some headerBytes
  claimsToVec_eq : J.claimsToVec claims = some claimsBytes

namespace JwtDraft

/-- The draft of this header and these claims, unless one of them does not serialize. -/
def serialize (header : JwtHeader) (claims : JwtClaims) (halg : header.alg = "ML-DSA-65") :
    Option (JwtDraft J) :=
  match hheader : J.headerToVec header, hclaims : J.claimsToVec claims with
  | some headerBytes, some claimsBytes =>
    some ⟨header, claims, headerBytes, claimsBytes, halg, hheader, hclaims⟩
  | _, _ => none

/-- `signing_input`. -/
def signingInput (draft : JwtDraft J) : String :=
  J.b64url.encode draft.headerBytes ++ "." ++ J.b64url.encode draft.claimsBytes

/-- `token`. -/
def token (draft : JwtDraft J) (sig : List UInt8) : String :=
  draft.signingInput ++ "." ++ J.b64url.encode sig

/-- The second half of `create_jwt`, up to the signature: sign with what is now the current key. -/
def sign (D : MlDsa) (mgr : VersionedKeyManager) (draft : JwtDraft J) :
    Option (String × List UInt8) :=
  mgr.signCurrent D (Text.asBytes draft.signingInput)

end JwtDraft

/-- The first half of `create_jwt`, where `kid` is the current kid. -/
def draftJwt (J : JwtCodec) (request : TokenRequest) (now : ℕ) (jti kid : String) :
    Checked (Option (JwtDraft J)) := do
  let header : JwtHeader := { alg := "ML-DSA-65", typ := "JWT", kid }
  let exp ← Checked.checkedAdd 64 now request.ttlSeconds
  let claims : JwtClaims :=
    { sub := request.sub
      iss := request.issuer
      aud := request.audience
      exp
      iat := now
      jti
      roles := request.roles
      kid
      alg := "ML-DSA-65" }
  pure (JwtDraft.serialize header claims rfl)

/-- Create a new ML-DSA-65 signed JWT, with no other call in between. -/
def createJwt (D : MlDsa) (J : JwtCodec) (mgr : VersionedKeyManager) (request : TokenRequest)
    (now : ℕ) (jti : String) : Checked (Option String) := do
  let draft? ← draftJwt J request now jti mgr.currentKid
  pure (draft?.bind fun draft => (draft.sign D mgr).map fun signed => draft.token signed.2)

/-! ## Verifying -/

/-- What `verify_jwt` reads off a token before it checks anything. -/
structure ReadToken where
  header : JwtHeader
  claims : JwtClaims
  signingInput : String
  signature : List UInt8

/-- The first two parts of a token, decoded and parsed. -/
def readInput (J : JwtCodec) (part₀ part₁ : String) : Option (JwtHeader × JwtClaims) := do
  let headerBytes ← J.b64url.decode part₀
  let claimsBytes ← J.b64url.decode part₁
  let header ← J.headerFromSlice headerBytes
  let claims ← J.claimsFromSlice claimsBytes
  pure (header, claims)

/-- The token taken apart; `none` is `MalformedToken`. -/
def readToken (J : JwtCodec) (token : String) : Option ReadToken :=
  match Text.split '.' token with
  | [part₀, part₁, part₂] => do
    let (header, claims) ← readInput J part₀ part₁
    let signature ← J.b64url.decode part₂
    pure { header, claims, signingInput := part₀ ++ "." ++ part₁, signature }
  | _ => none

/-- Verify and decode a ML-DSA-65 JWT, `now` seconds on the clock. -/
def verifyJwt (D : MlDsa) (J : JwtCodec) (mgr : VersionedKeyManager)
    (token issuer audience : String) (now : ℕ) : Except JwtError JwtClaims :=
  match readToken J token with
  | none => .error .malformedToken
  | some t =>
    if t.header.alg ≠ "ML-DSA-65" then .error (.unsupportedAlgorithm t.header.alg)
    else if ¬ mgr.verifyByKid D t.header.kid (Text.asBytes t.signingInput) t.signature then
      .error .invalidSignature
    else if t.claims.exp < now then .error .expired
    else if t.claims.iss ≠ issuer then .error .invalidIssuer
    else if t.claims.aud ≠ audience then .error .invalidAudience
    else .ok t.claims

/-! ## What reads -/

/-- Three parts of base64, joined by dots: a header, claims and a signature of the first two. -/
def Encodes (J : JwtCodec) (token : String) (t : ReadToken) : Prop :=
  ∃ part₀ part₁ part₂ headerBytes claimsBytes,
    token = part₀ ++ "." ++ part₁ ++ "." ++ part₂ ∧
    (∀ part ∈ [part₀, part₁, part₂], '.' ∉ part.toList) ∧
    J.b64url.decode part₀ = some headerBytes ∧ J.headerFromSlice headerBytes = some t.header ∧
    J.b64url.decode part₁ = some claimsBytes ∧ J.claimsFromSlice claimsBytes = some t.claims ∧
    J.b64url.decode part₂ = some t.signature ∧ t.signingInput = part₀ ++ "." ++ part₁

theorem readInput_eq_some {part₀ part₁ : String} {header : JwtHeader} {claims : JwtClaims} :
    readInput J part₀ part₁ = some (header, claims) ↔ ∃ headerBytes claimsBytes,
      J.b64url.decode part₀ = some headerBytes ∧ J.headerFromSlice headerBytes = some header ∧
      J.b64url.decode part₁ = some claimsBytes ∧ J.claimsFromSlice claimsBytes = some claims := by
  simp only [readInput, Option.bind_eq_bind, Option.bind_eq_some_iff, Option.pure_def,
    Option.some.injEq, Prod.mk.injEq]
  constructor
  · rintro ⟨headerBytes, hheader, claimsBytes, hclaims, _, hheader', _, hclaims', rfl, rfl⟩
    exact ⟨headerBytes, claimsBytes, hheader, hheader', hclaims, hclaims'⟩
  · rintro ⟨headerBytes, claimsBytes, hheader, hheader', hclaims, hclaims'⟩
    exact ⟨headerBytes, hheader, claimsBytes, hclaims, _, hheader', _, hclaims', rfl, rfl⟩

/-- **What reads as a token** encodes it. -/
theorem readToken_eq_some {token : String} {t : ReadToken} :
    readToken J token = some t ↔ Encodes J token t := by
  have hdot : ".".toList = ['.'] := rfl
  constructor
  · intro h
    unfold readToken at h
    split at h
    · rename_i part₀ part₁ part₂ hsplit
      simp only [Option.bind_eq_bind, Option.bind_eq_some_iff, Option.pure_def, Option.some.injEq,
        Prod.exists] at h
      obtain ⟨header, claims, hread, signature, hsignature, rfl⟩ := h
      obtain ⟨htoken, hdots⟩ := (Text.split_eq_triple hdot).mp hsplit
      obtain ⟨headerBytes, claimsBytes, hheader, hheader', hclaims, hclaims'⟩ :=
        readInput_eq_some.mp hread
      exact ⟨part₀, part₁, part₂, headerBytes, claimsBytes, htoken, hdots, hheader, hheader',
        hclaims, hclaims', hsignature, rfl⟩
    · cases h
  · rcases t with ⟨header, claims, signingInput, signature⟩
    rintro ⟨part₀, part₁, part₂, headerBytes, claimsBytes, htoken, hdots, hheader, hheader',
      hclaims, hclaims', hsignature, rfl⟩
    have hread : readInput J part₀ part₁ = some (header, claims) :=
      readInput_eq_some.mpr ⟨headerBytes, claimsBytes, hheader, hheader', hclaims, hclaims'⟩
    rw [readToken, (Text.split_eq_triple hdot).mpr ⟨htoken, hdots⟩]
    simp only [hread, hsignature, Option.bind_eq_bind, Option.bind_some, Option.pure_def]

/-! ## Reading what was issued

No encoding has a dot in it, so a token splits where it was put together. -/

theorem eq_draft_of_serialize {header : JwtHeader} {claims : JwtClaims}
    {halg : header.alg = "ML-DSA-65"} {draft : JwtDraft J}
    (h : JwtDraft.serialize header claims halg = some draft) :
    draft.header = header ∧ draft.claims = claims := by
  unfold JwtDraft.serialize at h
  split at h
  · obtain rfl := Option.some.inj h
    exact ⟨rfl, rfl⟩
  · cases h

/-- **The draft names the kid it was made for**, and carries what was asked for. -/
theorem draftJwt_eq_ok {request : TokenRequest} {now : ℕ} {jti kid : String} {draft : JwtDraft J}
    (h : draftJwt J request now jti kid = .ok (some draft)) :
    draft.header.kid = kid ∧ draft.claims.iss = request.issuer ∧
      draft.claims.aud = request.audience ∧ draft.claims.exp = now + request.ttlSeconds ∧
      draft.claims.sub = request.sub ∧ draft.claims.roles = request.roles := by
  obtain ⟨exp, hexp, h⟩ := Checked.bind_eq_ok.mp h
  obtain ⟨hheader, hclaims⟩ := eq_draft_of_serialize (Except.ok.inj h)
  rw [hheader, hclaims]
  exact ⟨rfl, rfl, rfl, (Checked.checkedAdd_eq_ok.mp hexp).2, rfl, rfl⟩

/-- The signing input has two parts. -/
theorem split_signingInput (hJ : J.Lawful) (draft : JwtDraft J) :
    Text.split '.' draft.signingInput
      = [J.b64url.encode draft.headerBytes, J.b64url.encode draft.claimsBytes] := by
  rw [JwtDraft.signingInput, Text.split_append rfl,
    Text.split_of_notMem (hJ.b64url.dot_notMem_encode _),
    Text.split_of_notMem (hJ.b64url.dot_notMem_encode _)]
  rfl

theorem readInput_draft (hJ : J.Lawful) (draft : JwtDraft J) :
    readInput J (J.b64url.encode draft.headerBytes) (J.b64url.encode draft.claimsBytes)
      = some (draft.header, draft.claims) :=
  readInput_eq_some.mpr ⟨draft.headerBytes, draft.claimsBytes, hJ.b64url.decode_encode _,
    hJ.headerFromSlice_of_toVec _ _ draft.headerToVec_eq, hJ.b64url.decode_encode _,
    hJ.claimsFromSlice_of_toVec _ _ draft.claimsToVec_eq⟩

/-- **An issued token reads back.** -/
theorem readToken_token (hJ : J.Lawful) (draft : JwtDraft J) (sig : List UInt8) :
    readToken J (draft.token sig)
      = some ⟨draft.header, draft.claims, draft.signingInput, sig⟩ := by
  obtain ⟨headerBytes, claimsBytes, hheader, hheader', hclaims, hclaims'⟩ :=
    readInput_eq_some.mp (readInput_draft hJ draft)
  refine readToken_eq_some.mpr ⟨_, _, J.b64url.encode sig, headerBytes, claimsBytes, rfl, ?_,
    hheader, hheader', hclaims, hclaims', hJ.b64url.decode_encode sig, rfl⟩
  simp only [List.forall_mem_cons, List.not_mem_nil, false_implies, implies_true, and_true]
  exact ⟨hJ.b64url.dot_notMem_encode _, hJ.b64url.dot_notMem_encode _,
    hJ.b64url.dot_notMem_encode _⟩

/-- The signing input of a token that reads is its first two parts. -/
theorem split_of_readToken {token : String} {t : ReadToken} (h : readToken J token = some t) :
    ∃ part₀ part₁, Text.split '.' t.signingInput = [part₀, part₁] ∧
      readInput J part₀ part₁ = some (t.header, t.claims) := by
  obtain ⟨part₀, part₁, part₂, headerBytes, claimsBytes, -, hdots, hheader, hheader', hclaims,
    hclaims', -, hinput⟩ := readToken_eq_some.mp h
  refine ⟨part₀, part₁, ?_, readInput_eq_some.mpr
    ⟨headerBytes, claimsBytes, hheader, hheader', hclaims, hclaims'⟩⟩
  rw [hinput, Text.split_append rfl, Text.split_of_notMem (hdots part₀ (by simp)),
    Text.split_of_notMem (hdots part₁ (by simp))]
  rfl

/-- **What an accepted token passed.** -/
theorem verifyJwt_eq_ok {D : MlDsa} {mgr : VersionedKeyManager} {token issuer audience : String}
    {now : ℕ} {claims : JwtClaims} :
    verifyJwt D J mgr token issuer audience now = .ok claims ↔
      ∃ t, readToken J token = some t ∧ t.header.alg = "ML-DSA-65" ∧
        mgr.verifyByKid D t.header.kid (Text.asBytes t.signingInput) t.signature = true ∧
        now ≤ t.claims.exp ∧ t.claims.iss = issuer ∧ t.claims.aud = audience ∧
        t.claims = claims := by
  rw [verifyJwt]
  split
  · simp [*]
  · rename_i t ht
    simp only [ht, Option.some.injEq, exists_eq_left']
    constructor
    · intro h
      split_ifs at h with halg hverify hexp hiss haud
      simp only [not_not, not_lt] at halg hverify hexp hiss haud
      exact ⟨halg, hverify, hexp, hiss, haud, Except.ok.inj h⟩
    · rintro ⟨halg, hverify, hexp, hiss, haud, rfl⟩
      rw [if_neg (not_not.mpr halg), if_neg (not_not.mpr hverify), if_neg (not_lt.mpr hexp),
        if_neg (not_not.mpr hiss), if_neg (not_not.mpr haud)]

/-- **An issued token whose signature verifies is accepted** by its audience until it expires. -/
theorem verifyJwt_token (hJ : J.Lawful) {D : MlDsa} {mgr : VersionedKeyManager}
    {draft : JwtDraft J} {sig : List UInt8} {now : ℕ}
    (hverify : mgr.verifyByKid D draft.header.kid (Text.asBytes draft.signingInput) sig = true)
    (hexp : now ≤ draft.claims.exp) :
    verifyJwt D J mgr (draft.token sig) draft.claims.iss draft.claims.aud now
      = .ok draft.claims :=
  verifyJwt_eq_ok.mpr
    ⟨_, readToken_token hJ draft sig, draft.alg_eq, hverify, hexp, rfl, rfl, rfl⟩

/-! ## A codec to compute with -/

section

variable {α : Type} [Encodable α]

/-- The base 256 digits of a value's number. -/
def toBytes (a : α) : List UInt8 := (Nat.digits 256 (Encodable.encode a)).map UInt8.ofNat

/-- The value of a number's digits. -/
def ofBytes (α : Type) [Encodable α] (bytes : List UInt8) : Option α :=
  Encodable.decode (Nat.ofDigits 256 (bytes.map UInt8.toNat))

theorem ofBytes_toBytes (a : α) : ofBytes α (toBytes a) = some a := by
  have hdigits : (toBytes a).map UInt8.toNat = Nat.digits 256 (Encodable.encode a) := by
    rw [toBytes, List.map_map]
    refine List.map_congr_left (fun d hd => ?_) |>.trans (List.map_id _)
    exact UInt8.toNat_ofNat_of_lt' (Nat.digits_lt_base (by decide) hd)
  rw [ofBytes, hdigits, Nat.ofDigits_digits, Encodable.encodek]

end

/-- A text as the numbers of its characters. -/
def toNats (s : String) : List ℕ := s.toList.map Char.toNat

/-- The text of these characters. -/
def ofNats (codes : List ℕ) : String := String.ofList (codes.map Char.ofNat)

@[simp] theorem ofNats_toNats (s : String) : ofNats (toNats s) = s := by
  simp [ofNats, toNats, Function.comp_def]

/-- The codec that numbers headers and claims. -/
def plainCodec : JwtCodec where
  b64url := wideBase64
  headerToVec h := some (toBytes (toNats h.alg, toNats h.typ, toNats h.kid))
  headerFromSlice bytes := do
    let (alg, typ, kid) ← ofBytes (List ℕ × List ℕ × List ℕ) bytes
    pure ⟨ofNats alg, ofNats typ, ofNats kid⟩
  claimsToVec c := some (toBytes ([c.sub, c.iss, c.aud, c.jti, c.kid, c.alg].map toNats,
    c.roles.map toNats, c.exp, c.iat))
  claimsFromSlice bytes := do
    let (texts, roles, exp, iat) ← ofBytes (List (List ℕ) × List (List ℕ) × ℕ × ℕ) bytes
    match texts.map ofNats with
    | [sub, iss, aud, jti, kid, alg] =>
      pure ⟨sub, iss, aud, exp, iat, jti, roles.map ofNats, kid, alg⟩
    | _ => none

theorem lawful_plainCodec : plainCodec.Lawful where
  b64url := lawful_wideBase64
  headerFromSlice_of_toVec header bytes h := by
    obtain rfl := Option.some.inj h
    simp only [plainCodec, ofBytes_toBytes, Option.bind_eq_bind, Option.bind_some, ofNats_toNats,
      Option.pure_def]
  claimsFromSlice_of_toVec claims bytes h := by
    obtain rfl := Option.some.inj h
    have hroles : (claims.roles.map toNats).map ofNats = claims.roles := by
      simp [Function.comp_def]
    simp only [plainCodec, ofBytes_toBytes, Option.bind_eq_bind, Option.bind_some, List.map_cons,
      List.map_nil, ofNats_toNats, hroles, Option.pure_def]

end PqcGateway
