import PqcGateway.Auth.Gateway

/-!
# Auth/Acceptance — exactly which tokens are accepted

Acceptance depends on the text of a token, the keys that are held and the time, and on nothing that
the gateway would have to remember of issuing it.

* `verifyJwt_eq_ok_iff` — what a token has to be, in terms of its text and of the keys held.
* `acceptance_exact` — that, and every token that was issued with no rotation in between is such a
  token, while its key is held and until it expires.
* `acceptance_after_rotation` — a token is accepted after a rotation, as its key is still held.
-/

namespace PqcGateway

open KeyVersion VersionedKeyManager

/-! ## What is accepted

A token says by its kid which key is to verify it, and no other key is tried. -/

/-- The token encodes this, signed with the key held that its header names, for this issuer and
audience, and has not expired. -/
structure Accepts (D : MlDsa) (J : JwtCodec) (mgr : VersionedKeyManager)
    (token issuer audience : String) (now : ℕ) (t : ReadToken) : Prop where
  encodes : Encodes J token t
  alg_eq : t.header.alg = "ML-DSA-65"
  signed : ∃ key, mgr.keys.get t.header.kid = some key ∧
    key.verify D (Text.asBytes t.signingInput) t.signature = true
  unexpired : now ≤ t.claims.exp
  iss_eq : t.claims.iss = issuer
  aud_eq : t.claims.aud = audience

/-- `create_jwt`, with other calls between the two times it takes the lock, but no rotation: begun
in the state `mgr`, it returns the token in the state `mgr'`. -/
def Issues (D : MlDsa) (H : Sha256) (J : JwtCodec) (mgr : VersionedKeyManager)
    (request : TokenRequest) (now : ℕ) (jti : String) (mgr' : VersionedKeyManager)
    (token : String) : Prop :=
  ∃ draft between answers kid sig,
    draftJwt J request now jti mgr.currentKid = .ok (some draft) ∧
    (keyMachine D H).run mgr between = .ok (mgr', answers) ∧ rotations between = 0 ∧
    draft.sign D mgr' = some (kid, sig) ∧ token = draft.token sig

section

variable {D : MlDsa} {H : Sha256} {J : JwtCodec} {mgr mgr' : VersionedKeyManager}
  {token issuer audience : String} {now : ℕ}

theorem verifyByKid_iff {kid : String} {data signature : List UInt8} :
    mgr.verifyByKid D kid data signature = true ↔
      ∃ key, mgr.keys.get kid = some key ∧ key.verify D data signature = true := by
  rw [verifyByKid]
  rcases mgr.keys.get kid with _ | key
  · simp
  · simp

/-- **What is accepted.** -/
theorem verifyJwt_eq_ok_iff {claims : JwtClaims} :
    verifyJwt D J mgr token issuer audience now = .ok claims ↔
      ∃ t, Accepts D J mgr token issuer audience now t ∧ t.claims = claims := by
  rw [verifyJwt_eq_ok]
  refine exists_congr fun t => ?_
  rw [readToken_eq_some, verifyByKid_iff]
  constructor
  · rintro ⟨hencodes, halg, hsigned, hexp, hiss, haud, hclaims⟩
    exact ⟨⟨hencodes, halg, hsigned, hexp, hiss, haud⟩, hclaims⟩
  · rintro ⟨⟨hencodes, halg, hsigned, hexp, hiss, haud⟩, hclaims⟩
    exact ⟨hencodes, halg, hsigned, hexp, hiss, haud, hclaims⟩

/-! ## What is issued -/

/-- `create_jwt` in one piece. -/
theorem issues_of_createJwt {request : TokenRequest} {jti : String}
    (h : createJwt D J mgr request now jti = .ok (some token)) :
    Issues D H J mgr request now jti mgr token := by
  obtain ⟨draft?, hdraft, htoken⟩ := Checked.bind_eq_ok.mp h
  obtain ⟨draft, rfl, hsigned⟩ := Option.bind_eq_some_iff.mp (Except.ok.inj htoken)
  obtain ⟨⟨kid, sig⟩, hsign, rfl⟩ := Option.map_eq_some_iff.mp hsigned
  exact ⟨draft, [], [], kid, sig, hdraft, rfl, rfl, hsign, rfl⟩

/-- **A token issued with no rotation in between** is accepted as it was asked for, in every state
reached from there that holds its key, until it expires. -/
theorem accepted_of_issues (hD : D.Lawful) (hJ : J.Lawful) {past : List KeyVersion}
    {cur : KeyVersion} (h : Tracks D past cur mgr) {request : TokenRequest} {issuedAt : ℕ}
    {jti : String} (hissues : Issues D H J mgr request issuedAt jti mgr' token)
    {later : List (KeyCall D)} {mgr'' : VersionedKeyManager} {answers : List KeyAnswer}
    (hlater : (keyMachine D H).run mgr' later = .ok (mgr'', answers))
    (hheld : ∃ key, mgr''.keys.get mgr.currentKid = some key)
    (hexp : now ≤ issuedAt + request.ttlSeconds) :
    ∃ claims, verifyJwt D J mgr'' token request.issuer request.audience now = .ok claims ∧
      claims.sub = request.sub ∧ claims.roles = request.roles ∧ claims.iss = request.issuer ∧
      claims.aud = request.audience := by
  obtain ⟨draft, between, _, kid, sig, hdraft, hbetween, hrotations, hsign, rfl⟩ := hissues
  obtain ⟨hkid, hiss, haud, hdue, hsub, hroles⟩ := draftJwt_eq_ok hdraft
  obtain ⟨past', cur', h'⟩ := h.run_of_ok hbetween
  obtain ⟨past'', cur'', h''⟩ := h'.toTracks.run_of_ok hlater
  obtain ⟨rfl, hsig⟩ := h'.toTracks.signCurrent_eq_some.mp hsign
  -- no rotation came between, so the key that signed is the one that is named
  have hnamed : mgr.currentKid = cur'.kid := h.current.trans (h'.kid_eq_iff.mpr hrotations)
  obtain ⟨key, hget⟩ := hheld
  have hverify : mgr''.verifyByKid D draft.header.kid (Text.asBytes draft.signingInput) sig
      = true := by
    rw [hnamed] at hget
    rw [hkid, hnamed]
    exact h''.verifyByKid_of_get hD h'.made_current.pair hsig hget
  refine ⟨draft.claims, ?_, hsub, hroles, hiss, haud⟩
  rw [← hiss, ← haud]
  exact verifyJwt_token hJ hverify (hdue ▸ hexp)

end

/-- **Exact token acceptance.**  A token is accepted exactly when it is three parts of base64, a
header and claims for ML-DSA-65, signed over the text of the first two with the key held that the
header names, not expired, and of the issuer and audience asked for.  `create_jwt`, with no rotation
in between, returns such tokens: each is accepted with its subject, roles, issuer and audience in
every later state that holds its key, until it expires. -/
theorem acceptance_exact (D : MlDsa) (H : Sha256) (J : JwtCodec) :
    (∀ mgr token issuer audience now claims,
      verifyJwt D J mgr token issuer audience now = .ok claims ↔
        ∃ t, Accepts D J mgr token issuer audience now t ∧ t.claims = claims) ∧
    (∀ mgr request now jti token, createJwt D J mgr request now jti = .ok (some token) →
      Issues D H J mgr request now jti mgr token) ∧
    (D.Lawful → J.Lawful → ∀ m mgr₀ calls answers mgr, Started D H m mgr₀ →
      (keyMachine D H).run mgr₀ calls = .ok (mgr, answers) →
      ∀ request issuedAt jti mgr' token, Issues D H J mgr request issuedAt jti mgr' token →
      ∀ later mgr'' answers', (keyMachine D H).run mgr' later = .ok (mgr'', answers') →
      (∃ key, mgr''.keys.get mgr.currentKid = some key) →
      ∀ now ≤ issuedAt + request.ttlSeconds, ∃ claims,
        verifyJwt D J mgr'' token request.issuer request.audience now = .ok claims ∧
          claims.sub = request.sub ∧ claims.roles = request.roles ∧
          claims.iss = request.issuer ∧ claims.aud = request.audience) := by
  refine ⟨fun _ _ _ _ _ _ => verifyJwt_eq_ok_iff, fun _ _ _ _ _ => issues_of_createJwt, ?_⟩
  intro hD hJ m mgr₀ calls answers mgr hstart hrun request issuedAt jti mgr' token hissues later
    mgr'' answers' hlater hheld now hexp
  obtain ⟨cur₀, h₀, -⟩ := started_tracks hstart
  obtain ⟨past, cur, h⟩ := h₀.run_of_ok hrun
  exact accepted_of_issues hD hJ h.toTracks hissues hlater hheld hexp

/-- A token issued at 100, and the keys rotated since. -/
theorem acceptance_after_rotation :
    ∃ mgr mgr' answers token claims, Started plainDsa headDigest 5 mgr ∧
      createJwt plainDsa plainCodec mgr plainRequest 100 "id-1" = .ok (some token) ∧
      (keyMachine plainDsa headDigest).run mgr [.rotate plainDraw] = .ok (mgr', answers) ∧
      verifyJwt plainDsa plainCodec mgr' token "gateway" "clients" 1000 = .ok claims ∧
      claims.sub = "alice" ∧ claims.roles = ["reader"] := by
  obtain ⟨mgr, cur, hnew, h, hkid, hmax, -⟩ := new_firstDraw fun _ => true
  have hstart : Started plainDsa headDigest 5 mgr := .inl ⟨_, hnew⟩
  have hcreate : createJwt plainDsa plainCodec mgr plainRequest 100 "id-1"
      = .ok (some (plainDraft.token (cur.seed ++ Text.asBytes plainDraft.signingInput))) := by
    have hdraft : draftJwt plainCodec plainRequest 100 "id-1" firstKid = .ok (some plainDraft) :=
      rfl
    rw [createJwt, hkid, hdraft, Checked.ok_bind, Option.bind_some, JwtDraft.sign,
      signCurrent_plain h]
    rfl
  obtain ⟨mgr', answers, hrun⟩ := h.run_returns (H := headDigest) (by rw [hmax]; decide)
    [.rotate plainDraw] (by decide)
  obtain ⟨past', cur', h'⟩ := h.run_of_ok hrun
  obtain ⟨key, hget, -⟩ := h'.get_recent h'.getElem?_length
    (by rw [h'.length_eq, h'.max_eq, hmax]; decide)
  obtain ⟨-, hissues, haccepted⟩ := acceptance_exact plainDsa headDigest plainCodec
  obtain ⟨claims, hverify, hsub, hroles, -⟩ := haccepted lawful_plainDsa lawful_plainCodec 5 mgr []
    [] mgr hstart rfl plainRequest 100 "id-1" mgr _ (hissues _ _ _ _ _ hcreate) _ mgr' answers hrun
    ⟨key, h.current ▸ hget⟩ 1000 (by decide)
  exact ⟨mgr, mgr', answers, _, claims, hstart, hcreate, hrun, hverify, hsub, hroles⟩

end PqcGateway
