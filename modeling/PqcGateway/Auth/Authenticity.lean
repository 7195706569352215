import PqcGateway.Auth.Gateway

/-!
# Auth/Authenticity — which tokens are accepted when response bodies share the key

Tokens and response bodies are signed by the same calls under the same key, with nothing to tell
them apart.  Where ML-DSA is ideal (`Ideal`), an accepted token's signing input was signed: for a
token, whose claims it then carries, or as a response body that is itself a signing input
(`IsTokenInput`).

* `acceptedTokens_run` — a run that signs no such body accepts no forged token.
* `signedBody_accepted` — one such body, and its signature makes a token.
-/

namespace PqcGateway

open KeyVersion VersionedKeyManager

/-! ## Signing inputs -/

section

variable {J : JwtCodec}

/-- The bytes are the signing input of a token that names this kid. -/
def IsTokenInput (J : JwtCodec) (kid : String) (bytes : List UInt8) : Prop :=
  ∃ input part₀ part₁ header claims, bytes = Text.asBytes input ∧
    Text.split '.' input = [part₀, part₁] ∧ readInput J part₀ part₁ = some (header, claims) ∧
    header.alg = "ML-DSA-65" ∧ header.kid = kid

/-- What was signed is what the token's signature is checked against. -/
def Signed.Signs (e : Signed J) (t : ReadToken) : Prop :=
  e.kid = t.header.kid ∧ e.message = Text.asBytes t.signingInput ∧ e.sig = t.signature

theorem isTokenInput_of_readToken {token : String} {t : ReadToken} (h : readToken J token = some t)
    (halg : t.header.alg = "ML-DSA-65") :
    IsTokenInput J t.header.kid (Text.asBytes t.signingInput) := by
  obtain ⟨part₀, part₁, hsplit, hread⟩ := split_of_readToken h
  exact ⟨t.signingInput, part₀, part₁, t.header, t.claims, rfl, hsplit, hread, halg, rfl⟩

/-- **The signing input determines the claims.** -/
theorem claims_eq_of_asBytes_eq (hJ : J.Lawful) {token : String} {t : ReadToken}
    (h : readToken J token = some t) {draft : JwtDraft J}
    (hbytes : Text.asBytes draft.signingInput = Text.asBytes t.signingInput) :
    draft.claims = t.claims := by
  obtain ⟨part₀, part₁, hsplit, hread⟩ := split_of_readToken h
  have hparts := split_signingInput hJ draft
  rw [Text.asBytes_injective hbytes, hsplit, List.cons.injEq, List.cons.injEq] at hparts
  rw [hparts.1, hparts.2.1, readInput_draft hJ] at hread
  exact (Prod.mk.inj (Option.some.inj hread)).2

end

/-! ## Runs -/

section

variable {C : GatewayCrates} {mgr : VersionedKeyManager} {calls : List (GatewayCall C)}
variable {g : Gateway C.jwt} {answers : List GatewayAnswer}

/-- **Ideal ML-DSA**: under a kid verifies only what the manager signed under it. -/
def Ideal (g : Gateway C.jwt) : Prop :=
  ∀ kid message sig, g.keyManager.verifyByKid C.mlDsa kid message sig = true →
    ∃ e ∈ g.signed, e.kid = kid ∧ e.message = message ∧ e.sig = sig

/-- The call does not sign, as a response body, the signing input of a token under the current
kid. -/
def SignsNoTokenInput (g : Gateway C.jwt) : GatewayCall C → Prop
  | .signBody body _ => ¬ IsTokenInput C.jwt g.keyManager.currentKid body
  | _ => True

/-- **No response body signed is a signing input** under the kid that signed it. -/
theorem not_isTokenInput_of_signed {cur : KeyVersion} (h₀ : Tracks C.mlDsa [] cur mgr)
    (hmax : mgr.maxRetainedKeys + 1 < 2 ^ 64)
    (halong : (gatewayMachine C).Along SignsNoTokenInput (.start mgr) calls)
    (hrun : (gatewayMachine C).run (.start mgr) calls = .ok (g, answers)) :
    ∀ body kid sig, .body body kid sig ∈ g.signed → ¬ IsTokenInput C.jwt kid body := by
  refine ((gatewayMachine C).run_along
    (I := fun calls g => Traced (.start mgr) calls g ∧
      ∀ body kid sig, .body body kid sig ∈ g.signed → ¬ IsTokenInput C.jwt kid body) (h := [])
    (fun done g call g' answer => ?_) ⟨traced_start mgr, fun _ _ _ h => nomatch h⟩ halong hrun).2
  rintro ⟨htraced, hbodies⟩ hcall hstep
  refine ⟨htraced.step hstep, fun body kid sig hsigned => ?_⟩
  obtain hsigned | ⟨_, _, _, _, -, he⟩ | ⟨_, headers, _, _, rfl, hsign, he⟩ :=
    gateway_step_signed hstep hsigned
  · exact hbodies body kid sig hsigned
  · cases he
  · -- the body was signed in this step, under what is the current kid
    obtain ⟨rfl, rfl, rfl⟩ := Signed.body.inj he
    obtain ⟨_, hreached⟩ := htraced.reached
    obtain ⟨past, cur', h⟩ := gateway_run_tracks h₀ hmax hreached
    rw [(h.signCurrent_eq_some.mp hsign).1, ← h.current]
    exact hcall

end

/-! ## Runs whose signatures are closed

Over a manager that never rotates, the plain scheme verifies what it signed of the messages it
accepts, so it is ideal where all of these were signed. -/

section

variable {accepts : List UInt8 → Bool} {cur : KeyVersion} {mgr : VersionedKeyManager}

theorem verifyByKid_plain_iff (h : Tracks (.plain accepts) [] cur mgr) {kid : String}
    {message sig : List UInt8} :
    mgr.verifyByKid (.plain accepts) kid message sig = true ↔
      accepts message = true ∧ mgr.signCurrent (.plain accepts) message = some (kid, sig) := by
  rw [h.signCurrent_eq_some, and_left_comm, ← verify_plain_iff h.made_current.pair, verifyByKid]
  constructor
  · intro hverify
    split at hverify
    · rename_i key hget
      obtain ⟨hkey, rfl⟩ := h.get_eq_some.mp hget
      rw [heldKeys_nil, List.mem_singleton] at hkey
      exact ⟨by rw [hkey], hkey ▸ hverify⟩
    · cases hverify
  · rintro ⟨rfl, hverify⟩
    rw [← h.current, h.get_current]
    exact hverify

end

/-- Crates whose ML-DSA verifies nothing but these messages. -/
abbrev closedCrates (messages : List (List UInt8)) : GatewayCrates :=
  .plain fun message => decide (message ∈ messages)

theorem ideal_closedCrates {messages : List (List UInt8)} {cur : KeyVersion}
    {g : Gateway (closedCrates messages).jwt}
    (h : Tracks (closedCrates messages).mlDsa [] cur g.keyManager)
    (hsigned : ∀ message ∈ messages, ∃ e ∈ g.signed, e.message = message ∧
      g.keyManager.signCurrent (closedCrates messages).mlDsa message = some (e.kid, e.sig)) :
    Ideal (C := closedCrates messages) g := by
  intro kid message sig hverify
  obtain ⟨haccepts, hsign⟩ := (verifyByKid_plain_iff h).mp hverify
  obtain ⟨e, he, hmessage, hsign'⟩ := hsigned message (of_decide_eq_true haccepts)
  obtain ⟨rfl, rfl⟩ := Prod.mk.inj (Option.some.inj (hsign'.symm.trans hsign))
  exact ⟨e, he, rfl, hmessage, rfl⟩

/-- A token of the first key whose input is one of these messages is accepted. -/
theorem verifyJwt_closed {messages : List (List UInt8)} {cur : KeyVersion}
    {mgr : VersionedKeyManager} (h : Tracks (closedCrates messages).mlDsa [] cur mgr)
    (draft : JwtDraft plainCodec) (hkid : mgr.currentKid = draft.header.kid)
    (hmessage : Text.asBytes draft.signingInput ∈ messages) {now : ℕ}
    (hexp : now ≤ draft.claims.exp) :
    verifyJwt (closedCrates messages).mlDsa plainCodec mgr
      (draft.token (cur.seed ++ Text.asBytes draft.signingInput)) draft.claims.iss draft.claims.aud
      now = .ok draft.claims := by
  refine verifyJwt_token lawful_plainCodec ((verifyByKid_plain_iff h).mpr ⟨?_, ?_⟩) hexp
  · exact decide_eq_true hmessage
  · rw [← hkid, h.current]
    exact signCurrent_plain h _

/-! ## Which tokens are accepted -/

section

variable {C : GatewayCrates} {mgr : VersionedKeyManager} {calls : List (GatewayCall C)}
variable {g : Gateway C.jwt} {answers : List GatewayAnswer}

/-- **JWT authenticity under a shared signing key.**  Where ML-DSA is ideal, a run that signs no
token's signing input as a response body accepts only tokens that carry the claims of one of its
`create_jwt` calls, and only with a signature made for a token. -/
theorem acceptedTokens_run (hJ : C.jwt.Lawful) {m : ℕ} (hm : m ≤ 2 ^ 63 - 1)
    (hstart : Started C.mlDsa C.sha256 m mgr)
    (halong : (gatewayMachine C).Along SignsNoTokenInput (.start mgr) calls)
    (hrun : (gatewayMachine C).run (.start mgr) calls = .ok (g, answers)) (hideal : Ideal g)
    {token issuer audience : String} {now : ℕ} {claims : JwtClaims}
    (haccept : verifyJwt C.mlDsa C.jwt g.keyManager token issuer audience now = .ok claims) :
    (∃ draft, MadeAmong calls draft ∧ draft.claims = claims) ∧
      ∀ t, readToken C.jwt token = some t →
        ∀ e ∈ g.signed, e.Signs t → ∃ draft kid sig, e = .token draft kid sig := by
  obtain ⟨cur, h₀, hmax⟩ := started_tracks hstart
  have hbodies := not_isTokenInput_of_signed h₀ (by omega) halong hrun
  obtain ⟨t, hread, halg, hverify, -, -, -, rfl⟩ := verifyJwt_eq_ok.mp haccept
  -- what signed the accepted input was no response body
  have htoken : ∀ e ∈ g.signed, e.kid = t.header.kid → e.message = Text.asBytes t.signingInput →
      ∃ draft kid sig, e = .token draft kid sig := by
    intro e he hkid hmessage
    cases e with
    | token draft kid sig => exact ⟨draft, kid, sig, rfl⟩
    | body body kid sig =>
      obtain rfl : kid = t.header.kid := hkid
      obtain rfl : body = Text.asBytes t.signingInput := hmessage
      exact absurd (isTokenInput_of_readToken hread halg) (hbodies _ _ _ he)
  constructor
  · obtain ⟨e, he, hkid, hmessage, -⟩ := hideal _ _ _ hverify
    obtain ⟨draft, kid, sig, rfl⟩ := htoken e he hkid hmessage
    exact ⟨draft, (gateway_run_traced hrun).made draft kid sig he,
      claims_eq_of_asBytes_eq hJ hread hmessage⟩
  · rintro t' hread' e he ⟨hkid, hmessage, -⟩
    obtain rfl := Option.some.inj (hread.symm.trans hread')
    exact htoken e he hkid hmessage

end

/-- A token is issued and an empty body signed; the token is accepted, with the claims made for
it. -/
theorem acceptedTokens_empty_body :
    let C := closedCrates [Text.asBytes plainDraft.signingInput, []]
    let calls : List (GatewayCall C) :=
      [.beginJwt 0 plainRequest 100 "id-1", .finishJwt 0, .signBody [] EntryMap.new]
    ∃ mgr g answers sig, (gatewayMachine C).run (.start mgr) calls = .ok (g, answers) ∧
      verifyJwt C.mlDsa C.jwt g.keyManager (plainDraft.token sig) "gateway" "clients" 500
        = .ok plainDraft.claims ∧
      ∃ draft : JwtDraft C.jwt, MadeAmong calls draft ∧ draft.claims = plainDraft.claims := by
  intro C calls
  obtain ⟨mgr, cur, hnew, h, hkid, -⟩ := new_firstDraw fun message =>
    decide (message ∈ [Text.asBytes plainDraft.signingInput, []])
  let sig := cur.seed ++ Text.asBytes plainDraft.signingInput
  let sig' := cur.seed ++ []
  have hsign := signCurrent_plain h (Text.asBytes plainDraft.signingInput)
  have hsign' := signCurrent_plain h []
  let g₁ : Gateway C.jwt := (Gateway.start mgr).beginJwt C 0 plainRequest 100 "id-1"
  have hdraft : g₁.inFlight 0 = some plainDraft := inFlight_plainDraft hkid
  let g₂ : Gateway C.jwt := { g₁ with
    inFlight := Function.update g₁.inFlight 0 none
    signed := [.token plainDraft cur.kid sig] }
  have hfinish : (gatewayMachine C).step g₁ (.finishJwt 0)
      = .ok (g₂, .finished (some (plainDraft.token sig))) := by
    rw [gateway_step_finishJwt, g₁.finishJwt_of_sign hdraft hsign]
    rfl
  let g₃ : Gateway C.jwt := { g₂ with
    signed := [.token plainDraft cur.kid sig, .body [] cur.kid sig'] }
  have hbody : (gatewayMachine C).step g₂ (.signBody [] EntryMap.new)
      = .ok (g₃, .bodySigned (signResponseBody C mgr [] EntryMap.new)) := by
    rw [gateway_step_signBody, g₂.signBody_of_sign hsign']
    rfl
  have hbegin : (gatewayMachine C).run (.start mgr) [.beginJwt 0 plainRequest 100 "id-1"]
      = .ok (g₁, [.begun]) := rfl
  have hrun : (gatewayMachine C).run (.start mgr) calls = .ok (g₃, _) :=
    (gatewayMachine C).run_concat ((gatewayMachine C).run_concat hbegin hfinish) hbody
  have hideal : Ideal g₃ := by
    refine ideal_closedCrates h fun message hmessage => ?_
    rw [List.mem_pair] at hmessage
    obtain hm | hm := hmessage <;> rw [hm]
    · exact ⟨.token plainDraft cur.kid sig, List.mem_cons_self, rfl, hsign⟩
    · exact ⟨.body [] cur.kid sig', List.mem_cons_of_mem _ List.mem_cons_self, rfl, hsign'⟩
  -- an empty body has no two parts
  have halong : (gatewayMachine C).Along SignsNoTokenInput (.start mgr) calls := by
    refine Machine.along_of_forall_mem _ (fun call hcall g => ?_) _
    simp only [calls, List.mem_cons, List.not_mem_nil, or_false] at hcall
    obtain rfl | rfl | rfl := hcall
    · trivial
    · trivial
    · rintro ⟨input, part₀, part₁, _, _, hbytes, hsplit, -⟩
      obtain rfl : "" = input := Text.asBytes_injective hbytes
      cases hsplit
  have haccept : verifyJwt C.mlDsa C.jwt g₃.keyManager (plainDraft.token sig) "gateway" "clients"
      500 = .ok plainDraft.claims :=
    verifyJwt_closed h plainDraft hkid List.mem_cons_self (by decide)
  have hstart : Started C.mlDsa C.sha256 5 mgr := .inl ⟨_, hnew⟩
  exact ⟨mgr, g₃, _, sig, hrun, haccept, (acceptedTokens_run (C := C) lawful_plainCodec (by decide)
    hstart halong hrun hideal haccept).1⟩

/-- The draft of a token nobody asked for. -/
def forgedDraft : JwtDraft plainCodec :=
  draftOf { plainDraft.claims with
    sub := "mallory"
    jti := "id-2"
    roles := ["admin"] }

/-- **A signed body makes a token.**  An upstream answers with the signing input of a token; the
signature of that response, put behind it, is a token that is accepted and was never issued. -/
theorem signedBody_accepted :
    let C := closedCrates [Text.asBytes forgedDraft.signingInput]
    let calls : List (GatewayCall C) :=
      [.signBody (Text.asBytes forgedDraft.signingInput) EntryMap.new]
    ∃ mgr g answers sig, Started C.mlDsa C.sha256 5 mgr ∧
      (gatewayMachine C).run (.start mgr) calls = .ok (g, answers) ∧ Ideal g ∧
      verifyJwt C.mlDsa C.jwt g.keyManager (forgedDraft.token sig) "gateway" "clients" 500
        = .ok forgedDraft.claims ∧
      ¬ ∃ draft : JwtDraft C.jwt, MadeAmong calls draft ∧ draft.claims = forgedDraft.claims := by
  intro C calls
  obtain ⟨mgr, cur, hnew, h, hkid, -⟩ := new_firstDraw fun message =>
    decide (message ∈ [Text.asBytes forgedDraft.signingInput])
  let sig := cur.seed ++ Text.asBytes forgedDraft.signingInput
  have hsign := signCurrent_plain h (Text.asBytes forgedDraft.signingInput)
  let g : Gateway C.jwt := { Gateway.start mgr with
    signed := [.body (Text.asBytes forgedDraft.signingInput) cur.kid sig] }
  have hbody : (gatewayMachine C).step (.start mgr)
      (.signBody (Text.asBytes forgedDraft.signingInput) EntryMap.new)
        = .ok (g, .bodySigned (signResponseBody C mgr (Text.asBytes forgedDraft.signingInput)
          EntryMap.new)) := by
    rw [gateway_step_signBody, (Gateway.start mgr).signBody_of_sign hsign]
    rfl
  have hideal : Ideal g := by
    refine ideal_closedCrates h fun message hmessage => ?_
    rw [List.mem_singleton.mp hmessage]
    exact ⟨_, List.mem_cons_self, rfl, hsign⟩
  have haccept : verifyJwt C.mlDsa C.jwt g.keyManager (forgedDraft.token sig) "gateway" "clients"
      500 = .ok forgedDraft.claims :=
    verifyJwt_closed h forgedDraft hkid List.mem_cons_self (by decide)
  refine ⟨mgr, g, _, sig, .inl ⟨_, hnew⟩,
    (gatewayMachine C).run_cons_eq_ok.mpr ⟨g, _, _, hbody, rfl, rfl⟩, hideal, haccept, ?_⟩
  rintro ⟨draft, ⟨id, request, now, jti, kid, hmem, -⟩, -⟩
  cases List.mem_singleton.mp hmem

end PqcGateway
