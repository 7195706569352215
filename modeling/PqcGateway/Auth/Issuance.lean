import PqcGateway.Auth.Gateway

/-!
# Auth/Issuance — which key a token names, and which key signed it

`create_jwt` reads the current kid, releases the lock, and signs with whatever key is current when
it takes the lock again.

* `run_createJwt` — the two steps, with nothing in between, are `create_jwt`.
* `issuedToken_iff` — the two keys are the same exactly when no rotation fell in between, and then
  the token is accepted as long as that key is held.
* `rotation_between_locks` — where one did, the token is rejected.
-/

namespace PqcGateway

open KeyVersion VersionedKeyManager

section

variable {C : GatewayCrates} {mgr : VersionedKeyManager} {calls : List (GatewayCall C)}
variable {g : Gateway C.jwt} {answers : List GatewayAnswer}

/-- **With no step in between, the two steps are `create_jwt`**: they return its token, or none
where it returns none or panics. -/
theorem run_createJwt (id : ℕ) (request : TokenRequest) (now : ℕ) (jti : String) :
    ∃ g', (gatewayMachine C).run g [.beginJwt id request now jti, .finishJwt id]
      = .ok (g', [.begun, .finished
          (createJwt C.mlDsa C.jwt g.keyManager request now jti).toOption.join]) := by
  let g₁ := g.beginJwt C id request now jti
  have hbegin : (gatewayMachine C).run g [.beginJwt id request now jti] = .ok (g₁, [.begun]) := rfl
  have hfinish : (g₁.finishJwt C id).2
      = (createJwt C.mlDsa C.jwt g.keyManager request now jti).toOption.join := by
    rw [g₁.finishJwt_snd]
    simp only [g₁, Gateway.beginJwt, Function.update_self, createJwt]
    cases draftJwt C.jwt request now jti g.keyManager.currentKid <;> rfl
  rw [← hfinish]
  exact ⟨_, (gatewayMachine C).run_concat hbegin (gateway_step_finishJwt id)⟩

/-- Wherever the run goes on to, the token is accepted for whom it was asked, while the key it names
is held and until it expires. -/
def AcceptedFrom (g : Gateway C.jwt) (request : TokenRequest) (token : String) (t : ReadToken) :
    Prop :=
  ∀ later g' answers, (gatewayMachine C).run g later = .ok (g', answers) →
    (∃ key, g'.keyManager.keys.get t.header.kid = some key) → ∀ now ≤ t.claims.exp,
      verifyJwt C.mlDsa C.jwt g'.keyManager token request.issuer request.audience now
        = .ok t.claims

/-- A token is returned for a draft in flight, signed with what is now the current key. -/
theorem eq_token_of_finishJwt {id : ℕ} {g' : Gateway C.jwt} {token : String}
    (h : (gatewayMachine C).step g (.finishJwt id) = .ok (g', .finished (some token))) :
    ∃ draft kid sig, g.inFlight id = some draft ∧
      g.keyManager.signCurrent C.mlDsa (Text.asBytes draft.signingInput) = some (kid, sig) ∧
      token = draft.token sig ∧ g'.keyManager = g.keyManager := by
  rw [gateway_step_finishJwt, Except.ok.injEq, Prod.mk.injEq, GatewayAnswer.finished.injEq] at h
  obtain ⟨rfl, htoken⟩ := h
  obtain hfinish | ⟨draft, kid, sig, hdraft, hsign, hfinish⟩ := g.finishJwt_cases C id <;>
    rw [hfinish] at htoken
  · cases htoken
  · exact ⟨draft, kid, sig, hdraft, hsign, (Option.some.inj htoken).symm,
      (g.finishJwt_frame C id).1⟩

/-- The keys made up to where a draft was begun, and from there on. -/
theorem BegunBy.tracks {cur₀ : KeyVersion} (h₀ : Tracks C.mlDsa [] cur₀ mgr)
    (hmax : mgr.maxRetainedKeys + 1 < 2 ^ 64) {id : ℕ} {draft : JwtDraft C.jwt}
    {pre mid : List (GatewayCall C)} {request : TokenRequest} {now : ℕ} {jti : String}
    {g₁ : Gateway C.jwt} (h : BegunBy (.start mgr) calls id draft pre mid request now jti g₁)
    (hrun : (gatewayMachine C).run (.start mgr) calls = .ok (g, answers)) :
    ∃ past₁ cur₁ past cur, g₁.keyManager.currentKid = cur₁.kid ∧
      g₁.keyManager.maxRetainedKeys = mgr.maxRetainedKeys ∧
      TracksFrom C.mlDsa past₁ cur₁ g₁.keyManager (keyCalls mid) past cur g.keyManager := by
  obtain ⟨answers₁, hreached⟩ := h.reached
  obtain ⟨past₁, cur₁, h₁⟩ := gateway_run_tracks h₀ hmax hreached
  rw [h.calls_eq] at hrun
  obtain ⟨g₁', _, _, hpre, hmid, -⟩ := (gatewayMachine C).run_append_eq_ok.mp hrun
  obtain ⟨rfl, -⟩ := Prod.mk.inj (Except.ok.inj (hreached.symm.trans hpre))
  have hmax₁ : g₁.keyManager.maxRetainedKeys = mgr.maxRetainedKeys := h₁.max_eq
  obtain ⟨past, cur, h₂⟩ := gateway_run_tracks h₁.toTracks (hmax₁ ▸ hmax) hmid
  exact ⟨past₁, cur₁, past, cur, h₁.current, hmax₁, h₂⟩

/-- **A token names the key that signed it exactly when no rotation came between.**  Every token
returned was begun by an earlier step of its call.  If the manager was not rotated since, the token
names the key that signs it, and is accepted while that key is held and until it expires; if it
was, the token names another key. -/
theorem issuedToken_iff (hD : C.mlDsa.Lawful) (hJ : C.jwt.Lawful) {m : ℕ} (hm : m ≤ 2 ^ 63 - 1)
    (hstart : Started C.mlDsa C.sha256 m mgr)
    (hrun : (gatewayMachine C).run (.start mgr) calls = .ok (g, answers)) {id : ℕ}
    {g' : Gateway C.jwt} {token : String}
    (hfinish : (gatewayMachine C).step g (.finishJwt id) = .ok (g', .finished (some token))) :
    ∃ pre mid request now jti t signer,
      calls = pre ++ .beginJwt id request now jti :: mid ∧ (∀ call ∈ mid, ¬ call.IsOf id) ∧
      readToken C.jwt token = some t ∧
      g.keyManager.signCurrent C.mlDsa (Text.asBytes t.signingInput)
        = some (signer, t.signature) ∧
      (t.header.kid = signer ∧ AcceptedFrom g' request token t ↔
        ∀ call ∈ mid, ¬ call.IsRotate) := by
  obtain ⟨cur₀, h₀, hmax⟩ := started_tracks hstart
  have hmax₀ : mgr.maxRetainedKeys + 1 < 2 ^ 64 := by omega
  obtain ⟨draft, kid, sig, hdraft, hsign, rfl, hmgr⟩ := eq_token_of_finishJwt hfinish
  obtain ⟨pre, mid, request, now, jti, g₁, hbegun⟩ :=
    (gateway_run_traced hrun).in_flight id draft hdraft
  obtain ⟨past₁, cur₁, past, cur, hcur₁, hmax₁, h⟩ := hbegun.tracks h₀ hmax₀ hrun
  obtain ⟨hheader, hiss, haud, -⟩ := draftJwt_eq_ok hbegun.draft_eq
  obtain ⟨rfl, hsig⟩ := h.signCurrent_eq_some.mp hsign
  refine ⟨pre, mid, request, now, jti, _, cur.kid, hbegun.calls_eq, hbegun.open_since,
    readToken_token hJ draft sig, hsign, ?_⟩
  have hnames : draft.header.kid = cur.kid ↔ ∀ call ∈ mid, ¬ call.IsRotate := by
    rw [hheader, hcur₁, h.kid_eq_iff, rotations_keyCalls_eq_zero]
  refine ⟨fun haccepted => hnames.mp haccepted.1, fun hmid => ⟨hnames.mpr hmid, ?_⟩⟩
  rintro later g'' answers' hlater ⟨key, hget⟩ now' hexp
  obtain ⟨past', cur', h'⟩ := gateway_run_tracks (hmgr ▸ h.toTracks)
    (by rw [hmgr, h.max_eq, hmax₁]; exact hmax₀) hlater
  have hverify : g''.keyManager.verifyByKid C.mlDsa draft.header.kid
      (Text.asBytes draft.signingInput) sig = true := by
    simp only [hnames.mpr hmid] at hget ⊢
    exact h'.verifyByKid_of_get hD h.made_current.pair hsig hget
  rw [← hiss, ← haud]
  exact verifyJwt_token hJ hverify hexp

end

/-- A token issued with no step in between names its signer and is accepted from there on. -/
theorem issuedToken_undisturbed :
    let C := GatewayCrates.plain fun _ => true
    ∃ mgr g g' answers token t signer,
      (gatewayMachine C).run (.start mgr) [.beginJwt 0 plainRequest 100 "id-1"]
        = .ok (g, answers) ∧
      (gatewayMachine C).step g (.finishJwt 0) = .ok (g', .finished (some token)) ∧
      readToken C.jwt token = some t ∧
      g.keyManager.signCurrent C.mlDsa (Text.asBytes t.signingInput)
        = some (signer, t.signature) ∧
      t.header.kid = signer ∧ AcceptedFrom g' plainRequest token t := by
  intro C
  obtain ⟨mgr, cur, hnew, h, hkid, -⟩ := new_firstDraw fun _ => true
  let g : Gateway C.jwt := (Gateway.start mgr).beginJwt C 0 plainRequest 100 "id-1"
  have hbegin : (gatewayMachine C).run (.start mgr) [.beginJwt 0 plainRequest 100 "id-1"]
      = .ok (g, [.begun]) := rfl
  have hsign := signCurrent_plain h (Text.asBytes plainDraft.signingInput)
  have hfinish := g.finishJwt_of_sign (inFlight_plainDraft hkid) hsign
  have hstep := gateway_step_finishJwt (g := g) 0
  rw [hfinish] at hstep
  have hstart : Started C.mlDsa C.sha256 5 mgr := .inl ⟨_, hnew⟩
  obtain ⟨pre, mid, request, now, jti, t, signer, hcalls, -, hread, hsigned, hiff⟩ :=
    issuedToken_iff (C := C) lawful_plainDsa lawful_plainCodec (by decide) hstart hbegin hstep
  obtain ⟨rfl, hcalls⟩ | ⟨-, hcalls⟩ := List.singleton_eq_append_iff.mp hcalls
  · obtain ⟨hcall, rfl⟩ := List.cons.inj hcalls
    obtain ⟨-, rfl, -, -⟩ := GatewayCall.beginJwt.inj hcall
    obtain ⟨hnames, haccepted⟩ := hiff.mpr fun _ hmem => nomatch hmem
    exact ⟨mgr, g, _, _, _, t, signer, hbegin, hstep, hread, hsigned, hnames, haccepted⟩
  · cases hcalls

/-- A rotation to compute with, to another key. -/
def secondDraw : RotateDraw plainDsa :=
  { plainDraw with signingKey := (Vector.replicate 32 8 : Vector UInt8 32) }

/-- **A rotation between the two locks.**  The token names the old key, which is still held, and
carries a signature of the new one; it is returned, and never accepted. -/
theorem rotation_between_locks :
    let C := GatewayCrates.plain fun _ => true
    let calls : List (GatewayCall C) :=
      [.beginJwt 0 plainRequest 100 "id-1", .rotate secondDraw, .finishJwt 0]
    ∃ mgr g kid signer sig key, Started C.mlDsa C.sha256 5 mgr ∧
      (gatewayMachine C).run (.start mgr) calls
        = .ok (g, [.begun, .rotated kid, .finished (some (plainDraft.token sig))]) ∧
      g.signed = [.token plainDraft signer sig] ∧ plainDraft.header.kid ≠ signer ∧
      g.keyManager.keys.get plainDraft.header.kid = some key ∧
      verifyJwt C.mlDsa C.jwt g.keyManager (plainDraft.token sig) "gateway" "clients" 500
        = .error .invalidSignature := by
  intro C calls
  obtain ⟨mgr, cur, hnew, h, hkid, hmax, hseed⟩ := new_firstDraw fun _ => true
  obtain ⟨mgr', new, hrotate, h', hmax', -, hfree, hseed'⟩ :=
    rotate_tracks (H := headDigest) h (by rw [hmax]; decide) (by rw [h.next]; decide) secondDraw
  have hcur : cur.kid = firstKid := h.current.symm.trans hkid
  have hne : firstKid ≠ new.kid := by
    rintro hkid'
    rw [← hkid', ← hkid, h.get_current] at hfree
    cases hfree
  have hget : mgr'.keys.get firstKid = some cur.retire :=
    h'.get_eq_some.mpr
      ⟨mem_heldKeys.mpr (.inr ⟨0, cur, rfl, by simp [hmax', hmax], rfl⟩), hcur.symm⟩
  let message := Text.asBytes plainDraft.signingInput
  have hsign := signCurrent_plain h' message
  -- the seeds differ, so the signature is none of the old key's
  have hseeds : cur.retire.seed ≠ new.seed := by
    have hcurrent : cur.retire.seed = cur.seed := rfl
    rw [hcurrent, hseed, hseed']
    decide
  have hverify := verify_plain_of_ne (h'.isPair_of_get hget) hseeds message
  let g₁ : Gateway C.jwt := (Gateway.start mgr).beginJwt C 0 plainRequest 100 "id-1"
  let g₂ : Gateway C.jwt := { g₁ with keyManager := mgr' }
  have hbegin : (gatewayMachine C).run (.start mgr) [.beginJwt 0 plainRequest 100 "id-1"]
      = .ok (g₁, [.begun]) := rfl
  have hrotated : (gatewayMachine C).step g₁ (.rotate secondDraw)
      = .ok (g₂, .rotated new.kid) := gateway_step_rotate hrotate
  have hdraft : g₂.inFlight 0 = some plainDraft := inFlight_plainDraft hkid
  have hfinish := g₂.finishJwt_of_sign hdraft hsign
  have hstep := gateway_step_finishJwt (g := g₂) 0
  rw [hfinish] at hstep
  have hrun := (gatewayMachine C).run_concat ((gatewayMachine C).run_concat hbegin hrotated) hstep
  refine ⟨mgr, _, new.kid, new.kid, new.seed ++ message, cur.retire, .inl ⟨_, hnew⟩, hrun, rfl,
    hne, hget, ?_⟩
  have hrejected : ¬ mgr'.verifyByKid plainDsa plainDraft.header.kid message
      (new.seed ++ message) = true := by
    rw [Bool.not_eq_true]
    rwa [verifyByKid, show plainDraft.header.kid = firstKid from rfl, hget]
  rw [verifyJwt, readToken_token lawful_plainCodec]
  simp only
  rw [if_neg (not_not.mpr plainDraft.alg_eq), if_pos hrejected]

end PqcGateway
