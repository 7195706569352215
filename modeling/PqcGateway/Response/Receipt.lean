import PqcGateway.Auth.BodyIntegrity
import PqcGateway.Keys.Validity
import PqcGateway.Response.Coherence

/-!
# Response/Receipt — a signed response in the client's hands

    response ──┬─▸ headers sent back with the body ─▸ bodyIntegrityMiddleware
               └─▸ key id ─▸ an entry of the JWKS document ─▸ the signature checks

A client can give a response back to the gateway, which then vouches for it, or look the key up in
the JWKS document that it has.  Keys rotate in between, and the two ways end differently: what comes
back is accepted for as many rotations as old keys are retained (`echo_window`), and the document
must list the key, which one from before the key was made does not (`published_window`).
-/

namespace PqcGateway

open KeyVersion VersionedKeyManager

/-! ## Sending a response back -/

/-- The values of a header of the response. -/
def HttpResponse.values (name : String) (response : HttpResponse) : List String :=
  response.headers.values name

/-- A request that gives the signed response back, with this body and these other headers. -/
def HttpResponse.echo (response : HttpResponse) (headers : HeaderMap) (body : List UInt8) :
    BodyRequest where
  headers := ((headers.insert "x-pqc-key-id" (response.values "x-pqc-key-id")).insert
    "x-pqc-request-signature" (response.values "x-pqc-signature")).insert
    "x-pqc-content-digest" (response.values "x-pqc-content-digest")
  body := .ok body

theorem headerToStr_of_isVisible {value : String} (h : Text.IsVisible value.toList) :
    headerToStr value = some value := by
  refine if_pos (List.all_eq_true.mpr fun c hc => ?_)
  exact decide_eq_true (.inl (h c hc))

theorem getHeader_of_get {headers : HeaderMap} {name value : String}
    (hget : headers.get name = some [value]) (h : Text.IsVisible value.toList) :
    getHeader headers name = some value := by
  rw [getHeader, HeaderMap.first, hget]
  exact headerToStr_of_isVisible h

theorem hasIntegrityHeaders_of_getHeader {headers : HeaderMap} {value : String}
    (h : getHeader headers "x-pqc-content-digest" = some value) :
    hasIntegrityHeaders headers = true := by
  obtain ⟨first, hfirst, -⟩ := Option.bind_eq_some_iff.mp h
  obtain ⟨values, hvalues, hhead⟩ := Option.bind_eq_some_iff.mp hfirst
  obtain ⟨rest, rfl⟩ := List.head?_eq_some_iff.mp hhead
  rw [hasIntegrityHeaders, HeaderMap.containsKey, HeaderMap.values, hvalues]
  rfl

section

variable {R : ResponseCrates} {skm : SignatureKeyManager R.signatures} {mode : SignatureMode}
  {cur : KeyVersion} {sig body : List UInt8} {upstream response : HttpResponse}
  {headers : HeaderMap} {mgr : VersionedKeyManager}

/-- What the middleware looks at of a response that was sent back. -/
theorem Written.getHeader_echo (h : Written skm mode cur sig upstream response)
    (hkid : Text.IsVisible cur.kid.toList)
    (hsig : Text.IsVisible (R.base64.encode sig).toList) :
    getHeader (response.echo headers body).headers "x-pqc-key-id" = some cur.kid ∧
      getHeader (response.echo headers body).headers "x-pqc-request-signature"
        = some (R.base64.encode sig) ∧
      getHeader (response.echo headers body).headers "x-pqc-content-digest"
        = some (computeDigest R.sha256 upstream.body) := by
  have hvalues : ∀ {name value}, response.headers.get name = some [value] →
      response.values name = [value] := fun hget => by
    rw [HttpResponse.values, HeaderMap.values, hget]
    rfl
  refine ⟨getHeader_of_get ?_ hkid, getHeader_of_get ?_ hsig,
    getHeader_of_get ?_ (isVisible_computeDigest _ _)⟩
  · rw [HttpResponse.echo, EntryMap.get_insert_of_ne _ (by decide),
      EntryMap.get_insert_of_ne _ (by decide), EntryMap.get_insert_self, hvalues h.keyId]
  · rw [HttpResponse.echo, EntryMap.get_insert_of_ne _ (by decide), EntryMap.get_insert_self,
      hvalues h.signature]
  · rw [HttpResponse.echo, EntryMap.get_insert_self, hvalues h.digest]

/-- **What becomes of a response that is sent back**: its digest is compared, and then its
signature checked under its key, if that is held. -/
theorem Written.middleware_echo (h : Written skm mode cur sig upstream response)
    (hB : R.base64.Lawful) (hkid : Text.IsVisible cur.kid.toList)
    (hsig : Text.IsVisible (R.base64.encode sig).toList) :
    bodyIntegrityMiddleware R.toGatewayCrates mgr (response.echo headers body)
      = if computeDigest R.sha256 body ≠ computeDigest R.sha256 upstream.body then
          .rejected 400 "request body integrity check failed: digest mismatch"
        else if mgr.verifyByKid R.mlDsa cur.kid body sig then .next (response.echo headers body)
        else .rejected 400
          "request body integrity check failed: signature verification failed" := by
  obtain ⟨hgetKid, hgetSig, hgetDigest⟩ :
      getHeader (response.echo headers body).headers "x-pqc-key-id" = some cur.kid ∧ _ ∧ _ :=
    h.getHeader_echo hkid hsig
  have hbody : (response.echo headers body).body = .ok body := rfl
  rw [bodyIntegrityMiddleware, if_pos (hasIntegrityHeaders_of_getHeader hgetDigest), hbody]
  simp only [verifyRequestIntegrity, hgetDigest, verifyRequestSignature, hgetSig, hgetKid,
    hB.decode_encode, Option.getD_some]
  by_cases hdigest : computeDigest R.sha256 body = computeDigest R.sha256 upstream.body
  · rw [if_neg (not_not.mpr hdigest), if_neg (not_not.mpr hdigest)]
    cases mgr.verifyByKid R.mlDsa cur.kid body sig <;> rfl
  · rw [if_pos hdigest, if_pos hdigest]

/-- **The echo of a response.**  A response that was signed in some state comes back in a later one:
with another body it is rejected for its digest, with its own it is passed on for `m` rotations, and
afterwards rejected for its signature. -/
theorem echo_window (hR : R.Lawful) (hmade : skm.Made)
    (hvisible : ∀ bytes, Text.IsVisible (R.base64.encode bytes).toList) {m : ℕ}
    {mgr₀ mgr : VersionedKeyManager} (hstart : Started R.mlDsa R.sha256 m mgr₀)
    {calls : List (KeyCall R.mlDsa)} {answers : List KeyAnswer}
    (hrun : (keyMachine R.mlDsa R.sha256).run mgr₀ calls = .ok (mgr, answers))
    (mode : SignatureMode) (upstream : HttpResponse) :
    ∃ response, signResponse skm mode mgr upstream = .ok response ∧
      ∀ later mgr' answers', (keyMachine R.mlDsa R.sha256).run mgr later = .ok (mgr', answers') →
        ∀ headers,
          (∀ body, computeDigest R.sha256 body ≠ computeDigest R.sha256 upstream.body →
            bodyIntegrityMiddleware R.toGatewayCrates mgr' (response.echo headers body)
              = .rejected 400 "request body integrity check failed: digest mismatch") ∧
          (rotations later ≤ m →
            bodyIntegrityMiddleware R.toGatewayCrates mgr' (response.echo headers response.body)
              = .next (response.echo headers response.body)) ∧
          (m < rotations later →
            bodyIntegrityMiddleware R.toGatewayCrates mgr' (response.echo headers response.body)
              = .rejected 400
                "request body integrity check failed: signature verification failed") := by
  obtain ⟨cur₀, h₀, rfl⟩ := started_tracks hstart
  obtain ⟨past, cur, h⟩ := h₀.run_of_ok hrun
  have hcurrent := isVisible_currentKid hstart hrun
  obtain ⟨response, sig, hresponse, hsig, hwritten⟩ :=
    written_signResponse hR hmade h.toTracks hcurrent mode upstream
  have hkid : Text.IsVisible cur.kid.toList := h.current ▸ hcurrent
  refine ⟨response, hresponse, fun later mgr' answers' hlater headers => ?_⟩
  obtain ⟨past', cur', h'⟩ := h.toTracks.run_of_ok hlater
  have hmax : mgr'.maxRetainedKeys = mgr₀.maxRetainedKeys := h'.max_eq.trans h.max_eq
  simp only [hwritten.middleware_echo hR.signatures.base64 hkid (hvisible sig), hwritten.body,
    ne_eq, not_true_eq_false, if_false]
  refine ⟨fun body hbody => if_pos hbody, fun hle => if_pos ?_, fun hlt => if_neg ?_⟩
  · obtain ⟨key, hget, -⟩ := h'.get_recent h'.getElem?_length (by rw [h'.length_eq, hmax]; omega)
    exact h'.verifyByKid_of_get hR.signatures.mlDsa h.made_current.pair hsig hget
  · have hget := h'.get_pruned h'.getElem?_length (by rw [h'.length_eq, hmax]; omega)
    simp only [verifyByKid, hget, Bool.false_eq_true, not_false_eq_true]

/-! ## Looking the key up

The entry is found by the key id alone, and then the signature decides. -/

/-- The response checks with an entry of a JWKS document: it names the entry's key, and its
signature verifies over its body under the key that the entry spells. -/
def HttpResponse.ChecksWith (R : ResponseCrates) (response : HttpResponse) (jwk : Jwk) : Prop :=
  ∃ sigB64 sig publicKey, response.headers.get "x-pqc-key-id" = some [jwk.kid] ∧
    response.headers.get "x-pqc-signature" = some [sigB64] ∧
    R.base64.decode sigB64 = some sig ∧ R.jwt.b64url.decode jwk.x = some publicKey ∧
    mlDsaVerifies R.mlDsa publicKey response.body sig = true

/-- The document has one entry for the response's key, and the response checks with it. -/
def HttpResponse.PublishedIn (R : ResponseCrates) (response : HttpResponse) (document : List Jwk) :
    Prop :=
  ∃ jwk ∈ document, response.ChecksWith R jwk ∧
    ∀ jwk' ∈ document, response.headers.get "x-pqc-key-id" = some [jwk'.kid] → jwk' = jwk

/-- No entry of the document has the response's key id. -/
def HttpResponse.AbsentFrom (response : HttpResponse) (document : List Jwk) : Prop :=
  ∀ jwk ∈ document, response.headers.get "x-pqc-key-id" ≠ some [jwk.kid]

theorem mem_jwks_iff {D : MlDsa} {past : List KeyVersion} (h : Tracks D past cur mgr)
    {b64url : Base64Url} {order : WalkOrder String KeyVersion} {jwk : Jwk} :
    jwk ∈ mgr.jwks b64url order ↔
      ∃ key, mgr.keys.get key.kid = some key ∧ jwk = key.toJwk b64url := by
  rw [jwks, List.mem_map]
  constructor
  · rintro ⟨⟨kid, key⟩, hmem, rfl⟩
    have hget := h.keys.get_eq_some.mpr ((h.keys.iter order).mem_iff.mp hmem)
    obtain ⟨-, rfl⟩ := h.get_eq_some.mp hget
    exact ⟨key, hget, rfl⟩
  · rintro ⟨key, hget, rfl⟩
    exact ⟨(key.kid, key), (h.keys.iter order).mem_iff.mpr (h.keys.get_eq_some.mp hget), rfl⟩

theorem Written.keyId_iff (h : Written skm mode cur sig upstream response) {kid : String} :
    response.headers.get "x-pqc-key-id" = some [kid] ↔ kid = cur.kid := by
  rw [h.keyId]
  exact ⟨fun heq => (List.singleton_inj.mp (Option.some.inj heq)).symm, fun heq => by rw [heq]⟩

/-- **A response is absent** where its key is not held: no entry then has its key id. -/
theorem Written.absentFrom_iff {D : MlDsa} {past : List KeyVersion} {cur' : KeyVersion}
    (h : Written skm mode cur sig upstream response) (htracks : Tracks D past cur' mgr)
    (b64url : Base64Url) (order : WalkOrder String KeyVersion) :
    response.AbsentFrom (mgr.jwks b64url order) ↔ ¬ ∃ key, mgr.keys.get cur.kid = some key := by
  have hlisted : cur.kid ∈ (mgr.jwks b64url order).map Jwk.kid ↔
      ∃ key, mgr.keys.get cur.kid = some key := Tracks.mem_jwks htracks
  rw [← hlisted, List.mem_map]
  constructor
  · rintro habsent ⟨jwk, hmem, hkid⟩
    exact habsent jwk hmem (h.keyId_iff.mpr hkid)
  · intro hnone jwk hmem hnames
    exact hnone ⟨jwk, hmem, h.keyId_iff.mp hnames⟩

/-- **A response is published** where its key is held, with the public key it was signed under. -/
theorem Written.publishedIn_iff {past : List KeyVersion} {cur' : KeyVersion}
    (h : Written skm mode cur sig upstream response) (hR : R.Lawful)
    (hurl : R.jwt.b64url.Lawful) (hpair : IsPair R.mlDsa cur)
    (hsig : cur.sign R.mlDsa upstream.body = some sig)
    (htracks : Tracks R.mlDsa past cur' mgr)
    (hpublic : ∀ key, mgr.keys.get cur.kid = some key → key.publicKey = cur.publicKey)
    (order : WalkOrder String KeyVersion) :
    response.PublishedIn R (mgr.jwks R.jwt.b64url.encode order) ↔
      ∃ key, mgr.keys.get cur.kid = some key := by
  constructor
  · rintro ⟨jwk, hmem, ⟨-, -, -, hkid, -⟩, -⟩
    obtain ⟨key, hget, rfl⟩ := (mem_jwks_iff htracks).mp hmem
    obtain hkid : key.kid = cur.kid := h.keyId_iff.mp hkid
    exact ⟨key, hkid ▸ hget⟩
  · rintro ⟨key, hget⟩
    obtain ⟨-, hkid⟩ := htracks.get_eq_some.mp hget
    refine ⟨key.toJwk R.jwt.b64url.encode,
      (mem_jwks_iff htracks).mpr ⟨key, hkid ▸ hget, rfl⟩, ?_, ?_⟩
    · refine ⟨_, sig, key.publicKey, h.keyId_iff.mpr hkid.symm, h.signature,
        hR.signatures.base64.decode_encode sig, hurl.decode_encode key.publicKey, ?_⟩
      rw [hpublic key hget, h.body]
      exact verify_of_sign hR.signatures.mlDsa hpair hsig
    · intro jwk' hmem hnames
      obtain ⟨key', hget', rfl⟩ := (mem_jwks_iff htracks).mp hmem
      have hkid' : key'.kid = cur.kid := h.keyId_iff.mp hnames
      rw [hkid', hget] at hget'
      rw [Option.some.inj hget']

/-- Without a rotation the current key stays. -/
theorem TracksFrom.cur_eq {D : MlDsa} {past past' : List KeyVersion} {cur' : KeyVersion}
    {mgr' : VersionedKeyManager} {calls : List (KeyCall D)}
    (h : TracksFrom D past cur mgr calls past' cur' mgr') (hcalls : rotations calls = 0) :
    cur' = cur := by
  have hget := h.getElem?_length
  rw [show past.length = past'.length by rw [h.length_eq, hcalls, Nat.add_zero],
    List.getElem?_concat_length] at hget
  exact Option.some.inj hget

/-- A key that is held was made by then. -/
theorem TracksFrom.get_newest {D : MlDsa} {past past' : List KeyVersion} {cur' : KeyVersion}
    {mgr' : VersionedKeyManager} {calls : List (KeyCall D)}
    (h : TracksFrom D past cur mgr calls past' cur' mgr') (htracks : Tracks D past cur mgr) :
    (∃ key, mgr.keys.get cur'.kid = some key) ↔ rotations calls = 0 := by
  constructor
  · rintro ⟨key, hget⟩
    obtain ⟨hheld, hkid⟩ := htracks.get_eq_some.mp hget
    obtain ⟨made, hmade, hkid'⟩ := exists_made_of_mem_heldKeys hheld
    obtain ⟨i, hi⟩ := List.getElem?_of_mem hmade
    obtain ⟨rest, hrest⟩ := h.still_made
    have hlt := (List.getElem?_eq_some_iff.mp hi).1
    have hi' : (past' ++ [cur'])[i]? = some made := by
      rw [← hrest, List.getElem?_append_left hlt]
      exact hi
    have hindex := h.made.kid_inj hi' (List.getElem?_concat_length ..) (hkid'.symm.trans hkid.symm)
    rw [List.length_append, List.length_singleton] at hlt
    have hlength := h.length_eq
    omega
  · intro hcalls
    rw [h.cur_eq hcalls]
    exact ⟨cur, htracks.current ▸ htracks.get_current⟩

section

variable {D : MlDsa} {past past' : List KeyVersion} {cur' : KeyVersion} {mgr' : VersionedKeyManager}
  {calls : List (KeyCall D)} {key : KeyVersion}

theorem TracksFrom.publicKey_of_get (h : TracksFrom D past cur mgr calls past' cur' mgr')
    (hget : mgr'.keys.get cur.kid = some key) : key.publicKey = cur.publicKey := by
  have hmax : past'.length ≤ past.length + mgr'.maxRetainedKeys := by
    refine Nat.not_lt.mp fun hlt => ?_
    rw [h.get_pruned h.getElem?_length hlt] at hget
    cases hget
  obtain ⟨key', hget', hpublic⟩ := h.get_recent h.getElem?_length hmax
  rw [Option.some.inj (hget.symm.trans hget')]
  exact hpublic

/-- The key that was current is held for as many rotations as old keys are retained. -/
theorem TracksFrom.get_iff (h : TracksFrom D past cur mgr calls past' cur' mgr') :
    (∃ key, mgr'.keys.get cur.kid = some key) ↔ rotations calls ≤ mgr.maxRetainedKeys := by
  have hlength := h.length_eq
  have hmax := h.max_eq
  constructor
  · rintro ⟨key, hget⟩
    by_contra hlt
    rw [h.get_pruned h.getElem?_length (by omega)] at hget
    cases hget
  · intro hle
    obtain ⟨key, hget, -⟩ := h.get_recent h.getElem?_length (by omega)
    exact ⟨key, hget⟩

end

/-- **The key of a response in the JWKS document.**  A document from before the response was signed
has its key exactly if no rotation came in between; one from afterwards has it for `m` rotations.
It is then the one entry for the response, and the response checks with it; otherwise no entry has
the response's key id. -/
theorem published_window (hR : R.Lawful) (hmade : skm.Made) (hurl : R.jwt.b64url.Lawful) {m : ℕ}
    {mgr₀ mgr₁ mgr₂ : VersionedKeyManager} (hstart : Started R.mlDsa R.sha256 m mgr₀)
    {calls between : List (KeyCall R.mlDsa)} {answers answers₁ : List KeyAnswer}
    (hrun : (keyMachine R.mlDsa R.sha256).run mgr₀ calls = .ok (mgr₁, answers))
    (hbetween : (keyMachine R.mlDsa R.sha256).run mgr₁ between = .ok (mgr₂, answers₁))
    (mode : SignatureMode) (upstream : HttpResponse) :
    ∃ response, signResponse skm mode mgr₂ upstream = .ok response ∧
      (∀ order, (response.PublishedIn R (mgr₁.jwks R.jwt.b64url.encode order) ↔
          rotations between = 0) ∧
        (response.AbsentFrom (mgr₁.jwks R.jwt.b64url.encode order) ↔ rotations between ≠ 0)) ∧
      ∀ later mgr₃ answers₂, (keyMachine R.mlDsa R.sha256).run mgr₂ later = .ok (mgr₃, answers₂) →
        ∀ order, (response.PublishedIn R (mgr₃.jwks R.jwt.b64url.encode order) ↔
            rotations later ≤ m) ∧
          (response.AbsentFrom (mgr₃.jwks R.jwt.b64url.encode order) ↔ m < rotations later) := by
  obtain ⟨cur₀, h₀, rfl⟩ := started_tracks hstart
  obtain ⟨past₁, cur₁, h₁⟩ := h₀.run_of_ok hrun
  obtain ⟨past₂, cur₂, h₂⟩ := h₁.toTracks.run_of_ok hbetween
  have hall := (keyMachine R.mlDsa R.sha256).run_append_eq_ok.mpr
    ⟨mgr₁, answers, answers₁, hrun, hbetween, rfl⟩
  obtain ⟨response, sig, hresponse, hsig, hwritten⟩ := written_signResponse hR hmade h₂.toTracks
    (isVisible_currentKid hstart hall) mode upstream
  have hpair := h₂.made_current.pair
  refine ⟨response, hresponse, fun order => ?_, fun later mgr₃ answers₂ hlater order => ?_⟩
  · have hnewest := h₂.get_newest h₁.toTracks
    have hpublic : ∀ key, mgr₁.keys.get cur₂.kid = some key → key.publicKey = cur₂.publicKey := by
      intro key hget
      obtain rfl := h₂.cur_eq (hnewest.mp ⟨key, hget⟩)
      exact h₁.from_self.publicKey_of_get hget
    exact ⟨(hwritten.publishedIn_iff hR hurl hpair hsig h₁.toTracks hpublic order).trans hnewest,
      (hwritten.absentFrom_iff h₁.toTracks _ order).trans hnewest.not⟩
  · obtain ⟨past₃, cur₃, h₃⟩ := h₂.toTracks.run_of_ok hlater
    have hheld : (∃ key, mgr₃.keys.get cur₂.kid = some key)
        ↔ rotations later ≤ mgr₀.maxRetainedKeys := by
      rw [h₃.get_iff, h₂.max_eq, h₁.max_eq]
    exact ⟨(hwritten.publishedIn_iff hR hurl hpair hsig h₃.toTracks
        (fun key hget => h₃.publicKey_of_get hget) order).trans hheld,
      (hwritten.absentFrom_iff h₃.toTracks _ order).trans (hheld.not.trans Nat.not_le)⟩

end

/-! ## Receipts to compute with -/

/-- The engine that spells bytes in hexadecimal. -/
def hexBase64 : Base64 where
  encode := hexEncode
  decode text := match Text.readPairs (fun _ => "") text.toList with
    | .ok (.ok bytes) => some bytes
    | _ => none

theorem lawful_hexBase64 : hexBase64.Lawful where
  decode_encode bytes := by
    simp only [hexBase64, hexEncode, String.toList_ofList, Text.readPairs_hexChars]
    rfl
  dot_notMem_encode bytes hmem := by
    simp only [hexBase64, hexEncode, String.toList_ofList] at hmem
    obtain ⟨n, hn, hdigit⟩ := Text.mem_hexChars hmem
    have hread := (Text.digitChar_facts hn).1
    rw [← hdigit] at hread
    cases hread

/-- Plain crates, whose Base64 is hexadecimal. -/
def hexResponse : ResponseCrates := { plainResponse with base64 := hexBase64 }

theorem lawful_hexResponse : hexResponse.Lawful where
  signatures := ⟨lawful_plainDsa, lawful_hexBase64, lawful_plainSigning id⟩
  isHeaderValue_of_isVisible _ _ := rfl
  isHeaderValue_encode _ := rfl

/-- A first signer for them. -/
def hexSigner : SignatureKeyManager hexResponse.signatures :=
  .generate _ ([1] : List UInt8) (Vector.replicate 32 9 : Vector UInt8 32)

theorem made_hexSigner : hexSigner.Made := .inl ⟨_, _, rfl⟩

/-- A response is sent back after a rotation. -/
theorem echo_window_rotated :
    ∃ mgr mgr' answers response, Started plainDsa headDigest 5 mgr ∧
      (keyMachine plainDsa headDigest).run mgr [.rotate plainDraw] = .ok (mgr', answers) ∧
      signResponse hexSigner .hybrid mgr plainUpstream = .ok response ∧
      bodyIntegrityMiddleware hexResponse.toGatewayCrates mgr'
        (response.echo EntryMap.new response.body)
          = .next (response.echo EntryMap.new response.body) := by
  obtain ⟨mgr, cur, hnew, h, -, hmax, -⟩ := new_firstDraw fun _ => true
  have hstart : Started plainDsa headDigest 5 mgr := .inl ⟨_, hnew⟩
  obtain ⟨mgr', answers, hrun⟩ :=
    h.run_returns (by rw [hmax]; decide) [.rotate plainDraw] (by decide)
  have hvisible : ∀ bytes, Text.IsVisible (hexEncode bytes).toList := fun bytes => by
    rw [hexEncode, String.toList_ofList]
    exact Text.isVisible_hexChars bytes
  obtain ⟨response, hresponse, hall⟩ := echo_window lawful_hexResponse made_hexSigner hvisible
    hstart (Machine.run_nil _ mgr) .hybrid plainUpstream
  exact ⟨mgr, mgr', answers, response, hstart, hrun, hresponse,
    (hall _ _ _ hrun EntryMap.new).2.1 (by decide)⟩

/-- The document from before a rotation does not have the key of a response from after it, and the
one of that moment has. -/
theorem published_window_stale :
    ∃ mgr mgr' answers response, Started plainDsa headDigest 5 mgr ∧
      (keyMachine plainDsa headDigest).run mgr [.rotate plainDraw] = .ok (mgr', answers) ∧
      signResponse hexSigner .classical mgr' plainUpstream = .ok response ∧
      (∀ order, response.AbsentFrom (mgr.jwks hexResponse.jwt.b64url.encode order)) ∧
      ∀ order, response.PublishedIn hexResponse
        (mgr'.jwks hexResponse.jwt.b64url.encode order) := by
  obtain ⟨mgr, cur, hnew, h, -, hmax, -⟩ := new_firstDraw fun _ => true
  have hstart : Started plainDsa headDigest 5 mgr := .inl ⟨_, hnew⟩
  obtain ⟨mgr', answers, hrun⟩ :=
    h.run_returns (by rw [hmax]; decide) [.rotate plainDraw] (by decide)
  obtain ⟨response, hresponse, hstale, hfresh⟩ := published_window lawful_hexResponse made_hexSigner
    lawful_wideBase64 hstart (Machine.run_nil _ mgr) hrun .classical plainUpstream
  exact ⟨mgr, mgr', answers, response, hstart, hrun, hresponse,
    fun order => (hstale order).2.mpr (by decide),
    fun order => (hfresh _ _ _ (Machine.run_nil _ mgr') order).1.mpr (by decide)⟩

end PqcGateway
