import PqcGateway.Auth.Gateway
import PqcGateway.Response.SignatureKeys

/-!
# Response/Coherence — two signers, one set of headers

    upstream headers ──SignatureKeyManager::sign──▸ ──sign_response_body──▸ response headers

`proxy_handler` signs a response twice.  The second signer writes over the signature, the algorithm
and the digest of the first, and leaves the first one's classical signature and fingerprint where
they are (`written_signResponse`).  `Coherent` is what a client expects of the headers, and
`signResponse_coherent_iff` says when it gets that.
-/

namespace PqcGateway

open KeyVersion VersionedKeyManager

/-! ## Signing a response -/

/-- What signing a response takes from crates. -/
structure ResponseCrates extends GatewayCrates where
  p256 : SignatureCrate (List UInt8)
  signing : SigningCrate p256

/-- The crates of the first signer. -/
abbrev ResponseCrates.signatures (R : ResponseCrates) : SigningCrates where
  mlDsa := R.mlDsa
  sha256 := R.sha256
  base64 := R.base64
  p256 := R.p256
  signing := R.signing

/-- The laws of the signers' crates; and a header value may be any visible text, as Base64 is. -/
structure ResponseCrates.Lawful (R : ResponseCrates) : Prop where
  signatures : R.signatures.Lawful
  isHeaderValue_of_isVisible : ∀ value, Text.IsVisible value.toList → R.isHeaderValue value = true
  isHeaderValue_encode : ∀ bytes, R.isHeaderValue (R.base64.encode bytes) = true

/-- A response: the upstream's, or the one returned for it. -/
structure HttpResponse where
  status : ℕ
  headers : HeaderMap
  body : List UInt8

section

variable (R : ResponseCrates)

/-- The headers of a `SignatureOutput`. -/
def setSignatureHeaders (output : SignatureOutput) (headers : HeaderMap) : HeaderMap :=
  let set := setHeader R.isHeaderValue
  let headers := set "x-pqc-signature-algorithm" output.algorithm headers
  let headers := set "x-pqc-signature" output.pqcSignature headers
  let headers := match output.classicalSignature with
    | some classical => set "x-pqc-signature-classical" classical headers
    | none => headers
  let headers := set "x-pqc-content-digest" output.contentDigest headers
  set "x-pqc-public-key-fingerprint" output.publicKeyFingerprint headers

variable {R}

/-- What `proxy_handler` makes of the upstream's response: it signs in the route's mode, if that
signs at all, and then with the versioned key manager. -/
def signResponse (skm : SignatureKeyManager R.signatures) (mode : SignatureMode)
    (mgr : VersionedKeyManager) (upstream : HttpResponse) : Checked HttpResponse := do
  let sigOutput ← skm.sign mode upstream.body
  let headers := match sigOutput with
    | some output => setSignatureHeaders R output upstream.headers
    | none => upstream.headers
  pure { upstream with headers := signResponseBody R.toGatewayCrates mgr upstream.body headers }

end

/-! ## Coherent headers -/

/-- A signature that a response can have. -/
inductive SignatureKind
  | classical
  | pqc
deriving DecidableEq, Repr

namespace SignatureKind

/-- The header it is in. -/
def header : SignatureKind → String
  | .classical => "x-pqc-signature-classical"
  | .pqc => "x-pqc-signature"

/-- The signatures an algorithm's name stands for. -/
def namedBy : String → List SignatureKind
  | "ecdsa-p256+ml-dsa-65" => [.classical, .pqc]
  | "ml-dsa-65" => [.pqc]
  | "ML-DSA-65" => [.pqc]
  | _ => []

end SignatureKind

/-- The header has a value. -/
def HeaderMap.Has (headers : HeaderMap) (name : String) : Prop :=
  ∃ values, headers.get name = some values ∧ values ≠ []

section

variable {R : ResponseCrates} (skm : SignatureKeyManager R.signatures)

/-- The ML-DSA key a fingerprint stands for.  The JWKS document lists that of a versioned key; the
first signer's is that of its two keys together. -/
def Identifies (fingerprint : String) (publicKey : List UInt8) : Prop :=
  fingerprint = keyFingerprint R.sha256 publicKey ∨
    fingerprint = skm.fingerprint ∧ publicKey = skm.mldsaPublicKey

/-- Every fingerprint among the headers, if there are any, stands for the key. -/
def FingerprintsOf (headers : HeaderMap) (publicKey : List UInt8) : Prop :=
  ∀ values, headers.get "x-pqc-public-key-fingerprint" = some values →
    ∀ fingerprint ∈ values, Identifies skm fingerprint publicKey

/-- The signature verifies over the body under the key that the key id and the fingerprints stand
for. -/
def Verifies (mgr : VersionedKeyManager) (response : HttpResponse) : Prop :=
  ∃ kid sigB64 sig key, response.headers.get "x-pqc-key-id" = some [kid] ∧
    response.headers.get "x-pqc-signature" = some [sigB64] ∧ R.base64.decode sigB64 = some sig ∧
    mgr.keys.get kid = some key ∧ key.verify R.mlDsa response.body sig = true ∧
    FingerprintsOf skm response.headers key.publicKey

/-- The algorithm names exactly the signatures there are. -/
def NamesSignatures (headers : HeaderMap) : Prop :=
  ∃ algorithm, headers.get "x-pqc-signature-algorithm" = some [algorithm] ∧
    ∀ kind, kind ∈ SignatureKind.namedBy algorithm ↔ headers.Has kind.header

/-- **The headers of a response are one consistent set**; in hybrid mode both signatures of the
first signer are in it. -/
structure Coherent (mode : SignatureMode) (mgr : VersionedKeyManager)
    (response : HttpResponse) : Prop where
  verifies : Verifies skm mgr response
  names : NamesSignatures response.headers
  digest : response.headers.get "x-pqc-content-digest"
    = some [computeDigest R.sha256 response.body]
  delivers : mode = .hybrid → ∀ output, skm.sign mode response.body = .ok (some output) →
    response.headers.get "x-pqc-signature" = some [output.pqcSignature] ∧
      response.headers.get "x-pqc-signature-classical" = output.classicalSignature.map fun s => [s]

end

/-! ## What the headers say is visible text

What is no header value is not written, so that another signer's value would stay. -/

section KeyIds

variable {D : MlDsa} {H : Sha256}

theorem isVisible_kid_of_new {version : ℕ} {draw : KeyDraw D} {key : KeyVersion}
    (h : KeyVersion.new D H version draw = .ok key) : Text.IsVisible key.kid.toList := by
  obtain ⟨short, hshort, h⟩ := Checked.bind_eq_ok.mp h
  obtain rfl := Except.ok.inj h
  rw [keyFingerprint, hexEncode,
    Text.slice_of_isAscii (Text.isAscii_hexChars _) (by decide) (by simp)] at hshort
  obtain rfl := Except.ok.inj hshort
  have hname : Text.IsVisible "mldsa-v".toList := by decide
  have hdash : Text.IsVisible "-".toList := by decide
  simp only [String.toList_append, String.toList_ofList]
  refine ((hname.append (Text.isVisible_toString _)).append hdash).append fun c hc => ?_
  exact Text.isVisible_hexChars _ c (List.mem_of_mem_drop (List.mem_of_mem_take hc))

theorem isVisible_currentKid_of_new {m : ℕ} {draw : KeyDraw D} {mgr : VersionedKeyManager}
    (h : VersionedKeyManager.new D H m draw = .ok mgr) : Text.IsVisible mgr.currentKid.toList := by
  obtain ⟨key, hkey, h⟩ := Checked.bind_eq_ok.mp h
  rw [← Except.ok.inj h]
  exact isVisible_kid_of_new hkey

theorem isVisible_currentKid_of_started {m : ℕ} {mgr : VersionedKeyManager}
    (h : Started D H m mgr) : Text.IsVisible mgr.currentKid.toList := by
  obtain ⟨draw, h⟩ | ⟨t, n, draw, rng, h⟩ := h
  · exact isVisible_currentKid_of_new h
  · obtain ⟨base, hbase, h⟩ := Checked.bind_eq_ok.mp h
    obtain ⟨config, -, h⟩ := Checked.bind_eq_ok.mp h
    have hvisible := isVisible_currentKid_of_new hbase
    dsimp only at h
    split at h
    · rwa [(shareKey_frame h).1]
    · rwa [← Except.ok.inj h]

theorem isVisible_currentKid_of_rotate {draw : RotateDraw D} {mgr mgr' : VersionedKeyManager}
    {kid : String} (h : mgr.rotate D H draw = .ok (mgr', kid)) :
    Text.IsVisible mgr'.currentKid.toList := by
  obtain ⟨next, -, h⟩ := Checked.bind_eq_ok.mp h
  obtain ⟨newKey, hnew, h⟩ := Checked.bind_eq_ok.mp h
  obtain ⟨shared, -, h⟩ := Checked.bind_eq_ok.mp h
  obtain ⟨keys, -, h⟩ := Checked.bind_eq_ok.mp h
  obtain ⟨rfl, -⟩ := Prod.mk.inj (Except.ok.inj h)
  exact isVisible_kid_of_new hnew

/-- **The current kid is visible text**, after any run. -/
theorem isVisible_currentKid {m : ℕ} {mgr₀ mgr : VersionedKeyManager} (hstart : Started D H m mgr₀)
    {calls : List (KeyCall D)} {answers : List KeyAnswer}
    (hrun : (keyMachine D H).run mgr₀ calls = .ok (mgr, answers)) :
    Text.IsVisible mgr.currentKid.toList := by
  refine (keyMachine D H).run_invariant (I := fun mgr => Text.IsVisible mgr.currentKid.toList)
    (fun mgr call mgr' answer hvisible hstep => ?_) (isVisible_currentKid_of_started hstart) hrun
  rcases call with data | draw
  · obtain ⟨rfl, -⟩ := Prod.mk.inj (Except.ok.inj hstep)
    exact hvisible
  · obtain ⟨⟨rotated, kid⟩, hrotate, h⟩ := Checked.bind_eq_ok.mp hstep
    obtain ⟨rfl, -⟩ := Prod.mk.inj (Except.ok.inj h)
    exact isVisible_currentKid_of_rotate hrotate

end KeyIds

section Fingerprints

variable (H : Sha256) (publicKey : List UInt8)

theorem isVisible_computeFingerprint :
    Text.IsVisible (computeFingerprint H publicKey).toList := by
  refine Text.isVisible_intercalate (by decide) fun text htext => ?_
  obtain ⟨b, -, rfl⟩ := List.mem_map.mp htext
  have hpair := Text.isVisible_hexChars [b]
  rwa [Text.hexChars, List.flatMap_singleton, ← String.toList_ofList (l := Text.hexPair b)] at hpair

theorem isVisible_computeDigest : Text.IsVisible (computeDigest H publicKey).toList := by
  rw [computeDigest, hexEncode, String.toList_ofList]
  exact Text.isVisible_hexChars _

theorem colon_mem_computeFingerprint : ':' ∈ (computeFingerprint H publicKey).toList := by
  have hlen : ((H publicKey).toList.take 16).length = 16 := by simp
  rw [computeFingerprint]
  rcases htake : (H publicKey).toList.take 16 with _ | ⟨b, _ | ⟨b', bytes⟩⟩
  · rw [htake] at hlen
    cases hlen
  · rw [htake] at hlen
    cases hlen
  · rw [List.map_cons, List.map_cons, String.intercalate_cons_cons]
    simp

theorem colon_notMem_keyFingerprint : ':' ∉ (keyFingerprint H publicKey).toList := by
  intro hcolon
  rw [keyFingerprint, hexEncode, String.toList_ofList] at hcolon
  obtain ⟨n, hn, hdigit⟩ := Text.mem_hexChars hcolon
  have hread := (Text.digitChar_facts hn).1
  rw [← hdigit] at hread
  cases hread

end Fingerprints

/-! ## Which write is the last

`Written` has, for each of the headers, what a client finds there in the end. -/

section Signing

variable {R : ResponseCrates} {skm : SignatureKeyManager R.signatures} {mode : SignatureMode}
variable {past : List KeyVersion} {cur : KeyVersion} {mgr : VersionedKeyManager}
variable {upstream response : HttpResponse}

/-- The headers of a signed response: the second signer's four, and of the first signer's those two
that the second does not write. -/
structure Written (skm : SignatureKeyManager R.signatures) (mode : SignatureMode) (cur : KeyVersion)
    (sig : List UInt8) (upstream response : HttpResponse) : Prop where
  body : response.body = upstream.body
  keyId : response.headers.get "x-pqc-key-id" = some [cur.kid]
  signature : response.headers.get "x-pqc-signature" = some [R.base64.encode sig]
  algorithm : response.headers.get "x-pqc-signature-algorithm" = some ["ML-DSA-65"]
  digest : response.headers.get "x-pqc-content-digest"
    = some [computeDigest R.sha256 upstream.body]
  fingerprint : response.headers.get "x-pqc-public-key-fingerprint"
    = if mode = .classical then upstream.headers.get "x-pqc-public-key-fingerprint"
      else some [skm.fingerprint]
  classical : response.headers.get "x-pqc-signature-classical"
    = if mode = .hybrid then some [skm.classicalB64 upstream.body]
      else upstream.headers.get "x-pqc-signature-classical"

/-- A header that the second signer does not write is as it was. -/
theorem get_signResponseBody {C : GatewayCrates} {body sig : List UInt8} {kid : String}
    (hsign : mgr.signCurrent C.mlDsa body = some (kid, sig))
    (hvalue : ∀ value ∈ [kid, computeDigest C.sha256 body, "ML-DSA-65", C.base64.encode sig],
      C.isHeaderValue value = true) (headers : HeaderMap) (name : String) :
    (signResponseBody C mgr body headers).get name
      = if name = "x-pqc-key-id" then some [kid]
        else if name = "x-pqc-content-digest" then some [computeDigest C.sha256 body]
        else if name = "x-pqc-signature-algorithm" then some ["ML-DSA-65"]
        else if name = "x-pqc-signature" then some [C.base64.encode sig]
        else headers.get name := by
  simp only [List.forall_mem_cons] at hvalue
  obtain ⟨hkid, hdigest, halgorithm, hsignature, -⟩ := hvalue
  simp only [signResponseBody, hsign, get_setHeader, hkid, hdigest, halgorithm, hsignature,
    and_true]

/-- Signing, when the first signer signs. -/
theorem signResponse_of_sign {output : SignatureOutput}
    (h : skm.sign mode upstream.body = .ok (some output)) (mgr : VersionedKeyManager) :
    signResponse skm mode mgr upstream = .ok { upstream with
      headers := signResponseBody R.toGatewayCrates mgr upstream.body
        (setSignatureHeaders R output upstream.headers) } := by
  rw [signResponse, h]
  rfl

/-- **The headers of a response**, in every mode and whatever the upstream sent. -/
theorem written_signResponse (hR : R.Lawful) (hmade : skm.Made) (h : Tracks R.mlDsa past cur mgr)
    (hkid : Text.IsVisible mgr.currentKid.toList) (mode : SignatureMode)
    (upstream : HttpResponse) :
    ∃ response sig, signResponse skm mode mgr upstream = .ok response ∧
      cur.sign R.mlDsa upstream.body = some sig ∧ Written skm mode cur sig upstream response := by
  have hpaired := SignatureKeyManager.paired_of_made hR.signatures hmade
  obtain ⟨sig, hsig⟩ := sign_returns hR.signatures.mlDsa h.made_current.pair upstream.body
  obtain ⟨pqcB64, hpqc, -⟩ := hpaired.pqcB64_returns hR.signatures upstream.body
  have hsign : mgr.signCurrent R.mlDsa upstream.body = some (cur.kid, sig) :=
    h.signCurrent_eq_some.mpr ⟨rfl, hsig⟩
  have hvalue : ∀ value ∈ [cur.kid, computeDigest R.sha256 upstream.body, "ML-DSA-65",
      R.base64.encode sig], R.isHeaderValue value = true := by
    simp only [List.forall_mem_cons]
    exact ⟨hR.isHeaderValue_of_isVisible _ (h.current ▸ hkid),
      hR.isHeaderValue_of_isVisible _ (isVisible_computeDigest _ _),
      hR.isHeaderValue_of_isVisible _ (by decide), hR.isHeaderValue_encode sig, by simp⟩
  have hfingerprint : R.isHeaderValue skm.fingerprint = true := by
    rw [hpaired.fingerprint_eq]
    exact hR.isHeaderValue_of_isVisible _ (isVisible_computeFingerprint _ _)
  have hclassical : R.isHeaderValue (skm.classicalB64 upstream.body) = true :=
    hR.isHeaderValue_encode _
  have hget := get_signResponseBody hsign hvalue
  rcases mode with _ | _ | _
  · refine ⟨_, sig, rfl, hsig, ⟨rfl, ?_, ?_, ?_, ?_, ?_, ?_⟩⟩ <;> simp [hget]
  · refine ⟨_, sig, signResponse_of_sign (SignatureKeyManager.sign_hybrid hpqc) mgr, hsig,
      ⟨rfl, ?_, ?_, ?_, ?_, ?_, ?_⟩⟩ <;>
      simp [hget, setSignatureHeaders, get_setHeader, hfingerprint, hclassical]
  · refine ⟨_, sig, signResponse_of_sign (SignatureKeyManager.sign_mlDsaOnly hpqc) mgr, hsig,
      ⟨rfl, ?_, ?_, ?_, ?_, ?_, ?_⟩⟩ <;>
      simp [hget, setSignatureHeaders, get_setHeader, hfingerprint]

/-! ## When the headers are coherent -/

/-- The first signer's fingerprint is that of no versioned key, unless the two signers share it. -/
theorem identifies_fingerprint (hpaired : skm.Paired) {publicKey : List UInt8} :
    Identifies skm skm.fingerprint publicKey ↔ skm.mldsaPublicKey = publicKey := by
  constructor
  · rintro (hversioned | ⟨-, hshared⟩)
    · have hcolon : ':' ∈ skm.fingerprint.toList := by
        rw [hpaired.fingerprint_eq]
        exact colon_mem_computeFingerprint _ _
      rw [hversioned] at hcolon
      exact absurd hcolon (colon_notMem_keyFingerprint _ _)
    · exact hshared.symm
  · exact fun hshared => .inr ⟨rfl, hshared.symm⟩

namespace Written

variable {sig : List UInt8}

/-- The key that signed is the one the key id names. -/
theorem verifies_iff (hw : Written skm mode cur sig upstream response) (hR : R.Lawful)
    (h : Tracks R.mlDsa past cur mgr) (hsig : cur.sign R.mlDsa upstream.body = some sig) :
    Verifies skm mgr response ↔ FingerprintsOf skm response.headers cur.publicKey := by
  have hget : mgr.keys.get cur.kid = some cur := h.current ▸ h.get_current
  constructor
  · rintro ⟨kid, sigB64, sig', key, hkid, -, -, hkey, -, hfingerprints⟩
    rw [hw.keyId, Option.some.injEq, List.singleton_inj] at hkid
    rw [← hkid, hget, Option.some.injEq] at hkey
    rwa [← hkey] at hfingerprints
  · intro hfingerprints
    refine ⟨cur.kid, _, sig, cur, hw.keyId, hw.signature,
      hR.signatures.base64.decode_encode sig, hget, ?_, hfingerprints⟩
    rw [hw.body]
    exact verify_of_sign hR.signatures.mlDsa h.made_current.pair hsig

/-- The fingerprints are the upstream's in classical mode, and else the first signer's. -/
theorem fingerprints_iff (hw : Written skm mode cur sig upstream response) (hpaired : skm.Paired) :
    FingerprintsOf skm response.headers cur.publicKey ↔
      (mode = .classical → FingerprintsOf skm upstream.headers cur.publicKey) ∧
      (mode ≠ .classical → skm.mldsaPublicKey = cur.publicKey) := by
  rw [FingerprintsOf, hw.fingerprint]
  by_cases hmode : mode = .classical
  · simp only [hmode, if_true, forall_const, ne_eq, not_true_eq_false, IsEmpty.forall_iff, and_true]
    rfl
  · simp only [hmode, if_false, IsEmpty.forall_iff, ne_eq, not_false_eq_true, forall_const,
      true_and, Option.some.injEq, forall_eq', List.mem_singleton, forall_eq]
    exact identifies_fingerprint hpaired

/-- The algorithm names the second signer's signature, which is always there. -/
theorem names_iff (hw : Written skm mode cur sig upstream response) :
    NamesSignatures response.headers ↔ ¬ response.headers.Has "x-pqc-signature-classical" := by
  have hpqc : response.headers.Has SignatureKind.pqc.header :=
    ⟨_, hw.signature, List.cons_ne_nil _ _⟩
  constructor
  · rintro ⟨algorithm, halgorithm, hnames⟩ hclassical
    rw [hw.algorithm, Option.some.injEq, List.singleton_inj] at halgorithm
    have hnamed := (hnames .classical).mpr hclassical
    rw [← halgorithm] at hnamed
    revert hnamed
    decide
  · intro hclassical
    refine ⟨_, hw.algorithm, fun kind => ?_⟩
    rcases kind with _ | _
    · exact iff_of_false (by decide) hclassical
    · exact iff_of_true (by decide) hpqc

/-- A classical signature is there if the first signer made one or the upstream sent one. -/
theorem has_classical_iff (hw : Written skm mode cur sig upstream response) :
    response.headers.Has "x-pqc-signature-classical" ↔
      mode = .hybrid ∨ upstream.headers.Has "x-pqc-signature-classical" := by
  rw [HeaderMap.Has, hw.classical]
  by_cases hmode : mode = .hybrid
  · rw [if_pos hmode]
    exact iff_of_true ⟨_, rfl, List.cons_ne_nil _ _⟩ (.inl hmode)
  · rw [if_neg hmode, or_iff_right hmode]
    rfl

/-- **When the headers are coherent.** -/
theorem coherent_iff (hw : Written skm mode cur sig upstream response) (hR : R.Lawful)
    (hpaired : skm.Paired) (h : Tracks R.mlDsa past cur mgr)
    (hsig : cur.sign R.mlDsa upstream.body = some sig) :
    Coherent skm mode mgr response ↔
      mode ≠ .hybrid ∧ ¬ upstream.headers.Has "x-pqc-signature-classical" ∧
      (mode = .classical → FingerprintsOf skm upstream.headers cur.publicKey) ∧
      (mode = .mlDsaOnly → skm.mldsaPublicKey = cur.publicKey) := by
  have hverifies := (hw.verifies_iff hR h hsig).trans (hw.fingerprints_iff hpaired)
  have hnames := hw.names_iff.trans (not_congr hw.has_classical_iff)
  rw [not_or] at hnames
  constructor
  · intro hcoherent
    obtain ⟨hmode, hclassical⟩ := hnames.mp hcoherent.names
    obtain ⟨hupstream, hshared⟩ := hverifies.mp hcoherent.verifies
    refine ⟨hmode, hclassical, hupstream, ?_⟩
    rintro rfl
    exact hshared (by decide)
  · rintro ⟨hmode, hclassical, hupstream, hshared⟩
    refine ⟨hverifies.mpr ⟨hupstream, fun hne => hshared ?_⟩, hnames.mpr ⟨hmode, hclassical⟩, ?_,
      fun h => absurd h hmode⟩
    · rcases mode with _ | _ | _
      · exact absurd rfl hne
      · exact absurd rfl hmode
      · rfl
    · rw [hw.digest, hw.body]

end Written

/-- **Response signature headers.**  In every mode, for every upstream response and in every state
of the key managers, a response is returned, with the upstream's body.  Its headers are coherent
exactly when the mode is not hybrid, the upstream sends no classical signature and, in classical
mode, no fingerprint of another key, and in ML-DSA-only mode the two signers have the same key. -/
theorem signResponse_coherent_iff (hR : R.Lawful) (hmade : skm.Made) {m : ℕ}
    {mgr₀ : VersionedKeyManager} (hstart : Started R.mlDsa R.sha256 m mgr₀)
    {calls : List (KeyCall R.mlDsa)} {answers : List KeyAnswer}
    (hrun : (keyMachine R.mlDsa R.sha256).run mgr₀ calls = .ok (mgr, answers))
    (mode : SignatureMode) (upstream : HttpResponse) :
    ∃ response cur, signResponse skm mode mgr upstream = .ok response ∧
      response.body = upstream.body ∧ mgr.keys.get mgr.currentKid = some cur ∧
      (Coherent skm mode mgr response ↔
        mode ≠ .hybrid ∧ ¬ upstream.headers.Has "x-pqc-signature-classical" ∧
        (mode = .classical → FingerprintsOf skm upstream.headers cur.publicKey) ∧
        (mode = .mlDsaOnly → skm.mldsaPublicKey = cur.publicKey)) := by
  obtain ⟨cur₀, h₀, -⟩ := started_tracks hstart
  obtain ⟨past, cur, h⟩ := h₀.run_of_ok hrun
  obtain ⟨response, sig, hresponse, hsig, hw⟩ := written_signResponse hR hmade h.toTracks
    (isVisible_currentKid hstart hrun) mode upstream
  have hpaired := SignatureKeyManager.paired_of_made hR.signatures hmade
  exact ⟨response, cur, hresponse, hw.body, h.get_current,
    hw.coherent_iff hR hpaired h.toTracks hsig⟩

end Signing

/-! ## Responses to compute with -/

/-- Plain crates; any text is a header value. -/
def plainResponse : ResponseCrates where
  toGatewayCrates := .plain fun _ => true
  p256 := plainCrate id
  signing := plainSigning id

theorem lawful_plainResponse : plainResponse.Lawful where
  signatures := ⟨lawful_plainDsa, lawful_wideBase64, lawful_plainSigning id⟩
  isHeaderValue_of_isVisible _ _ := rfl
  isHeaderValue_encode _ := rfl

/-- A first signer whose ML-DSA key is not the versioned one. -/
def plainSigner : SignatureKeyManager plainResponse.signatures :=
  .generate _ ([1] : List UInt8) (Vector.replicate 32 9 : Vector UInt8 32)

/-- An upstream's response. -/
def plainUpstream : HttpResponse := ⟨200, EntryMap.new, [1, 2, 3]⟩

/-- A route in classical mode, after a rotation. -/
theorem signResponse_coherent_classical :
    ∃ mgr₀ mgr answers response, Started plainDsa headDigest 5 mgr₀ ∧
      (keyMachine plainDsa headDigest).run mgr₀ [.rotate plainDraw] = .ok (mgr, answers) ∧
      signResponse plainSigner .classical mgr plainUpstream = .ok response ∧
      Coherent plainSigner .classical mgr response := by
  obtain ⟨mgr₀, cur₀, hnew, h₀, -, hmax, -⟩ := new_firstDraw fun _ => true
  have hstart : Started plainDsa headDigest 5 mgr₀ := .inl ⟨_, hnew⟩
  have hmade : plainSigner.Made := .inl ⟨_, _, rfl⟩
  obtain ⟨mgr, answers, hrun⟩ :=
    h₀.run_returns (by rw [hmax]; decide) [.rotate plainDraw] (by decide)
  obtain ⟨response, cur, hresponse, -, -, hcoherent⟩ := signResponse_coherent_iff
    lawful_plainResponse hmade hstart hrun .classical plainUpstream
  refine ⟨mgr₀, mgr, answers, response, hstart, hrun, hresponse,
    hcoherent.mpr ⟨by decide, ?_, ?_, ?_⟩⟩
  · rintro ⟨_, ⟨⟩, -⟩
  · intro _ _ h
    cases h
  · intro h
    cases h

/-- In hybrid mode the algorithm leaves the classical signature out, and the signature of the first
signer is lost. -/
theorem hybrid_overwritten :
    ∃ mgr response output, Started plainDsa headDigest 5 mgr ∧
      plainSigner.sign .hybrid plainUpstream.body = .ok (some output) ∧
      signResponse plainSigner .hybrid mgr plainUpstream = .ok response ∧
      response.headers.get "x-pqc-signature-algorithm" = some ["ML-DSA-65"] ∧
      response.headers.Has "x-pqc-signature-classical" ∧
      response.headers.get "x-pqc-signature" ≠ some [output.pqcSignature] ∧
      ¬ Coherent plainSigner .hybrid mgr response := by
  obtain ⟨mgr, cur, hnew, h, hkid, -, hseed⟩ := new_firstDraw fun _ => true
  have hmade : plainSigner.Made := .inl ⟨_, _, rfl⟩
  have hpaired := SignatureKeyManager.paired_of_made lawful_plainResponse.signatures hmade
  obtain ⟨response, sig, hresponse, hsig, hw⟩ := written_signResponse lawful_plainResponse hmade h
    (by rw [hkid]; decide) .hybrid plainUpstream
  have hpqc : plainSigner.pqcB64 plainUpstream.body
      = .ok (wideBase64.encode ((Vector.replicate 32 9).toList ++ [1, 2, 3])) := by
    rw [SignatureKeyManager.pqcB64, mlDsaSign]
    rfl
  refine ⟨mgr, response, _, .inl ⟨_, hnew⟩, SignatureKeyManager.sign_hybrid hpqc, hresponse,
    hw.algorithm, hw.has_classical_iff.mpr (.inl rfl), ?_, ?_⟩
  · have hversioned := sign_plain h.made_current.pair plainUpstream.body
    rw [hseed] at hversioned
    obtain rfl := Option.some.inj (hversioned.symm.trans hsig)
    rw [hw.signature]
    intro heq
    have hbytes := lawful_wideBase64.encode_injective (List.singleton_inj.mp (Option.some.inj heq))
    exact absurd hbytes (by decide)
  · intro hcoherent
    exact ((hw.coherent_iff lawful_plainResponse hpaired h hsig).mp hcoherent).1 rfl

end PqcGateway
