import PqcGateway.Crypto.Base64
import PqcGateway.Routing.Router
import PqcGateway.Threshold.Codes
import PqcGateway.Trust.Issue

/-!
# Response/SignatureKeys — the classical and the PQC key responses are signed with

A `SignatureKeyManager` has an ECDSA-P256 key and an ML-DSA-65 key, made at startup.  `sign` makes
the signatures a mode asks for; what it makes, `verify` accepts (`verify_of_sign`).

* `paired_of_made` — both constructors make key pairs.
* `verify_of_sign` — in every mode that signs, signing returns an output that the manager accepts.
-/

namespace PqcGateway

/-- The result of signing a piece of data. -/
structure SignatureOutput where
  algorithm : String
  pqcSignature : String
  classicalSignature : Option String
  contentDigest : String
  publicKeyFingerprint : String
deriving DecidableEq, Repr

/-- What the response signatures take from crates. -/
structure SigningCrates where
  mlDsa : MlDsa
  sha256 : Sha256
  base64 : Base64
  p256 : SignatureCrate (List UInt8)
  signing : SigningCrate p256

structure SigningCrates.Lawful (C : SigningCrates) : Prop where
  mlDsa : C.mlDsa.Lawful
  base64 : C.base64.Lawful
  signing : C.signing.Lawful

/-- Holds both classical and PQC signing keys, generated once at startup. -/
structure SignatureKeyManager (C : SigningCrates) where
  ecdsaSigningKey : C.signing.SigningKey
  ecdsaVerifyingKey : C.p256.VerifyingKey
  mldsaSeed : List UInt8
  mldsaPublicKey : List UInt8
  fingerprint : String

/-- The fingerprint of both public keys, one after the other. -/
def combinedFingerprint (H : Sha256) (ecdsaPk mldsaPk : List UInt8) : String :=
  computeFingerprint H (ecdsaPk ++ mldsaPk)

namespace SignatureKeyManager

section

variable (C : SigningCrates)

/-- The manager of an ECDSA key and an ML-DSA key pair. -/
def ofKeys (ecdsa : C.signing.SigningKey) (kp : MlDsaKeyPair) : SignatureKeyManager C where
  ecdsaSigningKey := ecdsa
  ecdsaVerifyingKey := C.signing.verifyingKey ecdsa
  mldsaSeed := kp.seed
  mldsaPublicKey := kp.publicKey
  fingerprint := combinedFingerprint C.sha256
    (C.signing.encodeKey (C.signing.verifyingKey ecdsa)) kp.publicKey

/-- Generate fresh ECDSA-P256 + ML-DSA-65 key pairs, where the crates generate `ecdsa` and `sk`. -/
def generate (ecdsa : C.signing.SigningKey) (sk : C.mlDsa.SigningKey) : SignatureKeyManager C :=
  ofKeys C ecdsa (generateMlDsaKeypair C.mlDsa sk)

/-- The byte whose two digits start at `i`.  The slice panics past the end of the text. -/
def seedByte (hex : String) (i : ℕ) : Fallible UInt8 := do
  let pair ← Text.slice hex i (i + 2)
  Fallible.mapErr (fun e => "invalid hex: " ++ e.message) (Text.u8FromStrRadix16 pair)

/-- Create from a hex-encoded seed.  The seed is used for ML-DSA; ECDSA is generated fresh. -/
def fromSeedHex (ecdsa : C.signing.SigningKey) (hex : String) :
    Fallible (SignatureKeyManager C) := do
  let seedBytes ← (pairOffsets (Text.byteLen hex.toList)).mapM (seedByte hex)
  match bytes32TryFrom seedBytes with
  | none => throw "Invalid ML-DSA-65 seed length (expected 32 bytes)"
  | some seed =>
    let publicKey := C.mlDsa.encodeKey (C.mlDsa.verifyingKey (C.mlDsa.fromSeed seed))
    pure (ofKeys C ecdsa ⟨publicKey, seedBytes⟩)

/-- A manager as one of the two constructors returns it. -/
def Made (skm : SignatureKeyManager C) : Prop :=
  (∃ ecdsa sk, generate C ecdsa sk = skm) ∨
    ∃ ecdsa hex, fromSeedHex C ecdsa hex = pure skm

end

variable {C : SigningCrates} (skm : SignatureKeyManager C)

/-! ## Signing and verifying -/

/-- `ml_dsa_sign(..).expect(..)`, in Base64. -/
def pqcB64 (data : List UInt8) : Checked String :=
  match mlDsaSign C.mlDsa skm.mldsaSeed data with
  | .ok sig => .ok (C.base64.encode sig)
  | .error _ => Checked.panicWith "ML-DSA signing must not fail with valid seed"

/-- The ECDSA signature, in Base64. -/
def classicalB64 (data : List UInt8) : String :=
  C.base64.encode (C.signing.encodeSignature (C.signing.sign skm.ecdsaSigningKey data))

def signHybrid (data : List UInt8) : Checked SignatureOutput := do
  let pqcSignature ← skm.pqcB64 data
  pure
    { algorithm := "ecdsa-p256+ml-dsa-65"
      pqcSignature
      classicalSignature := some (skm.classicalB64 data)
      contentDigest := hexEncode (C.sha256 data).toList
      publicKeyFingerprint := skm.fingerprint }

def signMldsaOnly (data : List UInt8) : Checked SignatureOutput := do
  let pqcSignature ← skm.pqcB64 data
  pure
    { algorithm := "ml-dsa-65"
      pqcSignature
      classicalSignature := none
      contentDigest := hexEncode (C.sha256 data).toList
      publicKeyFingerprint := skm.fingerprint }

/-- Sign `data` according to `mode`. Returns `none` for `classical`. -/
def sign (mode : SignatureMode) (data : List UInt8) : Checked (Option SignatureOutput) :=
  match mode with
  | .classical => .ok none
  | .hybrid => do
    let output ← skm.signHybrid data
    pure (some output)
  | .mlDsaOnly => do
    let output ← skm.signMldsaOnly data
    pure (some output)

def verifyMldsa (data : List UInt8) (pqcB64 : String) : Bool :=
  match C.base64.decode pqcB64 with
  | some sig => mlDsaVerifies C.mlDsa skm.mldsaPublicKey data sig
  | none => false

def verifyEcdsa (data : List UInt8) (classicalB64 : String) : Bool :=
  match (C.base64.decode classicalB64).bind C.p256.decodeSignature with
  | some sig => C.p256.verify skm.ecdsaVerifyingKey data sig
  | none => false

/-- Verify a `SignatureOutput` against `data`. -/
def verify (data : List UInt8) (output : SignatureOutput) : Bool :=
  if hexEncode (C.sha256 data).toList ≠ output.contentDigest then false
  else if ¬ skm.verifyMldsa data output.pqcSignature then false
  else match output.classicalSignature with
    | some classicalB64 => skm.verifyEcdsa data classicalB64
    | none => true

/-! ## What is signed verifies

`Paired` is all that signing and verifying need of a manager's keys. -/

/-- The keys of a manager that signs: two pairs, and their fingerprint. -/
structure Paired (skm : SignatureKeyManager C) : Prop where
  ecdsa : skm.ecdsaVerifyingKey = C.signing.verifyingKey skm.ecdsaSigningKey
  mldsa : ∃ seed, skm.mldsaSeed = seed.toList ∧
    skm.mldsaPublicKey = C.mlDsa.encodeKey (C.mlDsa.verifyingKey (C.mlDsa.fromSeed seed))
  fingerprint_eq : skm.fingerprint
    = combinedFingerprint C.sha256 (C.signing.encodeKey skm.ecdsaVerifyingKey) skm.mldsaPublicKey

variable {skm} {data : List UInt8}

/-- **Both constructors make key pairs.** -/
theorem paired_of_made (hC : C.Lawful) (h : skm.Made) : skm.Paired := by
  rcases h with ⟨ecdsa, sk, rfl⟩ | ⟨ecdsa, hex, h⟩
  · refine ⟨rfl, ⟨C.mlDsa.toSeed sk, rfl, ?_⟩, rfl⟩
    rw [hC.mlDsa.fromSeed_toSeed]
    rfl
  · obtain ⟨seedBytes, -, h⟩ := Fallible.bind_eq_pure.mp h
    cases hseed : bytes32TryFrom seedBytes with
    | none =>
      simp only [hseed] at h
      have herror : (Except.error _ : Except String _) = .ok skm := Except.ok.inj h
      cases herror
    | some seed =>
      simp only [hseed] at h
      obtain rfl := Except.ok.inj (Except.ok.inj h)
      exact ⟨rfl, ⟨seed, (toList_of_bytes32TryFrom hseed).symm, rfl⟩, rfl⟩

namespace Paired

/-- The PQC signature is made, and verifies. -/
theorem pqcB64_returns (hC : C.Lawful) (h : skm.Paired) (data : List UInt8) :
    ∃ pqcB64, skm.pqcB64 data = .ok pqcB64 ∧ skm.verifyMldsa data pqcB64 = true := by
  obtain ⟨seed, hseed, hpublic⟩ := h.mldsa
  refine ⟨C.base64.encode (C.mlDsa.encodeSignature (C.mlDsa.sign (C.mlDsa.fromSeed seed) data)),
    ?_, ?_⟩
  · rw [pqcB64, hseed, mlDsaSign_toList]
  · rw [verifyMldsa, hC.base64.decode_encode, hpublic]
    exact mlDsaVerifies_sign hC.mlDsa _ data

/-- The classical signature verifies. -/
theorem verifyEcdsa_classicalB64 (hC : C.Lawful) (h : skm.Paired) (data : List UInt8) :
    skm.verifyEcdsa data (skm.classicalB64 data) = true := by
  rw [verifyEcdsa, classicalB64, hC.base64.decode_encode, Option.bind_some,
    hC.signing.decodeSignature_encodeSignature, h.ecdsa]
  exact hC.signing.verify_sign _ _

end Paired

theorem sign_hybrid {pqcB64 : String} (h : skm.pqcB64 data = .ok pqcB64) :
    skm.sign .hybrid data = .ok (some ⟨"ecdsa-p256+ml-dsa-65", pqcB64, some (skm.classicalB64 data),
      hexEncode (C.sha256 data).toList, skm.fingerprint⟩) := by
  rw [sign, signHybrid, h]
  rfl

theorem sign_mlDsaOnly {pqcB64 : String} (h : skm.pqcB64 data = .ok pqcB64) :
    skm.sign .mlDsaOnly data = .ok (some ⟨"ml-dsa-65", pqcB64, none,
      hexEncode (C.sha256 data).toList, skm.fingerprint⟩) := by
  rw [sign, signMldsaOnly, h]
  rfl

/-- **What is signed verifies.**  In every mode but the classical one, which signs nothing, signing
returns an output that the manager accepts for the same data. -/
theorem verify_of_sign (hC : C.Lawful) (hmade : skm.Made) {mode : SignatureMode}
    (hmode : mode ≠ .classical) (data : List UInt8) :
    ∃ output, skm.sign mode data = .ok (some output) ∧ skm.verify data output = true := by
  have hpaired := paired_of_made hC hmade
  obtain ⟨pqcB64, hpqc, hverify⟩ := hpaired.pqcB64_returns hC data
  rcases mode with _ | _ | _
  · exact absurd rfl hmode
  · refine ⟨_, sign_hybrid hpqc, ?_⟩
    simp [verify, hverify, hpaired.verifyEcdsa_classicalB64 hC data]
  · refine ⟨_, sign_mlDsaOnly hpqc, ?_⟩
    simp [verify, hverify]

end SignatureKeyManager

end PqcGateway
