import PqcGateway.Trust.KeyTrust

/-!
# Trust/Issue — certificates as they are issued

`createRootCa` makes a self-signed root and `createSignedCert` a certificate signed with the key
pair before it.  Both draw a key pair and a serial and read the clock, which come in as `Draws`.  A
chain issued link by link, whatever its length and algorithms, is one that `validateChain` accepts
(`issueChain_valid`).

* `createSignedCert_of_fits` — a certificate that fits in time is issued by the key pair that signed
  it.
* `extendChain_of_fits` — issuing link by link keeps the chain well issued.
-/

namespace PqcGateway

/-! ## The signing side of the crates -/

/-- A signature crate's signer: a signing key's own bytes and verifying key, and the signatures it
makes. -/
structure SigningCrate {Bytes : Type} (C : SignatureCrate Bytes) where
  SigningKey : Type
  toBytes : SigningKey → Bytes
  verifyingKey : SigningKey → C.VerifyingKey
  encodeKey : C.VerifyingKey → Bytes
  sign : SigningKey → List UInt8 → C.Signature
  encodeSignature : C.Signature → List UInt8

/-- Encodings decode, and a signature verifies under its own key. -/
structure SigningCrate.Lawful {Bytes : Type} {C : SignatureCrate Bytes} (S : SigningCrate C) :
    Prop where
  decodeKey_encodeKey : ∀ sk,
    C.decodeKey (S.encodeKey (S.verifyingKey sk)) = some (S.verifyingKey sk)
  decodeSignature_encodeSignature : ∀ sig, C.decodeSignature (S.encodeSignature sig) = some sig
  verify_sign : ∀ sk data, C.verify (S.verifyingKey sk) data (S.sign sk data) = true

/-- The crates certificates are issued with.  `p256` may refuse the bytes of a signing key;
`ed25519` takes any 32. -/
structure IssueCrates (K : ChainCrates) where
  p256 : SigningCrate K.p256
  p256FromSlice : List UInt8 → Option p256.SigningKey
  ed25519 : SigningCrate K.ed25519
  ed25519FromBytes : Vector UInt8 32 → ed25519.SigningKey

structure IssueCrates.Lawful {K : ChainCrates} (S : IssueCrates K) : Prop where
  p256 : S.p256.Lawful
  p256FromSlice_toBytes : ∀ sk, S.p256FromSlice (S.p256.toBytes sk) = some sk
  ed25519 : S.ed25519.Lawful
  ed25519FromBytes_toBytes : ∀ sk, S.ed25519FromBytes (S.ed25519.toBytes sk) = sk
  mlDsa : K.mlDsa.Lawful

theorem SigningCrate.Lawful.verifies {Bytes : Type} {C : SignatureCrate Bytes} {S : SigningCrate C}
    (hS : S.Lawful) (sk : S.SigningKey) (data : List UInt8) :
    C.verifies (S.encodeKey (S.verifyingKey sk)) data (S.encodeSignature (S.sign sk data))
      = true := by
  rw [SignatureCrate.verifies, hS.decodeKey_encodeKey, hS.decodeSignature_encodeSignature]
  exact hS.verify_sign sk data

/-! ## Issuing -/

/-- A certificate paired with its private key material. -/
structure CertKeyPair where
  cert : ManagedCertificate
  privateKey : List UInt8
deriving DecidableEq, Repr

section

variable {K : ChainCrates} (S : IssueCrates K) (H : Sha256)

/-- A key the generator brings for the algorithm. -/
def DrawnKey : ChainCertAlgorithm → Type
  | .ecdsaP256 => S.p256.SigningKey
  | .ed25519 => S.ed25519.SigningKey
  | .mlDsa65 => K.mlDsa.SigningKey

/-- The encoded public key and the private key bytes. -/
def generateKeypair : (algorithm : ChainCertAlgorithm) → DrawnKey S algorithm →
    List UInt8 × List UInt8
  | .ecdsaP256, sk => (S.p256.encodeKey (S.p256.verifyingKey sk), S.p256.toBytes sk)
  | .ed25519, sk =>
    ((S.ed25519.encodeKey (S.ed25519.verifyingKey sk)).toList, (S.ed25519.toBytes sk).toList)
  | .mlDsa65, sk =>
    let kp := generateMlDsaKeypair K.mlDsa sk
    (kp.publicKey, kp.seed)

/-- Sign data with the specified algorithm using the given private key. -/
def signData : ChainCertAlgorithm → List UInt8 → List UInt8 → Checked (List UInt8)
  | .ecdsaP256, privateKey, data =>
    match S.p256FromSlice privateKey with
    | some sk => .ok (S.p256.encodeSignature (S.p256.sign sk data))
    | none => Checked.panicWith "valid ECDSA-P256 key"
  | .ed25519, privateKey, data =>
    match bytes32TryFrom privateKey with
    | some bytes =>
      .ok (S.ed25519.encodeSignature (S.ed25519.sign (S.ed25519FromBytes bytes) data))
    | none => Checked.panicWith "Ed25519 key must be 32 bytes"
  | .mlDsa65, privateKey, data =>
    match mlDsaSign K.mlDsa privateKey data with
    | .ok sig => .ok sig
    | .error _ => Checked.panicWith "ML-DSA-65 signing failed"

/-- What issuing a certificate reads: the clock, and what the generator draws. -/
structure Draws (algorithm : ChainCertAlgorithm) where
  now : UInt64
  serial : Vector UInt8 16
  key : DrawnKey S algorithm

variable {S} in
/-- A certificate that is not signed yet, with its private key. -/
def draftCert (subject issuer : String) (algorithm issuerAlgorithm : ChainCertAlgorithm)
    (validityDays : UInt64) (isCa : Bool) (draws : Draws S algorithm) : Checked CertKeyPair := do
  let lifetime ← Checked.checkedMul 64 validityDays.toNat 86400
  let notAfter ← Checked.checkedAdd 64 draws.now.toNat lifetime
  let (publicKey, privateKey) := generateKeypair S algorithm draws.key
  let cert : ManagedCertificate :=
    { subject
      issuer
      algorithm
      publicKey
      signature := []
      issuerAlgorithm
      notBefore := draws.now
      notAfter := UInt64.ofNat notAfter
      isCa
      fingerprint := computeFingerprint H publicKey
      serial := hexEncode draws.serial.toList }
  pure { cert, privateKey }

/-- `cert.signature = signature`. -/
def CertKeyPair.withSignature (draft : CertKeyPair) (signature : List UInt8) : CertKeyPair :=
  { draft with cert := { draft.cert with signature } }

/-- Sign a draft with the issuer's key. -/
def CertKeyPair.signWith (issuerAlgorithm : ChainCertAlgorithm) (issuerKey : List UInt8)
    (draft : CertKeyPair) : Checked CertKeyPair := do
  let signature ← signData S issuerAlgorithm issuerKey draft.cert.tbsBytes
  pure (draft.withSignature signature)

variable {S} in
/-- Create a self-signed root CA certificate. -/
def createRootCa (subject : String) (algorithm : ChainCertAlgorithm) (validityDays : UInt64)
    (draws : Draws S algorithm) : Checked CertKeyPair := do
  let draft ← draftCert H subject subject algorithm algorithm validityDays true draws
  draft.signWith S algorithm draft.privateKey

variable {S} in
/-- Create a certificate signed by an issuer. -/
def createSignedCert (subject : String) (algorithm : ChainCertAlgorithm) (issuerKp : CertKeyPair)
    (validityDays : UInt64) (isCa : Bool) (draws : Draws S algorithm) : Checked CertKeyPair := do
  let draft ← draftCert H subject issuerKp.cert.subject algorithm issuerKp.cert.algorithm
    validityDays isCa draws
  draft.signWith S issuerKp.cert.algorithm issuerKp.privateKey

/-- What one call of `create_signed_cert` is given, its issuer apart. -/
structure SignedCertArgs where
  subject : String
  algorithm : ChainCertAlgorithm
  validityDays : UInt64
  isCa : Bool
  draws : Draws S algorithm

variable {S} in
/-- Sign one certificate after the other, each with the key pair before it.  The newest is first. -/
def extendChain (issuerKp : CertKeyPair) (rest : List CertKeyPair) :
    List (SignedCertArgs S) → Checked (List CertKeyPair)
  | [] => .ok (issuerKp :: rest)
  | args :: more => do
    let kp ← createSignedCert H args.subject args.algorithm issuerKp args.validityDays args.isCa
      args.draws
    extendChain kp (issuerKp :: rest) more

variable {S} in
/-- A root, and a chain of certificates under it. -/
def issueChain (subject : String) (algorithm : ChainCertAlgorithm) (validityDays : UInt64)
    (draws : Draws S algorithm) (signed : List (SignedCertArgs S)) :
    Checked (List CertKeyPair) := do
  let rootKp ← createRootCa H subject algorithm validityDays draws
  extendChain H rootKp [] signed

end

/-! ## What is issued verifies -/

section

variable {K : ChainCrates} {S : IssueCrates K} (H : Sha256)

/-- The private key makes signatures that verify under the certificate's public key. -/
def KeyPaired (S : IssueCrates K) (kp : CertKeyPair) : Prop :=
  ∀ data, ∃ sig, signData S kp.cert.algorithm kp.privateKey data = .ok sig ∧
    verifySignature K kp.cert.algorithm kp.cert.publicKey data sig = true

/-- The time from the clock's reading on for this many days fits in 64 bits. -/
def Fits (now validityDays : UInt64) : Prop := now.toNat + validityDays.toNat * 86400 < 2 ^ 64

instance (now validityDays : UInt64) : Decidable (Fits now validityDays) :=
  inferInstanceAs (Decidable (_ < _))

/-- **Generated keys are a pair**, for each algorithm. -/
theorem signData_generateKeypair (hS : S.Lawful) (algorithm : ChainCertAlgorithm)
    (key : DrawnKey S algorithm) (data : List UInt8) :
    ∃ sig, signData S algorithm (generateKeypair S algorithm key).2 data = .ok sig ∧
      verifySignature K algorithm (generateKeypair S algorithm key).1 data sig = true := by
  cases algorithm with
  | ecdsaP256 =>
    have hread := hS.p256FromSlice_toBytes key
    refine ⟨S.p256.encodeSignature (S.p256.sign key data), ?_, hS.p256.verifies key data⟩
    simp only [signData, generateKeypair, hread]
  | ed25519 =>
    have hread := hS.ed25519FromBytes_toBytes key
    refine ⟨S.ed25519.encodeSignature (S.ed25519.sign key data), ?_, ?_⟩
    · simp only [signData, generateKeypair, bytes32TryFrom_toList, hread]
    · simp only [verifySignature, verifyEd25519, generateKeypair, bytes32TryFrom_toList,
        hS.ed25519.verifies key data]
  | mlDsa65 =>
    have hsign := mlDsaSign_generate hS.mlDsa key data
    refine ⟨_, ?_, mlDsaVerifies_of_sign hS.mlDsa hsign⟩
    simp only [signData, generateKeypair, hsign]

/-- **A draft that fits in time** has the fields it was asked for, and a key pair. -/
theorem draftCert_of_fits (hS : S.Lawful) (subject issuer : String)
    (issuerAlgorithm : ChainCertAlgorithm) (isCa : Bool) {algorithm : ChainCertAlgorithm}
    {validityDays : UInt64} {draws : Draws S algorithm} (hfits : Fits draws.now validityDays) :
    ∃ draft, draftCert H subject issuer algorithm issuerAlgorithm validityDays isCa draws
        = .ok draft ∧
      draft.cert.issuer = issuer ∧ draft.cert.algorithm = algorithm ∧
      draft.cert.issuerAlgorithm = issuerAlgorithm ∧ draft.cert.isCa = isCa ∧
      KeyPaired S draft := by
  have hmul : validityDays.toNat * 86400 < 2 ^ 64 := by
    unfold Fits at hfits
    omega
  rw [draftCert, Checked.checkedMul_of_lt hmul, Checked.ok_bind, Checked.checkedAdd_of_lt hfits,
    Checked.ok_bind]
  exact ⟨_, rfl, rfl, rfl, rfl, rfl, signData_generateKeypair hS algorithm draws.key⟩

/-- A certificate, newest first, is issued by the next one, and the newest can issue more. -/
structure WellIssued (S : IssueCrates K) (kp : CertKeyPair) (rest : List CertKeyPair) : Prop where
  key_paired : KeyPaired S kp
  issued : ((kp :: rest).map CertKeyPair.cert).IsChain (IssuedBy K)

/-- **Signing a draft with a key pair** makes a certificate that the key pair's issued. -/
theorem signWith_of_keyPaired {issuerKp draft : CertKeyPair} (hkey : KeyPaired S issuerKp)
    (halgorithm : draft.cert.issuerAlgorithm = issuerKp.cert.algorithm) :
    ∃ sig, draft.signWith S issuerKp.cert.algorithm issuerKp.privateKey
        = .ok (draft.withSignature sig) ∧
      TrustStore.signedBy K (draft.withSignature sig).cert issuerKp.cert = true := by
  obtain ⟨sig, hsign, hverify⟩ := hkey draft.cert.tbsBytes
  refine ⟨sig, ?_, ?_⟩
  · rw [CertKeyPair.signWith, hsign]
    rfl
  · rw [TrustStore.signedBy, CertKeyPair.withSignature, halgorithm]
    exact hverify

/-- **A root that fits in time** is a certificate authority that issued itself. -/
theorem createRootCa_of_fits (hS : S.Lawful) {subject : String} {algorithm : ChainCertAlgorithm}
    {validityDays : UInt64} {draws : Draws S algorithm} (hfits : Fits draws.now validityDays) :
    ∃ rootKp, createRootCa H subject algorithm validityDays draws = .ok rootKp ∧
      KeyPaired S rootKp ∧ rootKp.cert.isCa = true ∧
      TrustStore.signedBy K rootKp.cert rootKp.cert = true := by
  obtain ⟨draft, hdraft, -, halgorithm, hissuer, hca, hkey⟩ :=
    draftCert_of_fits H hS subject subject algorithm true hfits
  obtain ⟨sig, hsign, hsigned⟩ := signWith_of_keyPaired hkey (hissuer.trans halgorithm.symm)
  rw [halgorithm] at hsign
  refine ⟨draft.withSignature sig, ?_, hkey, hca, hsigned⟩
  rw [createRootCa, hdraft, Checked.ok_bind, hsign]

/-- **A certificate that fits in time** is issued by the key pair that signed it. -/
theorem createSignedCert_of_fits (hS : S.Lawful) {issuerKp : CertKeyPair}
    (hkey : KeyPaired S issuerKp) (hca : issuerKp.cert.isCa = true) {args : SignedCertArgs S}
    (hfits : Fits args.draws.now args.validityDays) :
    ∃ kp, createSignedCert H args.subject args.algorithm issuerKp args.validityDays args.isCa
        args.draws = .ok kp ∧
      KeyPaired S kp ∧ kp.cert.isCa = args.isCa ∧ IssuedBy K kp.cert issuerKp.cert := by
  obtain ⟨draft, hdraft, hissuer, -, halgorithm, hisCa, hpaired⟩ := draftCert_of_fits H hS
    args.subject issuerKp.cert.subject issuerKp.cert.algorithm args.isCa hfits
  obtain ⟨sig, hsign, hsigned⟩ := signWith_of_keyPaired hkey halgorithm
  refine ⟨draft.withSignature sig, ?_, hpaired, hisCa, hissuer, hca, hsigned⟩
  rw [createSignedCert, hdraft, Checked.ok_bind, hsign]

/-- **Issuing link by link keeps the chain well issued**, and its root. -/
theorem extendChain_of_fits (hS : S.Lawful) {signed : List (SignedCertArgs S)}
    (hfits : ∀ args ∈ signed, Fits args.draws.now args.validityDays)
    (hissuers : ∀ args ∈ signed.dropLast, args.isCa = true) {issuerKp : CertKeyPair}
    {rest : List CertKeyPair} (hissued : WellIssued S issuerKp rest)
    (hca : signed ≠ [] → issuerKp.cert.isCa = true) :
    ∃ pairs, extendChain H issuerKp rest signed = .ok pairs ∧
      (pairs.map CertKeyPair.cert).IsChain (IssuedBy K) ∧
      pairs.getLast? = (issuerKp :: rest).getLast? := by
  induction signed generalizing issuerKp rest with
  | nil => exact ⟨_, rfl, hissued.issued, rfl⟩
  | cons args signed ih =>
    obtain ⟨kp, hmade, hkey, hisCa, hby⟩ := createSignedCert_of_fits H hS hissued.key_paired
      (hca (List.cons_ne_nil _ _)) (hfits args List.mem_cons_self)
    have hnext : signed ≠ [] → kp.cert.isCa = true := by
      intro hmore
      rw [List.dropLast_cons_of_ne_nil hmore] at hissuers
      exact hisCa.trans (hissuers args List.mem_cons_self)
    have hwell : WellIssued S kp (issuerKp :: rest) :=
      ⟨hkey, List.isChain_cons_cons.mpr ⟨hby, hissued.issued⟩⟩
    obtain ⟨pairs, hpairs, hchain, hlast⟩ := ih
      (fun args' hargs => hfits args' (List.mem_cons_of_mem _ hargs))
      (fun args' hargs => hissuers args' (by
        rw [List.dropLast_cons_of_ne_nil (List.ne_nil_of_mem (List.mem_of_mem_dropLast hargs))]
        exact List.mem_cons_of_mem _ hargs)) hwell hnext
    refine ⟨pairs, ?_, hchain, by rw [hlast, List.getLast?_cons_cons]⟩
    rw [extendChain, hmade, Checked.ok_bind, hpairs]

/-- **Issued chains validate.**  A chain issued link by link under a root, every issuer a
certificate authority and every lifetime within 64 bits, is issued without a panic, and a store that
has its root, has revoked none of its serials and pinned none of its subjects accepts it while it is
in date. -/
theorem issueChain_valid (hS : S.Lawful) (subject : String) {algorithm : ChainCertAlgorithm}
    {validityDays : UInt64} {draws : Draws S algorithm} (hroot : Fits draws.now validityDays)
    {signed : List (SignedCertArgs S)}
    (hfits : ∀ args ∈ signed, Fits args.draws.now args.validityDays)
    (hissuers : ∀ args ∈ signed.dropLast, args.isCa = true) :
    ∃ pairs rootKp, issueChain H subject algorithm validityDays draws signed = .ok pairs ∧
      pairs.getLast? = some rootKp ∧
      ∀ (store : TrustStore) (clock : ℕ → UInt64),
        store.trustedRoots.get rootKp.cert.fingerprint = some rootKp.cert →
        (∀ kp ∈ pairs, kp.cert.serial ∉ store.revokedSerials) →
        (∀ kp ∈ pairs, store.pinnedFingerprints.get kp.cert.subject = none) →
        (∀ kp ∈ pairs, kp.cert.notBefore ≤ clock 0 ∧ clock 0 ≤ kp.cert.notAfter) →
        (store.validateChain K clock (pairs.map CertKeyPair.cert)).valid = true := by
  obtain ⟨rootKp, hmade, hkey, hca, hself⟩ := createRootCa_of_fits H hS hroot
  have hwell : WellIssued S rootKp [] := ⟨hkey, List.IsChain.singleton rootKp.cert⟩
  obtain ⟨pairs, hpairs, hchain, hlast⟩ :=
    extendChain_of_fits H hS hfits hissuers hwell fun _ => hca
  refine ⟨pairs, rootKp, ?_, hlast, fun store clock hget hrevoked hpins hdate => ?_⟩
  · rw [issueChain, hmade, Checked.ok_bind, hpairs]
  · have hmem : ∀ {P : ManagedCertificate → Prop}, (∀ kp ∈ pairs, P kp.cert) →
        ∀ cert ∈ pairs.map CertKeyPair.cert, P cert := fun h => List.forall_mem_map.mpr h
    have hlastCert : (pairs.map CertKeyPair.cert).getLast? = some rootKp.cert := by
      rw [List.getLast?_map, hlast]
      rfl
    refine valid_iff.mpr ⟨rootKp.cert, hlastCert, ⟨?_, hchain, fun _ => hself⟩, ?_, ?_⟩
    · exact hmem fun kp hkp => ⟨(hdate kp hkp).1, (hdate kp hkp).2, hrevoked kp hkp⟩
    · rw [hget]
      exact Option.some_ne_none _
    · refine hmem fun kp hkp pins hpin => ?_
      rw [hpins kp hkp] at hpin
      exact absurd hpin (Option.some_ne_none pins).symm

end

/-! ## A chain to compute with -/

/-- A crate whose keys are bytes and whose signatures are the key and the data. -/
def plainCrate {Bytes : Type} (toList : Bytes → List UInt8) : SignatureCrate Bytes where
  VerifyingKey := Bytes
  Signature := List UInt8
  decodeKey := some
  decodeSignature := some
  verify vk data signature := signature == toList vk ++ data

def plainSigning {Bytes : Type} (toList : Bytes → List UInt8) :
    SigningCrate (plainCrate toList) where
  SigningKey := Bytes
  toBytes := id
  verifyingKey := id
  encodeKey := id
  sign sk data := toList sk ++ data
  encodeSignature := id

theorem lawful_plainSigning {Bytes : Type} (toList : Bytes → List UInt8) :
    (plainSigning toList).Lawful where
  decodeKey_encodeKey _ := rfl
  decodeSignature_encodeSignature _ := rfl
  verify_sign _ _ := beq_self_eq_true _

/-- All three algorithms, plain. -/
def plainChainCrates : ChainCrates where
  p256 := plainCrate id
  ed25519 := plainCrate Vector.toList
  mlDsa := plainDsa

def plainIssueCrates : IssueCrates plainChainCrates where
  p256 := plainSigning id
  p256FromSlice := some
  ed25519 := plainSigning Vector.toList
  ed25519FromBytes := id

theorem lawful_plainIssueCrates : plainIssueCrates.Lawful where
  p256 := lawful_plainSigning id
  p256FromSlice_toBytes _ := rfl
  ed25519 := lawful_plainSigning Vector.toList
  ed25519FromBytes_toBytes _ := rfl
  mlDsa := lawful_plainDsa

/-- An intermediate authority and a leaf, under another algorithm each. -/
def hybridArgs : List (SignedCertArgs plainIssueCrates) :=
  [⟨"Intermediate CA", .ed25519, 1825, true, 10, .replicate 16 2,
      (.replicate 32 2 : Vector UInt8 32)⟩,
    ⟨"Leaf Server", .mlDsa65, 365, false, 20, .replicate 16 3,
      (.replicate 32 3 : Vector UInt8 32)⟩]

/-- A root key for them. -/
def hybridDraws : Draws plainIssueCrates .ecdsaP256 := ⟨0, .replicate 16 1, ([1] : List UInt8)⟩

/-- ECDSA-P256, then Ed25519, then ML-DSA-65. -/
theorem hybridChain_valid :
    ∃ pairs rootKp,
      issueChain headDigest "Root CA" .ecdsaP256 3650 hybridDraws hybridArgs = .ok pairs ∧
      pairs.getLast? = some rootKp ∧
      (((TrustStore.new 30).addTrustedRoot rootKp.cert).validateChain plainChainCrates (fun _ => 20)
        (pairs.map CertKeyPair.cert)).valid = true := by
  have hroot : Fits hybridDraws.now 3650 := by decide
  have hfits : ∀ args ∈ hybridArgs, Fits args.draws.now args.validityDays := by decide
  obtain ⟨pairs, rootKp, hpairs, hlast, hvalid⟩ := issueChain_valid headDigest
    lawful_plainIssueCrates "Root CA" hroot hfits (by decide)
  have hdates :
      (issueChain headDigest "Root CA" .ecdsaP256 3650 hybridDraws hybridArgs).toOption.map
        (List.all · fun kp => kp.cert.notBefore ≤ 20 ∧ 20 ≤ kp.cert.notAfter) = some true := by
    decide
  refine ⟨pairs, rootKp, hpairs, hlast, hvalid _ _ ?_ ?_ ?_ ?_⟩
  · exact EntryMap.get_insert_self _ _ _
  · exact fun _ _ => Finset.notMem_empty _
  · exact fun _ _ => rfl
  · rw [hpairs] at hdates
    simpa [Except.toOption] using hdates

end PqcGateway
