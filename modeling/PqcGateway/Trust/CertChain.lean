import PqcGateway.Crypto.Primitives
import PqcGateway.Machinery.EntryMap
import Mathlib.Data.Finset.Basic

/-!
# Trust/CertChain — certificates and the trust store

`TrustStore.validateChain` walks a chain from the leaf to the root, collects every error in the
order it finds them, and accepts when there is none.  The signature crates are parameters
(`ChainCrates`); the clock is read once for the validation and once for each certificate's expiry
warning, so a validation takes a sequence of readings.

* `tbsBytes` / `signedBy` — what an issuer signs, and that it did.
* `linkErrors` / `rootErrors` — what is asked of two neighbours, and of the last certificate.
-/

namespace PqcGateway

/-! ## Certificates -/

/-- Cryptographic algorithm used by a certificate. -/
inductive ChainCertAlgorithm
  | ecdsaP256
  | ed25519
  | mlDsa65
deriving DecidableEq, Repr

/-- A certificate with full metadata for chain validation. -/
structure ManagedCertificate where
  subject : String
  issuer : String
  algorithm : ChainCertAlgorithm
  publicKey : List UInt8
  signature : List UInt8
  issuerAlgorithm : ChainCertAlgorithm
  notBefore : UInt64
  notAfter : UInt64
  isCa : Bool
  fingerprint : String
  serial : String
deriving DecidableEq, Repr

namespace ManagedCertificate

/-- The bytes the issuer signs. -/
def tbsBytes (cert : ManagedCertificate) : List UInt8 :=
  Text.asBytes cert.subject ++ [0] ++ Text.asBytes cert.issuer ++ [0] ++ toLeBytes cert.notBefore
    ++ toLeBytes cert.notAfter ++ cert.publicKey ++ [cert.isCa.toUInt8] ++ Text.asBytes cert.serial

/-- Check if the certificate is self-signed: it names itself as its issuer. -/
def isSelfSigned (cert : ManagedCertificate) : Bool := cert.subject == cert.issuer

/-- Days until expiry, at the clock reading `now`; 0 if already expired. -/
def daysUntilExpiry (now : UInt64) (cert : ManagedCertificate) : UInt64 :=
  if now ≥ cert.notAfter then 0 else (cert.notAfter - now) / 86400

end ManagedCertificate

/-! ## Signatures

A crate takes keys and signatures as bytes, and what does not decode does not verify. -/

/-- A signature crate's verifier: decoders that may refuse, and the check. -/
structure SignatureCrate (Bytes : Type) where
  VerifyingKey : Type
  Signature : Type
  decodeKey : Bytes → Option VerifyingKey
  decodeSignature : List UInt8 → Option Signature
  verify : VerifyingKey → List UInt8 → Signature → Bool

/-- The crates a chain validation calls. -/
structure ChainCrates where
  p256 : SignatureCrate (List UInt8)
  ed25519 : SignatureCrate (Vector UInt8 32)
  mlDsa : MlDsa

section

variable (K : ChainCrates)

/-- Verify with a crate; what does not decode does not verify. -/
def SignatureCrate.verifies {Bytes : Type} (C : SignatureCrate Bytes) (publicKey : Bytes)
    (data signature : List UInt8) : Bool :=
  match C.decodeKey publicKey, C.decodeSignature signature with
  | some vk, some sig => C.verify vk data sig
  | _, _ => false

def verifyEcdsaP256 (publicKey data signature : List UInt8) : Bool :=
  K.p256.verifies publicKey data signature

def verifyEd25519 (publicKey data signature : List UInt8) : Bool :=
  match bytes32TryFrom publicKey with
  | some bytes => K.ed25519.verifies bytes data signature
  | none => false

def verifyMldsa65 (publicKey data signature : List UInt8) : Bool :=
  mlDsaVerifies K.mlDsa publicKey data signature

/-- Verify a signature using the specified algorithm. -/
def verifySignature : ChainCertAlgorithm → List UInt8 → List UInt8 → List UInt8 → Bool
  | .ecdsaP256 => verifyEcdsaP256 K
  | .ed25519 => verifyEd25519 K
  | .mlDsa65 => verifyMldsa65 K

end

/-- SHA-256 fingerprint of a public key: sixteen bytes in hexadecimal, with colons between. -/
def computeFingerprint (H : Sha256) (publicKey : List UInt8) : String :=
  String.intercalate ":"
    (((H publicKey).toList.take 16).map fun b => String.ofList (Text.hexPair b))

/-! ## The trust store -/

/-- Errors that can occur during chain validation. -/
inductive ChainValidationError
  | emptyChain
  | expiredCertificate (subject : String) (expiredAt : UInt64)
  | notYetValid (subject : String) (validFrom : UInt64)
  | untrustedRoot (subject : String)
  | revokedCertificate (subject serial : String)
  | pinningViolation (subject fingerprint : String)
  | signatureVerificationFailed (subject issuer : String)
  | chainBroken (expectedIssuer gotSubject : String)
  | nonCaSignedChild (subject : String)
deriving DecidableEq, Repr

/-- Full result of chain validation. -/
structure ChainValidationResult where
  valid : Bool
  errors : List ChainValidationError
  warnings : List String
  chainLength : ℕ
  algorithmsUsed : List ChainCertAlgorithm
deriving DecidableEq, Repr

/-- Certificate trust store with revocation list, pinning, and expiry management. -/
structure TrustStore where
  trustedRoots : EntryMap String ManagedCertificate
  revokedSerials : Finset String
  pinnedFingerprints : EntryMap String (Finset String)
  expiryWarningDays : UInt32

/-- `vec![e]` when the check fails. -/
def errorIf (p : Prop) [Decidable p] (e : ChainValidationError) : List ChainValidationError :=
  if p then [e] else []

namespace TrustStore

/-- Create a new empty trust store. -/
def new (expiryWarningDays : UInt32) : TrustStore := ⟨.new, ∅, .new, expiryWarningDays⟩

/-- Add a trusted root certificate, under the fingerprint it carries. -/
def addTrustedRoot (store : TrustStore) (cert : ManagedCertificate) : TrustStore :=
  { store with trustedRoots := store.trustedRoots.insert cert.fingerprint cert }

/-- Remove a trusted root by fingerprint, and say whether there was one. -/
def removeTrustedRoot (store : TrustStore) (fingerprint : String) : TrustStore × Bool :=
  ({ store with trustedRoots := store.trustedRoots.remove fingerprint },
    (store.trustedRoots.get fingerprint).isSome)

/-- Mark a certificate serial as revoked. -/
def revokeCertificate (store : TrustStore) (serial : String) : TrustStore :=
  { store with revokedSerials := insert serial store.revokedSerials }

/-- Remove revocation for a serial. -/
def unrevokeCertificate (store : TrustStore) (serial : String) : TrustStore :=
  { store with revokedSerials := store.revokedSerials.erase serial }

/-- Pin a certificate fingerprint for a subject. -/
def pinCertificate (store : TrustStore) (subject fingerprint : String) : TrustStore :=
  let pins := (store.pinnedFingerprints.get subject).getD ∅
  { store with
    pinnedFingerprints := store.pinnedFingerprints.insert subject (insert fingerprint pins) }

/-- Remove a pinned fingerprint for a subject; a subject without pins is dropped. -/
def unpinCertificate (store : TrustStore) (subject fingerprint : String) : TrustStore :=
  match store.pinnedFingerprints.get subject with
  | none => store
  | some pins =>
    let pins := pins.erase fingerprint
    { store with
      pinnedFingerprints :=
        if pins = ∅ then store.pinnedFingerprints.remove subject
        else store.pinnedFingerprints.insert subject pins }

/-- Check if a serial is revoked. -/
def isRevoked (store : TrustStore) (serial : String) : Bool := serial ∈ store.revokedSerials

/-- Check expiry warnings for a certificate. -/
def checkExpiryWarnings (store : TrustStore) (now : UInt64) (cert : ManagedCertificate) :
    List String :=
  let days := cert.daysUntilExpiry now
  if days = 0 then
    ["Certificate '" ++ cert.subject ++ "' has EXPIRED (expired at " ++
      toString cert.notAfter.toNat ++ ")"]
  else if days ≤ store.expiryWarningDays.toUInt64 then
    ["Certificate '" ++ cert.subject ++ "' expires in " ++ toString days.toNat ++
      " days — consider rotation"]
  else []

/-- The pins of the certificate's subject refuse the fingerprint it carries. -/
def violatesPins (store : TrustStore) (cert : ManagedCertificate) : Bool :=
  match store.pinnedFingerprints.get cert.subject with
  | some pins => decide (cert.fingerprint ∉ pins)
  | none => false

/-- What the loop finds in one certificate: time, revocation, pinning. -/
def certErrors (store : TrustStore) (now : UInt64) (cert : ManagedCertificate) :
    List ChainValidationError :=
  errorIf (now < cert.notBefore) (.notYetValid cert.subject cert.notBefore)
    ++ errorIf (now > cert.notAfter) (.expiredCertificate cert.subject cert.notAfter)
    ++ errorIf (store.isRevoked cert.serial) (.revokedCertificate cert.subject cert.serial)
    ++ errorIf (store.violatesPins cert) (.pinningViolation cert.subject cert.fingerprint)

/-- The issuer's key made the certificate's signature. -/
def signedBy (K : ChainCrates) (cert issuerCert : ManagedCertificate) : Bool :=
  verifySignature K cert.issuerAlgorithm issuerCert.publicKey cert.tbsBytes cert.signature

/-- What the loop finds between a certificate and the next: linkage, CA flag, signature. -/
def linkErrors (K : ChainCrates) (cert issuerCert : ManagedCertificate) :
    List ChainValidationError :=
  errorIf (cert.issuer ≠ issuerCert.subject) (.chainBroken cert.issuer issuerCert.subject)
    ++ errorIf (!issuerCert.isCa) (.nonCaSignedChild issuerCert.subject)
    ++ errorIf (!signedBy K cert issuerCert)
        (.signatureVerificationFailed cert.subject issuerCert.subject)

/-- The errors of the loop over the chain.  The last certificate has no link. -/
def loopErrors (K : ChainCrates) (store : TrustStore) (now : UInt64) :
    List ManagedCertificate → List ChainValidationError
  | [] => []
  | [root] => store.certErrors now root
  | cert :: issuerCert :: rest =>
    store.certErrors now cert ++ linkErrors K cert issuerCert
      ++ loopErrors K store now (issuerCert :: rest)

/-- The errors of the last certificate: a self-signature that fails, a fingerprint that is not a
trusted root's. -/
def rootErrors (K : ChainCrates) (store : TrustStore) (root : ManagedCertificate) :
    List ChainValidationError :=
  let untrusted :=
    errorIf (store.trustedRoots.get root.fingerprint = none) (.untrustedRoot root.subject)
  if root.isSelfSigned then
    errorIf (!signedBy K root root) (.signatureVerificationFailed root.subject root.issuer)
      ++ untrusted
  else untrusted

/-- The algorithms in the order they are first seen. -/
def algorithmsUsed (chain : List ManagedCertificate) : List ChainCertAlgorithm :=
  chain.foldl (fun used cert => if cert.algorithm ∈ used then used else used ++ [cert.algorithm]) []

/-- Validate a certificate chain from leaf to root.  `clock 0` is the time of the validation and
`clock (i + 1)` the reading for the warnings of certificate `i`. -/
def validateChain (K : ChainCrates) (store : TrustStore) (clock : ℕ → UInt64)
    (chain : List ManagedCertificate) : ChainValidationResult :=
  match chain.getLast? with
  | none =>
    { valid := false
      errors := [.emptyChain]
      warnings := []
      chainLength := 0
      algorithmsUsed := [] }
  | some root =>
    let errors := loopErrors K store (clock 0) chain ++ rootErrors K store root
    { valid := errors.isEmpty
      errors
      warnings := chain.zipIdx.flatMap fun p => store.checkExpiryWarnings (clock (p.2 + 1)) p.1
      chainLength := chain.length
      algorithmsUsed := algorithmsUsed chain }

end TrustStore

end PqcGateway
