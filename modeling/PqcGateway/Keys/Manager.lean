import PqcGateway.Machinery.EntryMap
import PqcGateway.Machinery.Runs
import PqcGateway.Threshold.Codes

/-!
# Keys/Manager — the versioned signing keys

`VersionedKeyManager` keeps a bounded number of signing keys: `rotate` makes a new current key and
prunes the oldest, `signCurrent` signs with the current key and `verifyByKid` verifies under any key
still held.  Every method runs under one lock, so the manager is a `Machine` whose calls are the
methods that sign and rotate (`keyMachine`).

What the system delivers — key material, the clock, random bytes, the order of a walk over a hash
map — is an argument of the call that asks for it.
-/

namespace PqcGateway

/-! ## One key -/

/-- A single versioned signing key. -/
structure KeyVersion where
  kid : String
  version : ℕ
  seed : List UInt8
  publicKey : List UInt8
  createdAt : ℕ
  active : Bool
  fingerprint : String
deriving DecidableEq, Repr

/-- What the system delivers when a key is made: the generated signing key, and the seconds on the
clock. -/
structure KeyDraw (D : MlDsa) where
  signingKey : D.SigningKey
  now : ℕ

/-- The unpadded URL-safe base64 encoder. -/
abbrev Base64Url : Type := List UInt8 → String

/-- A key in the JWKS document. -/
structure Jwk where
  kty : String
  alg : String
  kid : String
  use : String
  x : String
  fingerprint : String
  createdAt : ℕ
  active : Bool
  version : ℕ
deriving DecidableEq, Repr

namespace KeyVersion

/-- Make the key with this version number. -/
def new (D : MlDsa) (H : Sha256) (version : ℕ) (draw : KeyDraw D) : Checked KeyVersion := do
  let kp := generateMlDsaKeypair D draw.signingKey
  let fingerprint := keyFingerprint H kp.publicKey
  let short ← Text.slice fingerprint 0 8
  let kid := "mldsa-v" ++ toString version ++ "-" ++ short
  pure
    { kid
      version
      seed := kp.seed
      publicKey := kp.publicKey
      createdAt := draw.now
      active := true
      fingerprint }

/-- Sign data with this key version. -/
def sign (D : MlDsa) (key : KeyVersion) (data : List UInt8) : Option (List UInt8) :=
  (mlDsaSign D key.seed data).toOption

/-- Verify a signature with this key's public key. -/
def verify (D : MlDsa) (key : KeyVersion) (data signature : List UInt8) : Bool :=
  mlDsaVerifies D key.publicKey data signature

/-- Convert to a JWKS entry. -/
def toJwk (b64url : Base64Url) (key : KeyVersion) : Jwk where
  kty := "PQC"
  alg := "ML-DSA-65"
  kid := key.kid
  use := "sig"
  x := b64url key.publicKey
  fingerprint := key.fingerprint
  createdAt := key.createdAt
  active := key.active
  version := key.version

/-- The key, no longer used for signing. -/
def retire (key : KeyVersion) : KeyVersion := { key with active := false }

end KeyVersion

/-! ## The manager -/

/-- Multiple key versions with rotation support: what the lock protects. -/
structure VersionedKeyManager where
  keys : EntryMap String KeyVersion
  currentKid : String
  nextVersion : ℕ
  maxRetainedKeys : ℕ
  thresholdConfig : Option SharingConfig
  currentShares : Option (List Share)
  recoveryCodes : Option (List String)

/-- What the system delivers to one rotation. -/
structure RotateDraw (D : MlDsa) extends KeyDraw D where
  rng : OsRng
  order : WalkOrder String KeyVersion

namespace VersionedKeyManager

variable (D : MlDsa) (H : Sha256)

/-- Create a new manager with an initial key. -/
def new (maxRetainedKeys : ℕ) (draw : KeyDraw D) : Checked VersionedKeyManager := do
  let initialKey ← KeyVersion.new D H 1 draw
  pure
    { keys := EntryMap.new.insert initialKey.kid initialKey
      currentKid := initialKey.kid
      nextVersion := 2
      maxRetainedKeys
      thresholdConfig := none
      currentShares := none
      recoveryCodes := none }

/-- Split the key's seed into the shares and recovery codes the manager hands out. -/
def shareKey (rng : OsRng) (config : SharingConfig) (key : KeyVersion)
    (mgr : VersionedKeyManager) : Checked VersionedKeyManager := do
  let shares ← splitSecret rng key.seed config
  let codes := generateRecoveryCodes shares
  pure { mgr with currentShares := some shares, recoveryCodes := some codes }

/-- Create a manager with threshold key management. -/
def withThreshold (maxRetainedKeys : ℕ) (threshold totalShares : UInt8) (draw : KeyDraw D)
    (rng : OsRng) : Checked VersionedKeyManager := do
  let mgr ← new D H maxRetainedKeys draw
  let config ← SharingConfig.new threshold totalShares
  let mgr := { mgr with thresholdConfig := some config }
  match mgr.keys.get mgr.currentKid with
  | some current => shareKey rng config current mgr
  | none => pure mgr

/-- Clear the `active` flag of the key, if it is there. -/
def deactivate (keys : EntryMap String KeyVersion) (kid : String) : EntryMap String KeyVersion :=
  match keys.get kid with
  | some old => keys.insert kid old.retire
  | none => keys

/-- The loop that removes the oldest keys while there are more than `limit`. -/
def pruneLoop (limit : ℕ) :
    EntryMap String KeyVersion → List (String × ℕ) → EntryMap String KeyVersion
  | keys, [] => keys
  | keys, (oldKid, _) :: versions =>
    if limit < keys.len then pruneLoop limit (keys.remove oldKid) versions else keys

/-- Prune old keys if there are more than `max + 1`.  The sort is by version, and stable. -/
def prune (order : WalkOrder String KeyVersion) (max : ℕ) (currentKid : String)
    (keys : EntryMap String KeyVersion) : Checked (EntryMap String KeyVersion) := do
  let limit ← Checked.checkedAdd 64 max 1
  if limit < keys.len then
    let old := (keys.iter order).filter fun e => e.1 ≠ currentKid
    let versions := (old.map fun e => (e.1, e.2.version)).mergeSort fun a b => a.2 ≤ b.2
    pure (pruneLoop limit keys versions)
  else pure keys

/-- Set up the new key's shares, if a configuration asks for them. -/
def shareNewKey (rng : OsRng) (newKey : KeyVersion) (mgr : VersionedKeyManager) :
    Checked VersionedKeyManager :=
  match mgr.thresholdConfig with
  | some config => shareKey rng config newKey mgr
  | none => pure mgr

/-- Rotate to a new key version, whose kid is the answer. -/
def rotate (draw : RotateDraw D) (mgr : VersionedKeyManager) :
    Checked (VersionedKeyManager × String) := do
  let version := mgr.nextVersion
  let nextVersion ← Checked.checkedAdd 64 mgr.nextVersion 1
  let mgr := { mgr with nextVersion, keys := deactivate mgr.keys mgr.currentKid }
  let newKey ← KeyVersion.new D H version draw.toKeyDraw
  let mgr ← shareNewKey draw.rng newKey mgr
  let mgr := { mgr with keys := mgr.keys.insert newKey.kid newKey, currentKid := newKey.kid }
  let keys ← prune draw.order mgr.maxRetainedKeys mgr.currentKid mgr.keys
  pure ({ mgr with keys }, newKey.kid)

/-- Sign data with the current key. -/
def signCurrent (mgr : VersionedKeyManager) (data : List UInt8) :
    Option (String × List UInt8) := do
  let key ← mgr.keys.get mgr.currentKid
  let sig ← key.sign D data
  pure (key.kid, sig)

/-- Verify a signature using the key identified by kid. -/
def verifyByKid (mgr : VersionedKeyManager) (kid : String) (data signature : List UInt8) : Bool :=
  match mgr.keys.get kid with
  | some key => key.verify D data signature
  | none => false

/-- The current key's seed. -/
def currentSeed (mgr : VersionedKeyManager) : List UInt8 :=
  ((mgr.keys.get mgr.currentKid).map KeyVersion.seed).getD []

/-- The JWKS document: the entry of every key held. -/
def jwks (b64url : Base64Url) (order : WalkOrder String KeyVersion) (mgr : VersionedKeyManager) :
    List Jwk :=
  (mgr.keys.iter order).map fun e => e.2.toJwk b64url

end VersionedKeyManager

/-! ## The calls -/

/-- A call that signs or rotates. -/
inductive KeyCall (D : MlDsa)
  | signCurrent (data : List UInt8)
  | rotate (draw : RotateDraw D)

/-- What it answers. -/
inductive KeyAnswer
  | signed (result : Option (String × List UInt8))
  | rotated (kid : String)

/-- Whether the call is a rotation. -/
def KeyCall.isRotate {D : MlDsa} : KeyCall D → Bool
  | .signCurrent _ => false
  | .rotate _ => true

/-- How many rotations there are among the calls. -/
def rotations {D : MlDsa} (calls : List (KeyCall D)) : ℕ := calls.countP KeyCall.isRotate

/-- **The key manager**, one call at a time. -/
def keyMachine (D : MlDsa) (H : Sha256) :
    Machine VersionedKeyManager (KeyCall D) KeyAnswer where
  step mgr
    | .signCurrent data => pure (mgr, .signed (mgr.signCurrent D data))
    | .rotate draw => do
      let (mgr, kid) ← mgr.rotate D H draw
      pure (mgr, .rotated kid)

/-- A manager as one of the two constructors returns it. -/
def Started (D : MlDsa) (H : Sha256) (maxRetainedKeys : ℕ) (mgr : VersionedKeyManager) : Prop :=
  (∃ draw, VersionedKeyManager.new D H maxRetainedKeys draw = .ok mgr) ∨
    ∃ threshold totalShares draw rng,
      VersionedKeyManager.withThreshold D H maxRetainedKeys threshold totalShares draw rng = .ok mgr

/-- A rotation to compute with. -/
def plainDraw : RotateDraw plainDsa where
  signingKey := (Vector.replicate 32 7 : Vector UInt8 32)
  now := 0
  rng _ _ := 5
  order := .listed _ _

end PqcGateway
