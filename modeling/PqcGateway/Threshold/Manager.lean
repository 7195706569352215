import PqcGateway.Threshold.Codes

/-!
# Threshold/Manager — a signing key held in shares

`ThresholdKeyManager` keeps only the shares of its seed: a quorum of them signs, and a quorum of
recovery codes gives a new manager with another split.  `HoldsKey sk mgr` says that `mgr` is a
manager of the key `sk`; recovery keeps it (`recoverFromCodes_holdsKey`), so the key survives any
chain of recoveries (`recoveryChain_keeps_key`).

* `signWithQuorum_holdsKey` — a quorum signs, under the manager's public key.
* `recoverFromCodes_holdsKey` — recovery succeeds, under any valid configuration, and keeps the key.
-/

namespace PqcGateway

/-! ## The manager -/

/-- Stateful manager for threshold key operations. -/
structure ThresholdKeyManager where
  publicKey : List UInt8
  distributedShares : List Share
  config : SharingConfig
  recoveryCodes : List String
  fingerprint : String
  signatureCount : ℕ
deriving DecidableEq, Repr

namespace ThresholdKeyManager

variable (D : MlDsa) (H : Sha256)

/-- Create a manager for the fresh key `sk`. -/
def new (config : SharingConfig) (sk : D.SigningKey) (rng : OsRng) :
    Checked ThresholdKeyManager := do
  let kp := generateMlDsaKeypair D sk
  let shares ← splitSecret rng kp.seed config
  let recoveryCodes := generateRecoveryCodes shares
  pure
    { publicKey := kp.publicKey
      distributedShares := shares
      config
      recoveryCodes
      fingerprint := keyFingerprint H kp.publicKey
      signatureCount := 0 }

/-- Get a specific share by ID. -/
def getShare (mgr : ThresholdKeyManager) (id : UInt8) : Option Share :=
  mgr.distributedShares.find? fun s => s.id == id

/-- Sign a message using a quorum of shares, by share IDs; `none` if there are too few. -/
def signWithQuorum (mgr : ThresholdKeyManager) (shareIds message : List UInt8) :
    Checked (ThresholdKeyManager × Option (List UInt8)) :=
  if shareIds.length < mgr.config.threshold.toNat then pure (mgr, none) else
  let shares := shareIds.filterMap mgr.getShare
  if shares.length < mgr.config.threshold.toNat then pure (mgr, none) else do
  let seed ← reconstructSecret shares
  match mlDsaSign D seed message with
  | .ok sig => do
    let signatureCount ← Checked.checkedAdd 64 mgr.signatureCount 1
    pure ({ mgr with signatureCount }, some sig)
  | .error _ => pure (mgr, none)

/-- Verify a signature against this manager's public key. -/
def verify (mgr : ThresholdKeyManager) (message signature : List UInt8) : Bool :=
  mlDsaVerifies D mgr.publicKey message signature

/-- The second half of a recovery: regenerate the key pair and split the seed again. -/
def recoverFromSeed (seed : List UInt8) (config : SharingConfig) (rng : OsRng) :
    Fallible ThresholdKeyManager :=
  match bytes32TryFrom seed with
  | none => throw "Invalid recovered seed length"
  | some seedArr => do
    let vk := D.verifyingKey (D.fromSeed seedArr)
    let publicKey := D.encodeKey vk
    let newShares ← splitSecret rng seed config
    let recoveryCodes := generateRecoveryCodes newShares
    pure
      { publicKey
        distributedShares := newShares
        config
        recoveryCodes
        fingerprint := keyFingerprint H publicKey
        signatureCount := 0 }

/-- A new manager with the same key material, from recovery codes and another configuration. -/
def recoverFromCodes (codes : List String) (config : SharingConfig) (rng : OsRng) :
    Fallible ThresholdKeyManager := do
  let shares ← codes.mapM parseRecoveryCode
  let seed ← reconstructSecret shares
  recoverFromSeed D H seed config rng

/-- Recovering a manager recovers the seed first. -/
theorem recoverFromCodes_eq_bind (codes : List String) (config : SharingConfig) (rng : OsRng) :
    recoverFromCodes D H codes config rng
      = PqcGateway.recoverFromCodes codes >>= fun seed => recoverFromSeed D H seed config rng := by
  rw [PqcGateway.recoverFromCodes, bind_assoc]
  rfl

end ThresholdKeyManager

/-! ## Quorums

`signWithQuorum` looks its indices up in the order they are given in. -/

namespace IsSharing

variable {config : SharingConfig} {secret : List UInt8} {out : List Share}

/-- **The shares found under a list of indices** are shares of the split, in the list's order. -/
theorem filterMap_find (h : IsSharing config secret out) {ids : List UInt8}
    (hids : ∀ id ∈ ids, id ∈ shareIds config) :
    (ids.filterMap fun id => out.find? fun s => s.id == id) ⊆ out ∧
      (ids.filterMap fun id => out.find? fun s => s.id == id).map Share.id = ids := by
  induction ids with
  | nil => exact ⟨List.nil_subset _, rfl⟩
  | cons id ids ih =>
    obtain ⟨hsub, hmap⟩ := ih fun i hi => hids i (List.mem_cons_of_mem id hi)
    have hmem : id ∈ out.map Share.id := h.map_id ▸ hids id List.mem_cons_self
    obtain ⟨share, hshare, hid⟩ := List.mem_map.mp hmem
    have hsome : (out.find? fun s => s.id == id).isSome :=
      List.find?_isSome.mpr ⟨share, hshare, by rw [hid, beq_self_eq_true]⟩
    obtain ⟨found, hfound⟩ := Option.isSome_iff_exists.mp hsome
    rw [List.filterMap_cons_some (f := fun id => out.find? fun s => s.id == id) hfound]
    refine ⟨List.cons_subset.mpr ⟨List.mem_of_find?_eq_some hfound, hsub⟩, ?_⟩
    have hfoundId := List.find?_some hfound
    rw [List.map_cons, hmap, eq_of_beq hfoundId]

/-- **A quorum of different indices reconstructs the secret.** -/
theorem reconstructSecret_find (h : IsSharing config secret out) {ids : List UInt8}
    (hids : ∀ id ∈ ids, id ∈ shareIds config) (hnodup : ids.Nodup)
    (hlen : config.threshold.toNat ≤ ids.length) :
    PqcGateway.reconstructSecret (ids.filterMap fun id => out.find? fun s => s.id == id)
      = .ok secret := by
  obtain ⟨hsub, hmap⟩ := h.filterMap_find hids
  refine h.reconstructSecret hsub (.of_map Share.id (by rwa [hmap])) ?_
  rwa [← List.length_map Share.id, hmap]

end IsSharing

/-! ## Managers of one key -/

section

variable {D : MlDsa} {H : Sha256} {sk : D.SigningKey}

/-- The manager holds the key `sk`, in shares made under its own configuration. -/
structure HoldsKey (D : MlDsa) (H : Sha256) (sk : D.SigningKey) (mgr : ThresholdKeyManager) :
    Prop where
  publicKey_eq : mgr.publicKey = (generateMlDsaKeypair D sk).publicKey
  fingerprint_eq : mgr.fingerprint = keyFingerprint H (generateMlDsaKeypair D sk).publicKey
  sharing : IsSharing mgr.config (generateMlDsaKeypair D sk).seed mgr.distributedShares
  codes_eq : mgr.recoveryCodes = generateRecoveryCodes mgr.distributedShares
  count_eq : mgr.signatureCount = 0

/-- Codes that recover a manager: enough different ones of its own. -/
structure IsCodeQuorum (mgr : ThresholdKeyManager) (codes : List String) : Prop where
  subset : codes ⊆ mgr.recoveryCodes
  nodup : codes.Nodup
  enough : mgr.config.threshold.toNat ≤ codes.length

/-- Indices that sign: enough different ones in range. -/
structure IsQuorum (mgr : ThresholdKeyManager) (ids : List UInt8) : Prop where
  in_range : ∀ id ∈ ids, 1 ≤ id ∧ id ≤ mgr.config.totalShares
  nodup : ids.Nodup
  enough : mgr.config.threshold.toNat ≤ ids.length

/-- Under a threshold of at least one a manager is made. -/
theorem exists_new (D : MlDsa) (H : Sha256) (sk : D.SigningKey) (config : SharingConfig)
    (ht : 1 ≤ config.threshold.toNat) (rng : OsRng) :
    ∃ mgr, ThresholdKeyManager.new D H config sk rng = .ok mgr ∧ mgr.config = config := by
  have hseed : (generateMlDsaKeypair D sk).seed ≠ [] := List.ne_nil_of_length_pos (by
    simp [generateMlDsaKeypair])
  obtain ⟨out, hsplit, -⟩ := exists_isSharing ht hseed rng
  let kp := generateMlDsaKeypair D sk
  refine ⟨⟨kp.publicKey, out, config, generateRecoveryCodes out, keyFingerprint H kp.publicKey, 0⟩,
    ?_, rfl⟩
  rw [ThresholdKeyManager.new]
  simp only [hsplit, Checked.ok_bind]
  rfl

theorem new_holdsKey {config : SharingConfig} {rng : OsRng} {mgr : ThresholdKeyManager}
    (h : ThresholdKeyManager.new D H config sk rng = .ok mgr) : HoldsKey D H sk mgr := by
  obtain ⟨shares, hsplit, h⟩ := Checked.bind_eq_ok.mp h
  obtain rfl := Except.ok.inj h
  exact ⟨rfl, rfl, isSharing_of_splitSecret hsplit, rfl, rfl⟩

/-- All codes of a manager are a quorum, if there are enough. -/
theorem HoldsKey.isCodeQuorum {mgr : ThresholdKeyManager} (h : HoldsKey D H sk mgr)
    (hle : mgr.config.threshold ≤ mgr.config.totalShares) :
    IsCodeQuorum mgr mgr.recoveryCodes where
  subset := List.Subset.refl _
  nodup := h.codes_eq ▸ h.sharing.nodup_generateRecoveryCodes
  enough := by
    rw [h.codes_eq, h.sharing.length_generateRecoveryCodes]
    exact UInt8.le_iff_toNat_le.mp hle

/-- **Recovery succeeds and keeps the key.** -/
theorem recoverFromCodes_holdsKey (hD : D.Lawful) {mgr : ThresholdKeyManager}
    (h : HoldsKey D H sk mgr) {codes : List String} (hcodes : IsCodeQuorum mgr codes)
    {config : SharingConfig} (hconfig : config.Valid) (rng : OsRng) :
    ∃ next, ThresholdKeyManager.recoverFromCodes D H codes config rng = pure next ∧
      HoldsKey D H sk next ∧ next.config = config := by
  have hsub : codes ⊆ generateRecoveryCodes mgr.distributedShares := h.codes_eq ▸ hcodes.subset
  have hseed := h.sharing.recoverFromCodes hsub hcodes.nodup hcodes.enough
  obtain ⟨out, hsplit, hout⟩ := exists_isSharing hconfig.one_le h.sharing.nonempty rng
  let kp := generateMlDsaKeypair D sk
  refine ⟨⟨kp.publicKey, out, config, generateRecoveryCodes out, keyFingerprint H kp.publicKey, 0⟩,
    ?_, ⟨rfl, rfl, hout, rfl, rfl⟩, rfl⟩
  have hregen : bytes32TryFrom kp.seed = some (D.toSeed sk) := bytes32TryFrom_toList _
  rw [ThresholdKeyManager.recoverFromCodes_eq_bind, hseed, pure_bind,
    ThresholdKeyManager.recoverFromSeed]
  simp only [kp] at hregen
  simp only [hregen, hD.fromSeed_toSeed, hsplit, Fallible.liftM_ok, pure_bind]
  rfl

/-- **A quorum signs**, and the signature verifies under the manager's public key. -/
theorem signWithQuorum_holdsKey (hD : D.Lawful) {mgr : ThresholdKeyManager}
    (h : HoldsKey D H sk mgr) {ids : List UInt8} (hids : IsQuorum mgr ids)
    (message : List UInt8) :
    ∃ mgr' sig, mgr.signWithQuorum D ids message = .ok (mgr', some sig) ∧
      mgr.verify D message sig = true := by
  have hrange : ∀ id ∈ ids, id ∈ shareIds mgr.config := fun id hid =>
    mem_shareIds.mpr (hids.in_range id hid)
  have hseed : reconstructSecret (ids.filterMap mgr.getShare) = .ok _ :=
    h.sharing.reconstructSecret_find hrange hids.nodup hids.enough
  have hfound := (h.sharing.filterMap_find hrange).2
  have hlen : (ids.filterMap mgr.getShare).length = ids.length := by
    rw [← List.length_map Share.id]
    exact congrArg List.length hfound
  refine ⟨{ mgr with signatureCount := 1 }, D.encodeSignature (D.sign sk message), ?_, ?_⟩
  · have hcount : Checked.checkedAdd 64 mgr.signatureCount 1 = .ok 1 := by
      rw [h.count_eq]
      rfl
    rw [ThresholdKeyManager.signWithQuorum, if_neg (not_lt.mpr hids.enough)]
    simp only [hlen, if_neg (not_lt.mpr hids.enough), hseed, Checked.ok_bind,
      mlDsaSign_generate hD, hcount]
    rfl
  · rw [ThresholdKeyManager.verify, h.publicKey_eq]
    exact mlDsaVerifies_of_sign hD (mlDsaSign_generate hD sk message)

/-! ## Chains of recoveries -/

/-- The managers reached from the first by recoveries, each from a quorum of the codes of the one
before and under any valid configuration. -/
inductive RecoveryChain (D : MlDsa) (H : Sha256) (first : ThresholdKeyManager) :
    ThresholdKeyManager → Prop
  | start : RecoveryChain D H first first
  | recover {mgr next : ThresholdKeyManager} {codes : List String} {config : SharingConfig}
      {rng : OsRng} (chain : RecoveryChain D H first mgr) (quorum : IsCodeQuorum mgr codes)
      (valid : config.Valid)
      (step : ThresholdKeyManager.recoverFromCodes D H codes config rng = pure next) :
      RecoveryChain D H first next

theorem RecoveryChain.holdsKey (hD : D.Lawful) {first mgr : ThresholdKeyManager}
    (hfirst : HoldsKey D H sk first) (hchain : RecoveryChain D H first mgr) :
    HoldsKey D H sk mgr := by
  induction hchain with
  | start => exact hfirst
  | recover _ hquorum hvalid hstep ih =>
    obtain ⟨next', hnext, hkey, -⟩ := recoverFromCodes_holdsKey hD ih hquorum hvalid _
    obtain rfl := Except.ok.inj (Except.ok.inj (hstep.symm.trans hnext))
    exact hkey

/-- **Recovery preserves the key across any chain.**  Every manager of a chain has the first one's
public key and fingerprint; every quorum of its indices signs under that public key; and every
quorum of its codes recovers it, under any valid configuration. -/
theorem recoveryChain_keeps_key (hD : D.Lawful) {config : SharingConfig} {rng : OsRng}
    {first mgr : ThresholdKeyManager}
    (hnew : ThresholdKeyManager.new D H config sk rng = .ok first)
    (hchain : RecoveryChain D H first mgr) :
    mgr.publicKey = first.publicKey ∧ mgr.fingerprint = first.fingerprint ∧
      (∀ ids message, IsQuorum mgr ids → ∃ mgr' sig,
        mgr.signWithQuorum D ids message = .ok (mgr', some sig) ∧
          first.verify D message sig = true) ∧
      ∀ codes config' rng', IsCodeQuorum mgr codes → config'.Valid →
        ∃ next, ThresholdKeyManager.recoverFromCodes D H codes config' rng' = pure next := by
  have hfirst := new_holdsKey hnew
  have h := hchain.holdsKey hD hfirst
  have hpublic : mgr.publicKey = first.publicKey := h.publicKey_eq.trans hfirst.publicKey_eq.symm
  refine ⟨hpublic, h.fingerprint_eq.trans hfirst.fingerprint_eq.symm, ?_, ?_⟩
  · intro ids message hids
    obtain ⟨mgr', sig, hsign, hverify⟩ := signWithQuorum_holdsKey hD h hids message
    rw [ThresholdKeyManager.verify, hpublic] at hverify
    exact ⟨mgr', sig, hsign, hverify⟩
  · intro codes config' rng' hcodes hvalid
    obtain ⟨next, hnext, -⟩ := recoverFromCodes_holdsKey hD h hcodes hvalid rng'
    exact ⟨next, hnext⟩

/-- A two-of-three manager recovered as two of two: both of the new shares sign. -/
theorem recoveryChain_two_of_two :
    ∃ first mgr mgr' sig,
      ThresholdKeyManager.new plainDsa headDigest ⟨2, 3⟩ (Vector.replicate 32 7) (fun _ _ => 9)
        = .ok first ∧
      ThresholdKeyManager.recoverFromCodes plainDsa headDigest first.recoveryCodes ⟨2, 2⟩
        (fun _ _ => 4) = pure mgr ∧
      mgr.signWithQuorum plainDsa [2, 1] [1, 2, 3] = .ok (mgr', some sig) ∧
      first.verify plainDsa [1, 2, 3] sig = true := by
  obtain ⟨first, hnew, hconfig⟩ := exists_new plainDsa headDigest (Vector.replicate 32 7) ⟨2, 3⟩
    (by decide) fun _ _ => 9
  have hcodes : IsCodeQuorum first first.recoveryCodes :=
    (new_holdsKey hnew).isCodeQuorum (by rw [hconfig]; decide)
  have hvalid : SharingConfig.Valid ⟨2, 2⟩ := ⟨by decide, by decide⟩
  obtain ⟨mgr, hmgr, -, hconfig'⟩ := recoverFromCodes_holdsKey lawful_plainDsa
    (new_holdsKey hnew) hcodes hvalid fun _ _ => 4
  have hchain : RecoveryChain plainDsa headDigest first mgr :=
    .recover .start hcodes hvalid hmgr
  have hids : IsQuorum mgr [2, 1] := by
    refine ⟨?_, by decide, ?_⟩
    · rw [hconfig']
      simp
    · rw [hconfig']
      decide
  obtain ⟨mgr', sig, hsign, hverify⟩ :=
    (recoveryChain_keeps_key lawful_plainDsa hnew hchain).2.2.1 [2, 1] [1, 2, 3] hids
  exact ⟨first, mgr, mgr', sig, hnew, hmgr, hsign, hverify⟩

end

end PqcGateway
