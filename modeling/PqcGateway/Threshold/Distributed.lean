import PqcGateway.Threshold.Quorum

/-!
# Threshold/Distributed — parties that sign together

Each party holds one share of a seed, and does not know how many shares it takes.  `distributedSign`
signs with whatever the shares at hand interpolate, so below the threshold it returns a signature
all the same, and one that hardly ever verifies (`distributedSign_iff`).

* `exists_distributedSign` — different parties always sign, with the seed that their shares
  interpolate.
* `one_party_signs` — one of three parties, where it takes two, returns a signature that does not
  verify.
-/

namespace PqcGateway

/-- A party in the distributed signature scheme. -/
structure SigningParty where
  partyId : UInt8
  share : Share
  publicKey : List UInt8
deriving DecidableEq, Repr

/-- Result of a distributed (multi-party) signing operation. -/
structure DistributedSignatureResult where
  signature : List UInt8
  messageHash : String
  partiesInvolved : List UInt8
  publicKey : List UInt8
deriving DecidableEq, Repr

section

variable (D : MlDsa) (H : Sha256)

/-- Set up distributed signing by splitting the seed of the fresh key `sk` among parties: the
parties and the public key. -/
def setupDistributedSigning (config : SharingConfig) (sk : D.SigningKey) (rng : OsRng) :
    Checked (List SigningParty × List UInt8) := do
  let kp := generateMlDsaKeypair D sk
  let shares ← splitSecret rng kp.seed config
  let parties : List SigningParty := shares.map fun share =>
    { partyId := share.id, share, publicKey := kp.publicKey }
  pure (parties, kp.publicKey)

/-- Perform distributed signing: the parties contribute their shares to reconstruct the seed and
sign the message. -/
def distributedSign (parties : List SigningParty) (message : List UInt8) :
    Fallible DistributedSignatureResult := do
  Checked.assert (parties ≠ []) "Need at least one party to sign"
  let shares := parties.map SigningParty.share
  let partyIds := parties.map SigningParty.partyId
  let seed ← reconstructSecret shares
  let signature ← Fallible.mapErr id (mlDsaSign D seed message)
  let messageHash := hexEncode (H message).toList
  pure
    { signature
      messageHash
      partiesInvolved := partyIds
      publicKey := (parties.head?.map SigningParty.publicKey).getD [] }

/-- Verify a distributed signature against a public key. -/
def verifyDistributedSignature (result : DistributedSignatureResult) (message : List UInt8) :
    Bool :=
  mlDsaVerifies D result.publicKey message result.signature

end

/-- A signature made from one seed verifies only under that seed's public key. -/
def OwnKeyOnly (D : MlDsa) : Prop := ∀ (seed other : Vector UInt8 32) (message : List UInt8),
  mlDsaVerifies D (seedPublicKey D other) message
    (D.encodeSignature (D.sign (D.fromSeed seed) message)) = true → other = seed

/-- What the parties sign verifies, and too few of them get an error. -/
structure SignsOrRefuses (D : MlDsa) (H : Sha256) (config : SharingConfig)
    (parties : List SigningParty) (message : List UInt8) : Prop where
  verifies : ∀ result, distributedSign D H parties message = pure result →
    verifyDistributedSignature D result message = true
  refuses : parties.length < config.threshold.toNat →
    ∃ e, distributedSign D H parties message = throw e

section

variable {D : MlDsa} {H : Sha256} {config : SharingConfig} {sk : D.SigningKey} {rng : OsRng}
  {parties chosen : List SigningParty} {publicKey message : List UInt8}

/-- The parties hold the shares of one seed, and its public key. -/
theorem setup_holds (hsetup : setupDistributedSigning D config sk rng = .ok (parties, publicKey)) :
    IsSharing config (D.toSeed sk).toList (parties.map SigningParty.share) ∧
      ∀ party ∈ parties, party.publicKey = D.encodeKey (D.verifyingKey sk) := by
  obtain ⟨shares, hsplit, hpure⟩ := Checked.bind_eq_ok.mp hsetup
  obtain ⟨rfl, -⟩ := Prod.mk.inj (Except.ok.inj hpure)
  refine ⟨?_, fun party hparty => ?_⟩
  · rw [List.map_map, Function.comp_def, List.map_id']
    exact isSharing_of_splitSecret hsplit
  · obtain ⟨share, -, rfl⟩ := List.mem_map.mp hparty
    rfl

/-- Different parties have different shares. -/
theorem nodup_map_share {secret : List UInt8}
    (h : IsSharing config secret (parties.map SigningParty.share)) (hsub : chosen ⊆ parties)
    (hnodup : chosen.Nodup) : (chosen.map SigningParty.share).Nodup := by
  have hids : ((parties.map SigningParty.share).map Share.id).Nodup :=
    h.map_id ▸ nodup_shareIds config
  refine hnodup.map_on fun p hp q hq hpq => ?_
  exact List.inj_on_of_nodup_map (hids.of_map Share.id) (hsub hp) (hsub hq) hpq

/-- **Different parties always sign**, with the seed their shares interpolate and under the public
key they were set up with. -/
theorem exists_distributedSign (H : Sha256)
    (hsetup : setupDistributedSigning D config sk rng = .ok (parties, publicKey))
    (hne : chosen ≠ []) (hsub : chosen ⊆ parties) (hnodup : chosen.Nodup)
    (message : List UInt8) :
    ∃ found result, reconstructSecret (chosen.map SigningParty.share) = .ok (Vector.toList found) ∧
      distributedSign D H chosen message = pure result ∧
      result.signature = D.encodeSignature (D.sign (D.fromSeed found) message) ∧
      result.publicKey = D.encodeKey (D.verifyingKey sk) := by
  obtain ⟨hsharing, hkey⟩ := setup_holds hsetup
  obtain ⟨bytes, hbytes, hlength⟩ := hsharing.reconstructSecret_returns
    (mt List.map_eq_nil_iff.mp hne) (List.map_subset _ hsub) (nodup_map_share hsharing hsub hnodup)
  obtain ⟨found, rfl⟩ := exists_seed_of_length (hlength.trans (Vector.length_toList ..))
  obtain ⟨first, rest, rfl⟩ := List.exists_cons_of_ne_nil hne
  refine ⟨found, ⟨D.encodeSignature (D.sign (D.fromSeed found) message),
    hexEncode (H message).toList, (first :: rest).map SigningParty.partyId, first.publicKey⟩,
    hbytes, ?_, rfl, hkey first (hsub List.mem_cons_self)⟩
  rw [distributedSign, Checked.assert_of hne, Fallible.liftM_ok, pure_bind]
  simp only [hbytes, mlDsaSign_toList, Fallible.liftM_ok, Fallible.mapErr_ok, pure_bind]
  rfl

/-- **Distributed signing does not know the threshold.**  It is as promised exactly for `threshold`
parties or more.  Fewer are never refused, and what they sign verifies only if the seed happens to
lie on the polynomials of lower degree that their shares determine. -/
theorem distributedSign_iff (hD : D.Lawful) (hown : OwnKeyOnly D)
    (hsetup : setupDistributedSigning D config sk rng = .ok (parties, publicKey))
    (hne : chosen ≠ []) (hsub : chosen ⊆ parties) (hnodup : chosen.Nodup)
    (message : List UInt8) :
    (SignsOrRefuses D H config chosen message ↔ config.threshold.toNat ≤ chosen.length) ∧
      ∃ result, distributedSign D H chosen message = pure result ∧
        (verifyDistributedSignature D result message = true ↔
          config.threshold.toNat ≤ chosen.length ∨
            Interpolates (chosen.map SigningParty.share) (D.toSeed sk).toList) := by
  obtain ⟨hsharing, -⟩ := setup_holds hsetup
  obtain ⟨found, result, hfound, hsign, hsignature, hkey⟩ :=
    exists_distributedSign H hsetup hne hsub hnodup message
  have hverify : verifyDistributedSignature D result message = true ↔
      config.threshold.toNat ≤ chosen.length ∨
        Interpolates (chosen.map SigningParty.share) (D.toSeed sk).toList := by
    have hiff := hsharing.reconstructSecret_iff (mt List.map_eq_nil_iff.mp hne)
      (List.map_subset _ hsub) (nodup_map_share hsharing hsub hnodup)
    rw [List.length_map, hfound, Except.ok.injEq, Vector.toList_inj] at hiff
    rw [← hiff, verifyDistributedSignature, hsignature, hkey]
    constructor
    · intro hverify
      refine (hown found (D.toSeed sk) message ?_).symm
      rwa [seedPublicKey, hD.fromSeed_toSeed]
    · rintro rfl
      rw [hD.fromSeed_toSeed]
      exact mlDsaVerifies_sign hD sk message
  refine ⟨⟨fun h => ?_, fun henough => ⟨fun result' hsign' => ?_, ?_⟩⟩, result, hsign, hverify⟩
  · by_contra hfew
    obtain ⟨e, he⟩ := h.refuses (not_le.mp hfew)
    exact Fallible.throw_ne_pure e result (he.symm.trans hsign)
  · obtain rfl := Except.ok.inj (Except.ok.inj (hsign.symm.trans hsign'))
    exact hverify.mpr (.inl henough)
  · exact fun hfew => absurd henough (not_le.mpr hfew)

/-- The party with this index. -/
def partyOf (D : MlDsa) (config : SharingConfig) (sk : D.SigningKey) (rng : OsRng) (id : UInt8) :
    SigningParty :=
  ⟨id, shareOf rng config (D.toSeed sk).toList id, D.encodeKey (D.verifyingKey sk)⟩

/-- Under a threshold of at least one the parties are set up. -/
theorem setupDistributedSigning_eq (D : MlDsa) (config : SharingConfig) (sk : D.SigningKey)
    (rng : OsRng) (ht : 1 ≤ config.threshold.toNat) :
    setupDistributedSigning D config sk rng
      = .ok ((shareIds config).map (partyOf D config sk rng), D.encodeKey (D.verifyingKey sk)) := by
  have hne : (D.toSeed sk).toList ≠ [] := List.ne_nil_of_length_pos (by simp)
  rw [setupDistributedSigning]
  simp only [generateMlDsaKeypair, splitSecret_eq hne ht, Checked.ok_bind, List.map_map]
  rfl

end

theorem ownKeyOnly_plainDsa : OwnKeyOnly plainDsa := by
  intro seed other message hverify
  have hsig : seed.toList ++ message = other.toList ++ message := by
    simpa [mlDsaVerifies, mlDsaVerify, seedPublicKey, Except.toOption] using hverify
  exact (Vector.toList_inj.mp (List.append_cancel_right hsig)).symm

/-- Three parties, any two of whom can sign. -/
def threeParties : UInt8 → SigningParty :=
  partyOf plainDsa ⟨2, 3⟩ (Vector.replicate 32 7) fun _ _ => 9

theorem setup_threeParties :
    setupDistributedSigning plainDsa ⟨2, 3⟩ (Vector.replicate 32 7) (fun _ _ => 9)
      = .ok ([1, 2, 3].map threeParties, (Vector.replicate 32 7).toList) :=
  setupDistributedSigning_eq plainDsa ⟨2, 3⟩ (Vector.replicate 32 7) _ (by decide)

/-- Two of three parties, out of order. -/
theorem signsOrRefuses_two_of_three :
    SignsOrRefuses plainDsa headDigest ⟨2, 3⟩ [threeParties 3, threeParties 1] [1, 2, 3] := by
  have hsub : [threeParties 3, threeParties 1] ⊆ [1, 2, 3].map threeParties := by
    simp
  have hne : threeParties 3 ≠ threeParties 1 := fun h =>
    absurd (congrArg SigningParty.partyId h) (by decide)
  exact (distributedSign_iff lawful_plainDsa ownKeyOnly_plainDsa setup_threeParties
    (List.cons_ne_nil _ _) hsub (by simpa using hne) _).1.mpr (by decide)

/-- **One of three parties, where it takes two.**  It signs with its own share for the seed, and
what it returns does not verify. -/
theorem one_party_signs :
    ∃ result, distributedSign plainDsa headDigest [threeParties 1] [1, 2, 3] = pure result ∧
      verifyDistributedSignature plainDsa result [1, 2, 3] = false ∧
      ¬ SignsOrRefuses plainDsa headDigest ⟨2, 3⟩ [threeParties 1] [1, 2, 3] := by
  have hsub : [threeParties 1] ⊆ [1, 2, 3].map threeParties := by simp
  obtain ⟨found, result, hfound, hsign, hsignature, hkey⟩ := exists_distributedSign headDigest
    setup_threeParties (List.cons_ne_nil _ _) hsub (List.nodup_singleton _) [1, 2, 3]
  rw [List.map_singleton, reconstructSecret_singleton, Except.ok.injEq] at hfound
  have hrejected : ¬ verifyDistributedSignature plainDsa result [1, 2, 3] = true := by
    rw [verifyDistributedSignature, hsignature, hkey]
    intro hverify
    have hseed := ownKeyOnly_plainDsa found (Vector.replicate 32 7) [1, 2, 3] hverify
    have hbyte := congrArg (fun seed => (Vector.toList seed).getD 0 0) hseed
    simp only [← hfound] at hbyte
    revert hbyte
    decide
  refine ⟨result, hsign, Bool.not_eq_true _ |>.mp hrejected, fun h => ?_⟩
  exact hrejected (h.verifies result hsign)

end PqcGateway
