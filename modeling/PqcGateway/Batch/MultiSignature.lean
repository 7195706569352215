import PqcGateway.Batch.Timestamp
import PqcGateway.Batch.Verify
import Mathlib.Data.Finset.Card
import Mathlib.Data.Finset.Dedup

/-!
# Batch/MultiSignature — several signers of one message

A `MultiSignatureBuilder` collects one contribution for each call of `addSigner`, and
`verifyMultiSignature` checks each of them.  Both compare the number of contributions with the
number of signers required.

* `build_addSigners` — what the builder makes of any signers, enough in number, is accepted.
* `accepts_repeated_signer` — a signer who contributes twice is counted twice, so one key makes up
  any number.
* `enoughSigners_of_nodup` — with different keys, and at least one signer required, acceptance means
  that many signed; of what the builder makes, exactly where the signers' keys are as many.
-/

namespace PqcGateway

/-- A signer's contribution to a multi-signature. -/
structure SignerContribution where
  signerId : String
  publicKey : List UInt8
  signature : List UInt8
deriving DecidableEq, Repr

/-- A multi-signature: multiple signers independently sign the same message. -/
structure MultiSignature where
  messageHash : String
  contributions : List SignerContribution
  requiredSigners : ℕ
deriving DecidableEq, Repr

/-- Builder for creating multi-signatures. -/
structure MultiSignatureBuilder where
  message : List UInt8
  messageHash : String
  contributions : List SignerContribution
  requiredSigners : ℕ
deriving DecidableEq, Repr

section

variable (D : MlDsa) (H : Sha256)

namespace MultiSignatureBuilder

/-- Create a new multi-signature builder for a message. -/
def new (message : List UInt8) (requiredSigners : ℕ) : MultiSignatureBuilder where
  message
  messageHash := messageDigest H message
  contributions := []
  requiredSigners

/-- Add a signer's contribution.  The signer signs the message with their own key. -/
def addSigner (signerId : String) (seed publicKey : List UInt8) (builder : MultiSignatureBuilder) :
    MultiSignatureBuilder × Except String Unit :=
  match mlDsaSign D seed builder.message with
  | .error e => (builder, .error e)
  | .ok signature =>
    let contribution : SignerContribution := { signerId, publicKey, signature }
    ({ builder with contributions := builder.contributions ++ [contribution] }, .ok ())

/-- Build the multi-signature.  Returns `none` if insufficient signers. -/
def build (builder : MultiSignatureBuilder) : Option MultiSignature :=
  if builder.contributions.length < builder.requiredSigners then none
  else some
    { messageHash := builder.messageHash
      contributions := builder.contributions
      requiredSigners := builder.requiredSigners }

end MultiSignatureBuilder

/-- `ml_dsa_verify` answers `Ok(true)` for the contribution. -/
def SignerContribution.verifies (message : List UInt8) (contrib : SignerContribution) : Bool :=
  SignatureEntry.verifies D ⟨message, contrib.signature, contrib.publicKey⟩

/-- Verify a multi-signature: all contributions must be valid. -/
def verifyMultiSignature (multiSig : MultiSignature) (message : List UInt8) : Bool :=
  if messageDigest H message ≠ multiSig.messageHash then false
  else if multiSig.contributions.length < multiSig.requiredSigners then false
  else multiSig.contributions.all fun contrib => contrib.verifies D message

/-! ## Keys, not contributions

A contribution names a key, and so may the next one. -/

/-- The public keys that have a valid signature on the message among the contributions. -/
def signingKeys (multiSig : MultiSignature) (message : List UInt8) : Finset (List UInt8) :=
  ((multiSig.contributions.filter fun contrib => contrib.verifies D message).map
    SignerContribution.publicKey).toFinset

/-- The public keys the contributions name. -/
def namedKeys (multiSig : MultiSignature) : Finset (List UInt8) :=
  (multiSig.contributions.map SignerContribution.publicKey).toFinset

/-- If the multi-signature is accepted, as many different keys signed as it requires, and one
did. -/
def EnoughSigners (multiSig : MultiSignature) (message : List UInt8) : Prop :=
  verifyMultiSignature D H multiSig message = true →
    max 1 multiSig.requiredSigners ≤ (signingKeys D multiSig message).card

end

section

variable {D : MlDsa} {H : Sha256} {multiSig : MultiSignature} {message : List UInt8}

/-- **What is accepted** passed three checks. -/
theorem verifyMultiSignature_eq_true :
    verifyMultiSignature D H multiSig message = true ↔
      messageDigest H message = multiSig.messageHash ∧
        multiSig.requiredSigners ≤ multiSig.contributions.length ∧
        ∀ contrib ∈ multiSig.contributions, contrib.verifies D message = true := by
  unfold verifyMultiSignature
  split_ifs with hhash hlen
  · simp [hhash]
  · simp [Nat.not_le.mpr hlen]
  · rw [List.all_eq_true]
    simp [not_not.mp hhash, Nat.not_lt.mp hlen]

/-- Where every contribution verifies, the keys named are those that signed. -/
theorem signingKeys_eq_namedKeys
    (h : ∀ contrib ∈ multiSig.contributions, contrib.verifies D message = true) :
    signingKeys D multiSig message = namedKeys multiSig := by
  rw [signingKeys, namedKeys, List.filter_eq_self.mpr h]

/-! ## What the builder makes -/

/-- A signer's name and key. -/
structure Signer (D : MlDsa) where
  id : String
  key : D.SigningKey

namespace Signer

def publicKey (signer : Signer D) : List UInt8 := D.encodeKey (D.verifyingKey signer.key)

/-- What the signer contributes to a multi-signature on the message. -/
def contribution (message : List UInt8) (signer : Signer D) : SignerContribution where
  signerId := signer.id
  publicKey := signer.publicKey
  signature := D.encodeSignature (D.sign signer.key message)

/-- What a signer contributes verifies. -/
theorem verifies_contribution (hD : D.Lawful) (message : List UInt8) (signer : Signer D) :
    (signer.contribution message).verifies D message = true := by
  rw [SignerContribution.verifies, SignatureEntry.verifies, mlDsaVerify]
  simp only [contribution, publicKey, hD.decodeSignature_encodeSignature, hD.decodeKey_encodeKey,
    hD.verify_sign]

end Signer

/-- The signers contribute one after the other. -/
def MultiSignatureBuilder.addSigners (signers : List (Signer D)) (builder : MultiSignatureBuilder) :
    MultiSignatureBuilder :=
  signers.foldl (fun builder signer =>
    (builder.addSigner D signer.id (D.toSeed signer.key).toList signer.publicKey).1) builder

theorem addSigners_eq (hD : D.Lawful) (signers : List (Signer D))
    (builder : MultiSignatureBuilder) :
    builder.addSigners signers =
      { builder with
        contributions :=
          builder.contributions ++ signers.map (Signer.contribution builder.message) } := by
  induction signers generalizing builder with
  | nil => simp [MultiSignatureBuilder.addSigners]
  | cons signer signers ih =>
    rw [MultiSignatureBuilder.addSigners, List.foldl_cons, ← MultiSignatureBuilder.addSigners, ih,
      MultiSignatureBuilder.addSigner, mlDsaSign_toList, hD.fromSeed_toSeed]
    simp [Signer.contribution]

/-- **Signers enough in number are accepted**, whoever they are: the keys are theirs, each counted
once. -/
theorem build_addSigners (hD : D.Lawful) (H : Sha256) (message : List UInt8)
    (signers : List (Signer D)) {requiredSigners : ℕ} (hlen : requiredSigners ≤ signers.length) :
    ∃ multiSig, ((MultiSignatureBuilder.new H message requiredSigners).addSigners signers).build
        = some multiSig ∧
      verifyMultiSignature D H multiSig message = true ∧
      multiSig.requiredSigners = requiredSigners ∧
      signingKeys D multiSig message = (signers.map Signer.publicKey).toFinset := by
  let multiSig : MultiSignature :=
    ⟨messageDigest H message, signers.map (Signer.contribution message), requiredSigners⟩
  have hverify : ∀ contrib ∈ multiSig.contributions, contrib.verifies D message = true := by
    intro contrib hmem
    obtain ⟨signer, -, rfl⟩ := List.mem_map.mp hmem
    exact signer.verifies_contribution hD message
  have hmany : requiredSigners ≤ multiSig.contributions.length := by
    rwa [List.length_map]
  refine ⟨multiSig, ?_, verifyMultiSignature_eq_true.mpr ⟨rfl, hmany, hverify⟩, rfl, ?_⟩
  · rw [addSigners_eq hD, MultiSignatureBuilder.build]
    exact if_neg (not_lt.mpr hmany)
  · rw [signingKeys_eq_namedKeys hverify, namedKeys, List.map_map]
    rfl

/-- **One signer makes up any number.**  The builder takes the same key as often as it comes, and
the multi-signature is accepted with that key alone. -/
theorem accepts_repeated_signer (hD : D.Lawful) (H : Sha256) (message : List UInt8)
    (signer : Signer D) (requiredSigners : ℕ) :
    ∃ multiSig, ((MultiSignatureBuilder.new H message requiredSigners).addSigners
        (List.replicate requiredSigners signer)).build = some multiSig ∧
      verifyMultiSignature D H multiSig message = true ∧
      multiSig.requiredSigners = requiredSigners ∧
      (signingKeys D multiSig message).card ≤ 1 := by
  obtain ⟨multiSig, hbuild, hverify, hrequired, hkeys⟩ :=
    build_addSigners hD H message _ (List.length_replicate (a := signer)).ge
  refine ⟨multiSig, hbuild, hverify, hrequired, Finset.card_le_one.mpr ?_⟩
  have hone : ∀ key ∈ signingKeys D multiSig message, key = signer.publicKey := by
    intro key hkey
    rw [hkeys, List.map_replicate, List.mem_toFinset] at hkey
    exact List.eq_of_mem_replicate hkey
  exact fun key hkey key' hkey' => (hone key hkey).trans (hone key' hkey').symm

/-! ## When the keys are enough -/

/-- Different keys are as many as their contributions. -/
theorem card_namedKeys (h : (multiSig.contributions.map SignerContribution.publicKey).Nodup) :
    (namedKeys multiSig).card = multiSig.contributions.length := by
  rw [namedKeys, List.toFinset_card_of_nodup h, List.length_map]

/-- **The contributions are counted, not the keys.**  Acceptance means enough signers where the keys
are pairwise different and at least one signer is required.  Of what the builder makes of signers
enough in number it does exactly where they have enough different keys. -/
theorem enoughSigners_of_nodup (D : MlDsa) (H : Sha256) :
    (∀ (multiSig : MultiSignature) (message : List UInt8),
      (multiSig.contributions.map SignerContribution.publicKey).Nodup →
      1 ≤ multiSig.requiredSigners → EnoughSigners D H multiSig message) ∧
    (D.Lawful → ∀ (message : List UInt8) (signers : List (Signer D)) (requiredSigners : ℕ),
      requiredSigners ≤ signers.length → ∃ multiSig,
        ((MultiSignatureBuilder.new H message requiredSigners).addSigners signers).build
          = some multiSig ∧
        (EnoughSigners D H multiSig message ↔
          max 1 requiredSigners ≤ (signers.map Signer.publicKey).toFinset.card)) := by
  constructor
  · intro multiSig message hkeys hone haccepted
    obtain ⟨-, hlen, hverify⟩ := verifyMultiSignature_eq_true.mp haccepted
    rw [signingKeys_eq_namedKeys hverify, card_namedKeys hkeys, max_eq_right hone]
    exact hlen
  · intro hD message signers requiredSigners hlen
    obtain ⟨multiSig, hbuild, hverify, hrequired, hkeys⟩ :=
      build_addSigners hD H message signers hlen
    refine ⟨multiSig, hbuild, ?_⟩
    rw [EnoughSigners, hkeys, hrequired]
    exact ⟨fun h => h hverify, fun h _ => h⟩

end

/-- Two signers with different keys are two. -/
theorem two_keys_are_enough :
    let signer (key : UInt8) : Signer plainDsa :=
      ⟨"signer", (Vector.replicate 32 key : Vector UInt8 32)⟩
    ∃ multiSig, ((MultiSignatureBuilder.new headDigest [1, 2, 3] 2).addSigners
        [signer 7, signer 8]).build = some multiSig ∧
      EnoughSigners plainDsa headDigest multiSig [1, 2, 3] := by
  intro signer
  obtain ⟨multiSig, hbuild, henough⟩ := (enoughSigners_of_nodup plainDsa headDigest).2
    lawful_plainDsa [1, 2, 3] [signer 7, signer 8] 2 le_rfl
  exact ⟨multiSig, hbuild, henough.mpr (by decide)⟩

/-- **Nobody, and one key twice.**  A multi-signature that requires no signer is accepted empty, and
one that requires two is accepted from one key under two names. -/
theorem one_key_counts_twice :
    let signer (id : String) : Signer plainDsa := ⟨id, (Vector.replicate 32 7 : Vector UInt8 32)⟩
    (∃ multiSig, (MultiSignatureBuilder.new headDigest [1, 2, 3] 0).build = some multiSig ∧
      verifyMultiSignature plainDsa headDigest multiSig [1, 2, 3] = true ∧
      ¬ EnoughSigners plainDsa headDigest multiSig [1, 2, 3]) ∧
    ∃ multiSig, ((MultiSignatureBuilder.new headDigest [1, 2, 3] 2).addSigners
        [signer "signer-1", signer "signer-2"]).build = some multiSig ∧
      verifyMultiSignature plainDsa headDigest multiSig [1, 2, 3] = true ∧
      ¬ EnoughSigners plainDsa headDigest multiSig [1, 2, 3] := by
  intro signer
  constructor
  · obtain ⟨multiSig, hbuild, hverify, -, hkeys⟩ :=
      build_addSigners lawful_plainDsa headDigest [1, 2, 3] [] (Nat.le_refl 0)
    refine ⟨multiSig, hbuild, hverify, fun h => ?_⟩
    have hone := (le_max_left 1 _).trans (h hverify)
    rw [hkeys] at hone
    exact absurd hone (by decide)
  · obtain ⟨multiSig, hbuild, hverify, hrequired, hkeys⟩ := build_addSigners lawful_plainDsa
      headDigest [1, 2, 3] [signer "signer-1", signer "signer-2"] (Nat.le_refl 2)
    refine ⟨multiSig, hbuild, hverify, fun h => ?_⟩
    have htwo := (le_max_right 1 _).trans (h hverify)
    rw [hrequired, hkeys] at htwo
    exact absurd htwo (by decide)

end PqcGateway
