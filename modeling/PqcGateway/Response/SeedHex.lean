import PqcGateway.Response.Downgrade
import PqcGateway.Threshold.Spelling

/-!
# Response/SeedHex — keys and shares as hexadecimal text

The signing seed is exported as hexadecimal (`seed_hex`) and read back from the environment
(`from_seed_hex`); `ProxyState::new` generates a key instead if the text is not a seed.  Both this
decoder and that of recovery codes give back what was written (`hexCodecs_roundTrip`), and panic
where the digits do not end at a character boundary (`hexDecoders_return_iff`).

* `fromEnv_falls_back_iff` — which texts that are no seed get to the generated key.
* `odd_digits_panic` — an odd digit does not, nor does a character of three bytes.
-/

namespace PqcGateway

namespace SignatureKeyManager

/-- Export the ML-DSA seed as hex (for keygen CLI): each byte as `{b:02x}`. -/
def seedHex {C : SigningCrates} (skm : SignatureKeyManager C) : String := hexEncode skm.mldsaSeed

/-- The signing key of `ProxyState::new`: from the seed that `GATEWAY_SIGNING_KEY` has, else
generated.  The crates draw `ecdsa` for the one, and `ecdsa'` and `sk` for the other. -/
def fromEnv (C : SigningCrates) (ecdsa ecdsa' : C.signing.SigningKey) (sk : C.mlDsa.SigningKey)
    (gatewaySigningKey : Option String) : Checked (SignatureKeyManager C) :=
  match gatewaySigningKey with
  | some seedHex => do
    match ← (fromSeedHex C ecdsa seedHex).run with
    | .ok skm => pure skm
    | .error _ => pure (generate C ecdsa' sk)
  | none => pure (generate C ecdsa' sk)

section

variable {C : SigningCrates} {ecdsa ecdsa' : C.signing.SigningKey} {sk : C.mlDsa.SigningKey}
  {skm skm' : SignatureKeyManager C}

/-- The seed is read two bytes at a time. -/
theorem mapM_seedByte (hex : String) :
    (pairOffsets (Text.byteLen hex.toList)).mapM (seedByte hex)
      = Text.readPairs (fun e => "invalid hex: " ++ e.message) hex.toList := by
  rw [pairOffsets, List.mapM_map, Text.readPairs, String.ofList_toList]
  rfl

/-! ## Round trip -/

/-- **Every seed reads back**, as a manager of its key. -/
theorem fromSeedHex_hexEncode (seed : Vector UInt8 32) :
    fromSeedHex C ecdsa (hexEncode seed.toList) = pure (ofKeys C ecdsa
      ⟨C.mlDsa.encodeKey (C.mlDsa.verifyingKey (C.mlDsa.fromSeed seed)), seed.toList⟩) := by
  rw [fromSeedHex, mapM_seedByte, hexEncode, String.toList_ofList, Text.readPairs_hexChars,
    pure_bind]
  simp only [bytes32TryFrom_toList]

/-- **A manager's ML-DSA signatures verify under every manager of its public key.** -/
theorem Paired.verify_mlDsaOnly (hC : C.Lawful) (h : skm.Paired)
    (hkey : skm'.mldsaPublicKey = skm.mldsaPublicKey) (data : List UInt8) :
    ∃ output, skm.sign .mlDsaOnly data = .ok (some output) ∧ skm.verify data output = true ∧
      skm'.verify data output = true := by
  obtain ⟨pqcB64, hpqc, hverify⟩ := h.pqcB64_returns hC data
  have hverify' : skm'.verifyMldsa data pqcB64 = true := by
    rw [← hverify, verifyMldsa, verifyMldsa, hkey]
  refine ⟨_, sign_mlDsaOnly hpqc, ?_, ?_⟩
  · simp [verify, hverify]
  · simp [verify, hverify']

/-- **A manager reads back from its seed**, but for its classical key. -/
theorem fromSeedHex_seedHex (hC : C.Lawful) (hmade : skm.Made) (ecdsa : C.signing.SigningKey) :
    ∃ skm', fromSeedHex C ecdsa skm.seedHex = pure skm' ∧ skm'.mldsaSeed = skm.mldsaSeed ∧
      skm'.mldsaPublicKey = skm.mldsaPublicKey := by
  obtain ⟨seed, hseed, hpublic⟩ := (paired_of_made hC hmade).mldsa
  refine ⟨ofKeys C ecdsa ⟨_, seed.toList⟩, ?_, hseed.symm, hpublic.symm⟩
  rw [seedHex, hseed]
  exact fromSeedHex_hexEncode seed

end

end SignatureKeyManager

/-- **Hex codecs round trip.**  Recovery codes are parsed into their shares.  Every seed of 32 bytes
is some manager's, and from its hexadecimal a manager comes back with the same seed and ML-DSA
public key; the ML-DSA signatures of either verify under both. -/
theorem hexCodecs_roundTrip {C : SigningCrates} (hC : C.Lawful) (ecdsa : C.signing.SigningKey) :
    (∀ shares, (generateRecoveryCodes shares).map parseRecoveryCode = shares.map pure) ∧
    (∀ seed : Vector UInt8 32, ∃ skm : SignatureKeyManager C,
      skm.Made ∧ skm.mldsaSeed = seed.toList) ∧
    ∀ skm : SignatureKeyManager C, skm.Made →
      ∃ skm', SignatureKeyManager.fromSeedHex C ecdsa skm.seedHex = pure skm' ∧
        skm'.mldsaSeed = skm.mldsaSeed ∧ skm'.mldsaPublicKey = skm.mldsaPublicKey ∧
        ∀ data,
          (∃ output, skm.sign .mlDsaOnly data = .ok (some output) ∧
            skm.verify data output = true ∧ skm'.verify data output = true) ∧
          ∃ output, skm'.sign .mlDsaOnly data = .ok (some output) ∧
            skm'.verify data output = true ∧ skm.verify data output = true := by
  refine ⟨fun shares => ?_, fun seed => ?_, fun skm hmade => ?_⟩
  · rw [generateRecoveryCodes, List.map_map]
    refine List.map_congr_left fun share _ => ?_
    rw [Function.comp_apply, parseRecoveryCode_recoveryCode]
  · exact ⟨_, .inr ⟨ecdsa, _, SignatureKeyManager.fromSeedHex_hexEncode seed⟩, rfl⟩
  · obtain ⟨skm', hread, hseed, hkey⟩ :=
      SignatureKeyManager.fromSeedHex_seedHex hC hmade ecdsa
    have hpaired := SignatureKeyManager.paired_of_made hC hmade
    have hpaired' := SignatureKeyManager.paired_of_made hC (.inr ⟨ecdsa, _, hread⟩)
    exact ⟨skm', hread, hseed, hkey, fun data =>
      ⟨hpaired.verify_mlDsaOnly hC hkey data, hpaired'.verify_mlDsaOnly hC hkey.symm data⟩⟩

/-- A generated manager, written and read back. -/
theorem hexCodecs_roundTrip_plain :
    (generateRecoveryCodes [⟨3, []⟩, ⟨255, [0, 9]⟩]).map parseRecoveryCode
      = [⟨3, []⟩, ⟨255, [0, 9]⟩].map pure ∧
    ∃ skm', SignatureKeyManager.fromSeedHex plainResponse.signatures [3] plainSigner.seedHex
        = pure skm' ∧
      skm'.mldsaSeed = plainSigner.mldsaSeed := by
  obtain ⟨hcodes, -, hseeds⟩ :=
    hexCodecs_roundTrip lawful_plainResponse.signatures ([3] : List UInt8)
  obtain ⟨skm', hread, hseed, -⟩ := hseeds plainSigner (.inl ⟨_, _, rfl⟩)
  exact ⟨hcodes _, skm', hread, hseed⟩

/-! ## Totality

Both decoders cut the text at even offsets, character or not. -/

section

variable {C : SigningCrates}

namespace SignatureKeyManager

/-- What is read from a seed's digits is a manager or an error. -/
theorem fromSeedHex_returns_iff (ecdsa : C.signing.SigningKey) (hex : String) :
    (fromSeedHex C ecdsa hex).Returns ↔ Text.PairsEnd hex.toList := by
  rw [fromSeedHex, mapM_seedByte, Fallible.returns_bind_iff, Text.readPairs_returns_iff]
  intro seedBytes
  cases bytes32TryFrom seedBytes with
  | none => exact Fallible.returns_throw _
  | some seed => exact Fallible.returns_pure _

/-- **The generated key is reached** from every text that is not a seed, exactly if its digits
end. -/
theorem fromEnv_falls_back_iff (ecdsa ecdsa' : C.signing.SigningKey) (sk : C.mlDsa.SigningKey)
    (hex : String) :
    ((∀ skm, fromSeedHex C ecdsa hex ≠ pure skm) →
      fromEnv C ecdsa ecdsa' sk (some hex) = .ok (generate C ecdsa' sk)) ↔
      Text.PairsEnd hex.toList := by
  rw [← fromSeedHex_returns_iff ecdsa, fromEnv]
  rcases fromSeedHex C ecdsa hex with p | e | skm
  · refine iff_of_false (fun h => ?_) (by rintro ⟨_, ⟨⟩⟩)
    have := h (by rintro skm ⟨⟩)
    cases this
  · exact iff_of_true (fun _ => rfl) ⟨_, rfl⟩
  · exact iff_of_true (fun h => absurd rfl (h skm)) ⟨_, rfl⟩

end SignatureKeyManager

/-- **Which texts the decoders return on.**  A recovery code is parsed, and a seed read, without a
panic exactly if what is read of its digits ends at a character boundary; and so does a text that is
no seed get to the generated key. -/
theorem hexDecoders_return_iff (ecdsa ecdsa' : C.signing.SigningKey) (sk : C.mlDsa.SigningKey)
    (text : String) :
    ((parseRecoveryCode text).Returns ↔ CodeEnds text) ∧
    ((SignatureKeyManager.fromSeedHex C ecdsa text).Returns ↔ Text.PairsEnd text.toList) ∧
    (((∀ skm, SignatureKeyManager.fromSeedHex C ecdsa text ≠ pure skm) →
        SignatureKeyManager.fromEnv C ecdsa ecdsa' sk (some text)
          = .ok (SignatureKeyManager.generate C ecdsa' sk)) ↔
      Text.PairsEnd text.toList) :=
  ⟨parseRecoveryCode_returns_iff text, SignatureKeyManager.fromSeedHex_returns_iff ecdsa text,
    SignatureKeyManager.fromEnv_falls_back_iff ecdsa ecdsa' sk text⟩

end

/-- **An odd digit panics**, and so does a character of three bytes. -/
theorem odd_digits_panic :
    (parseRecoveryCode "01-2af").run
      = Checked.panicWith "byte index is out of bounds or not a char boundary" ∧
    (SignatureKeyManager.fromSeedHex plainResponse.signatures [3] "2a€").run
      = Checked.panicWith "byte index is out of bounds or not a char boundary" ∧
    SignatureKeyManager.fromEnv plainResponse.signatures [3] [4] (Vector.replicate 32 9)
        (some "2af") = Checked.panicWith "byte index is out of bounds or not a char boundary" ∧
    ¬ (parseRecoveryCode "01-2af").Returns := by
  refine ⟨rfl, rfl, rfl, ?_⟩
  rintro ⟨result, ⟨⟩⟩

end PqcGateway
