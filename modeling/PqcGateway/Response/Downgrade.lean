import PqcGateway.Response.Coherence

/-!
# Response/Downgrade — the label of a signature and what is checked

An output names its algorithm in a field that `verify` never reads: the classical signature is
checked where it is present.

* `keepsPromise_iff` — an accepted output keeps the promise of its label exactly if the label fits
  the signatures that are present.
* `labelled_of_sign` — what `sign` returns is labelled so.
* `noDowngrade_of_labelled` — so the promise is kept of every output that is, and of what `sign`
  returns.
* `verify_stripped` — a hybrid output whose classical signature is taken away is accepted under the
  same label.
-/

namespace PqcGateway

/-- The signatures present are those that the algorithm names. -/
def SignatureOutput.Labelled (output : SignatureOutput) : Prop :=
  (output.algorithm = "ecdsa-p256+ml-dsa-65" ∧ output.classicalSignature ≠ none) ∨
    (output.algorithm = "ml-dsa-65" ∧ output.classicalSignature = none)

/-- The output without its classical signature. -/
def SignatureOutput.stripped (output : SignatureOutput) : SignatureOutput :=
  { output with classicalSignature := none }

namespace SignatureKeyManager

variable {C : SigningCrates} {skm : SignatureKeyManager C} {data : List UInt8}
  {output : SignatureOutput}

/-- The signatures that the algorithm names are present, with no other, and verify. -/
def KeepsPromise (skm : SignatureKeyManager C) (data : List UInt8) (output : SignatureOutput) :
    Prop :=
  (output.algorithm = "ecdsa-p256+ml-dsa-65" ∧ skm.verifyMldsa data output.pqcSignature = true ∧
      ∃ classicalB64, output.classicalSignature = some classicalB64 ∧
        skm.verifyEcdsa data classicalB64 = true) ∨
    (output.algorithm = "ml-dsa-65" ∧ skm.verifyMldsa data output.pqcSignature = true ∧
      output.classicalSignature = none)

/-- What is accepted keeps the promise of its label. -/
def NoDowngrade (skm : SignatureKeyManager C) (data : List UInt8) (output : SignatureOutput) :
    Prop :=
  skm.verify data output = true → KeepsPromise skm data output

/-- The digest is the data's, and each signature present verifies, whatever the label. -/
theorem verify_iff : skm.verify data output = true ↔
    hexEncode (C.sha256 data).toList = output.contentDigest ∧
      skm.verifyMldsa data output.pqcSignature = true ∧
      ∀ classicalB64, output.classicalSignature = some classicalB64 →
        skm.verifyEcdsa data classicalB64 = true := by
  rw [verify]
  split_ifs with hdigest hmldsa
  · exact iff_of_false id fun h => hdigest h.1
  · rw [and_iff_right (not_not.mp hdigest), and_iff_right hmldsa]
    rcases output.classicalSignature with _ | classicalB64
    · exact iff_of_true rfl fun _ h => absurd h.symm (Option.some_ne_none _)
    · simp
  · exact iff_of_false id fun h => hmldsa h.2.1

/-- An accepted output keeps its promise exactly when it is labelled so. -/
theorem keepsPromise_iff (h : skm.verify data output = true) :
    KeepsPromise skm data output ↔ output.Labelled := by
  obtain ⟨-, hmldsa, hecdsa⟩ := verify_iff.mp h
  refine or_congr (and_congr_right' ?_) (and_congr_right' (and_iff_right hmldsa))
  rw [and_iff_right hmldsa, Option.ne_none_iff_exists']
  exact exists_congr fun classicalB64 => and_iff_left_of_imp (hecdsa classicalB64)

/-- An output is what is made of the signature. -/
theorem eq_of_signed {draft : String → SignatureOutput}
    (h : (skm.pqcB64 data >>= fun pqcB64 => pure (draft pqcB64)) >>=
      (fun signed => pure (some signed)) = .ok (some output)) :
    ∃ pqcB64, output = draft pqcB64 := by
  obtain ⟨_, hsigned, hsome⟩ := Checked.bind_eq_ok.mp h
  obtain ⟨pqcB64, -, houtput⟩ := Checked.bind_eq_ok.mp hsigned
  obtain rfl := Except.ok.inj houtput
  exact ⟨pqcB64, (Option.some.inj (Except.ok.inj hsome)).symm⟩

theorem hybrid_of_sign (h : skm.sign .hybrid data = .ok (some output)) :
    output.algorithm = "ecdsa-p256+ml-dsa-65" ∧ output.classicalSignature ≠ none := by
  obtain ⟨pqcB64, rfl⟩ := eq_of_signed h
  exact ⟨rfl, Option.some_ne_none _⟩

theorem mlDsaOnly_of_sign (h : skm.sign .mlDsaOnly data = .ok (some output)) :
    output.algorithm = "ml-dsa-65" ∧ output.classicalSignature = none := by
  obtain ⟨pqcB64, rfl⟩ := eq_of_signed h
  exact ⟨rfl, rfl⟩

/-- What is signed, in any mode, is labelled. -/
theorem labelled_of_sign {mode : SignatureMode} (h : skm.sign mode data = .ok (some output)) :
    output.Labelled := by
  rcases mode with _ | _ | _
  · cases h
  · exact .inl (hybrid_of_sign h)
  · exact .inr (mlDsaOnly_of_sign h)

/-- **Taking the classical signature away** leaves an output accepted. -/
theorem verify_stripped (h : skm.verify data output = true) :
    skm.verify data output.stripped = true := by
  obtain ⟨hdigest, hmldsa, -⟩ := verify_iff.mp h
  exact verify_iff.mpr ⟨hdigest, hmldsa, fun _ h => absurd h.symm (Option.some_ne_none _)⟩

theorem not_keepsPromise_stripped (h : output.algorithm = "ecdsa-p256+ml-dsa-65") :
    ¬ KeepsPromise skm data output.stripped := by
  rintro (⟨-, -, _, ⟨⟩, -⟩ | ⟨hlabel, -⟩)
  exact absurd (h.symm.trans hlabel) (by decide)

/-- **The label is kept** of every output whose label fits the signatures present, as it does for
what is signed, and of no other output that is accepted; stripped of its classical signature, what
is signed in hybrid mode is accepted under a label that it does not keep. -/
theorem noDowngrade_of_labelled (skm : SignatureKeyManager C) (data : List UInt8) :
    (∀ output : SignatureOutput, output.Labelled → NoDowngrade skm data output) ∧
    (∀ mode output, skm.sign mode data = .ok (some output) → output.Labelled) ∧
    (∀ output, skm.verify data output = true →
      (NoDowngrade skm data output ↔ output.Labelled)) ∧
    (C.Lawful → skm.Made → ∃ output, skm.sign .hybrid data = .ok (some output) ∧
      skm.verify data output.stripped = true ∧ ¬ NoDowngrade skm data output.stripped) := by
  have hiff : ∀ output, skm.verify data output = true →
      (NoDowngrade skm data output ↔ output.Labelled) := fun output hverify =>
    ⟨fun h => (keepsPromise_iff hverify).mp (h hverify),
      fun h _ => (keepsPromise_iff hverify).mpr h⟩
  refine ⟨fun output hlabelled hverify => ?_, fun _ _ => labelled_of_sign, hiff,
    fun hC hmade => ?_⟩
  · exact (keepsPromise_iff hverify).mpr hlabelled
  · have hmode : SignatureMode.hybrid ≠ .classical := by decide
    obtain ⟨output, hsign, hverify⟩ := verify_of_sign hC hmade hmode data
    refine ⟨output, hsign, verify_stripped hverify, fun h => ?_⟩
    exact not_keepsPromise_stripped (hybrid_of_sign hsign).1 (h (verify_stripped hverify))

/-- A hybrid output as it was signed, and without its classical signature. -/
theorem noDowngrade_plain :
    (∃ output, plainSigner.sign .hybrid [1, 2, 3] = .ok (some output) ∧
      plainSigner.verify [1, 2, 3] output.stripped = true ∧
      ¬ NoDowngrade plainSigner [1, 2, 3] output.stripped) ∧
    ∀ output, plainSigner.sign .hybrid [1, 2, 3] = .ok (some output) →
      NoDowngrade plainSigner [1, 2, 3] output := by
  obtain ⟨hkept, hlabelled, -, hstripped⟩ := noDowngrade_of_labelled plainSigner [1, 2, 3]
  exact ⟨hstripped lawful_plainResponse.signatures (.inl ⟨_, _, rfl⟩),
    fun output hsign => hkept output (hlabelled _ _ hsign)⟩

end SignatureKeyManager

/-- What `plainSigner` signs in hybrid mode, without the classical signature. -/
def strippedOutput : SignatureOutput where
  algorithm := "ecdsa-p256+ml-dsa-65"
  pqcSignature := wideBase64.encode ((Vector.replicate 32 9).toList ++ [1, 2, 3])
  classicalSignature := none
  contentDigest := hexEncode (headDigest [1, 2, 3]).toList
  publicKeyFingerprint := plainSigner.fingerprint

/-- **The classical signature taken away**: the label still says that both are there, and the output
is accepted. -/
theorem stripped_hybrid_accepted :
    plainSigner.sign .hybrid [1, 2, 3] = .ok (some
      { strippedOutput with classicalSignature := some (plainSigner.classicalB64 [1, 2, 3]) }) ∧
    plainSigner.verify [1, 2, 3] strippedOutput = true ∧
    ¬ SignatureKeyManager.NoDowngrade plainSigner [1, 2, 3] strippedOutput := by
  have hpqc : plainSigner.pqcB64 [1, 2, 3]
      = .ok (wideBase64.encode ((Vector.replicate 32 9).toList ++ [1, 2, 3])) := by
    rw [SignatureKeyManager.pqcB64, mlDsaSign]
    rfl
  have hsigned := SignatureKeyManager.sign_hybrid hpqc
  have hmode : SignatureMode.hybrid ≠ .classical := by decide
  have haccepted : plainSigner.verify [1, 2, 3] strippedOutput = true := by
    obtain ⟨output, hsign, hverify⟩ := SignatureKeyManager.verify_of_sign
      lawful_plainResponse.signatures (.inl ⟨_, _, rfl⟩) hmode [1, 2, 3]
    obtain rfl := Option.some.inj (Except.ok.inj (hsign.symm.trans hsigned))
    exact SignatureKeyManager.verify_stripped hverify
  have hbroken : ¬ SignatureKeyManager.KeepsPromise plainSigner [1, 2, 3] strippedOutput.stripped :=
    SignatureKeyManager.not_keepsPromise_stripped rfl
  exact ⟨hsigned, haccepted, fun h => hbroken (h haccepted)⟩

end PqcGateway
