import PqcGateway.Batch.Timestamp
import PqcGateway.Machinery.Build

/-!
# Batch/TimeWindow — how old a timestamp proof may be

`verifyTimestampProofWithTimeCheck` admits a clock that is up to a minute behind the authority's,
and then subtracts the timestamp from the time without asking which is the later.  A build with
overflow checks panics on such a proof, and one without takes it for very old (`keepsWindow_iff`).

* `timeCheck_of_verify` — what is left to check of a proof that verifies.
* `future_proof_rejected` — ten seconds ahead of the clock, a proof panics in one build and is too
  old in the other.
-/

namespace PqcGateway

section

variable (D : MlDsa) (H : Sha256)

/-- Verify a timestamp proof and check that the timestamp is within an acceptable range, `now`
seconds on the clock. -/
def verifyTimestampProofWithTimeCheck (build : Build) (proof : TimestampProof)
    (message : List UInt8) (maxAgeSeconds now : UInt64) : Checked Bool :=
  if ¬ verifyTimestampProof D H proof message then pure false
  else do
    -- Timestamp must not be in the future (with small tolerance)
    let latest ← build.add now 60
    if proof.timestamp > latest then pure false
    else do
      -- Timestamp must not be too old
      let age ← build.sub now proof.timestamp
      if age > maxAgeSeconds then pure false
      else pure true

/-- The check returns, and accepts what is at most a minute ahead and at most that old. -/
def KeepsWindow (build : Build) (proof : TimestampProof) (message : List UInt8)
    (maxAgeSeconds now : UInt64) : Prop :=
  verifyTimestampProofWithTimeCheck D H build proof message maxAgeSeconds now
    = .ok (decide (proof.timestamp.toNat ≤ now.toNat + 60 ∧
        now.toNat ≤ proof.timestamp.toNat + maxAgeSeconds.toNat))

end

section

variable {D : MlDsa} {H : Sha256} {build : Build} {proof : TimestampProof} {message : List UInt8}
  {maxAgeSeconds now : UInt64}

/-- What is left to check of a proof that verifies. -/
theorem timeCheck_of_verify (hverify : verifyTimestampProof D H proof message = true)
    (hnow : now.toNat + 60 < 2 ^ 64) :
    verifyTimestampProofWithTimeCheck D H build proof message maxAgeSeconds now
      = if now.toNat + 60 < proof.timestamp.toNat then .ok false
        else build.sub now proof.timestamp >>= fun age =>
          .ok (decide (age.toNat ≤ maxAgeSeconds.toNat)) := by
  have hlatest : (now + 60).toNat = now.toNat + 60 := by
    rw [UInt64.toNat_add]
    exact Nat.mod_eq_of_lt hnow
  rw [verifyTimestampProofWithTimeCheck, if_neg (not_not.mpr hverify), Build.add_of_lt hnow,
    Checked.ok_bind]
  refine if_congr (by rw [gt_iff_lt, UInt64.lt_iff_toNat_lt, hlatest]) rfl ?_
  refine congrArg (build.sub now proof.timestamp >>= ·) (funext fun age => ?_)
  have hage : age > maxAgeSeconds ↔ ¬ age.toNat ≤ maxAgeSeconds.toNat := by
    rw [gt_iff_lt, UInt64.lt_iff_toNat_lt, not_le]
  split_ifs with h
  · exact congrArg Except.ok (decide_eq_false (hage.mp h)).symm
  · exact congrArg Except.ok (decide_eq_true (not_not.mp (mt hage.mpr h))).symm

/-- **A clock behind the authority's.**  Of a proof that verifies the window is kept exactly when it
is not from the future, or from too far in it; or, with no overflow checks, when the age allowed is
so large that the wrapped difference is below it. -/
theorem keepsWindow_iff (hverify : verifyTimestampProof D H proof message = true)
    (hnow : now.toNat + 60 < 2 ^ 64) :
    KeepsWindow D H build proof message maxAgeSeconds now ↔
      proof.timestamp ≤ now ∨ now.toNat + 60 < proof.timestamp.toNat ∨
        build = .release ∧
          now.toNat + 2 ^ 64 ≤ proof.timestamp.toNat + maxAgeSeconds.toNat := by
  rw [KeepsWindow, timeCheck_of_verify hverify hnow]
  obtain hfar | hnear := Nat.lt_or_ge (now.toNat + 60) proof.timestamp.toNat
  · rw [if_pos hfar, decide_eq_false (by omega)]
    exact iff_of_true rfl (.inr (.inl hfar))
  rw [if_neg (not_lt.mpr hnear)]
  obtain hpast | hfuture := UInt64.le_or_lt proof.timestamp now
  · refine iff_of_true ?_ (.inl hpast)
    have hle := UInt64.le_iff_toNat_le.mp hpast
    rw [Build.sub_of_le hpast, Checked.ok_bind, Except.ok.injEq, decide_eq_decide,
      UInt64.toNat_sub_of_le _ _ hpast]
    omega
  · have hlt := UInt64.lt_iff_toNat_lt.mp hfuture
    have hnotpast : ¬ proof.timestamp ≤ now := UInt64.not_le.mpr hfuture
    have hdue : proof.timestamp.toNat ≤ now.toNat + 60 ∧
        now.toNat ≤ proof.timestamp.toNat + maxAgeSeconds.toNat := by omega
    rw [or_iff_right hnotpast, or_iff_right (not_lt.mpr hnear), decide_eq_true hdue]
    rcases build with _ | _
    · -- the subtraction panics
      rw [Build.sub, Build.overflowing, if_neg hnotpast]
      refine iff_of_false ?_ ?_
      · rintro ⟨⟩
      · rintro ⟨⟨⟩, -⟩
    · -- the subtraction wraps
      have hwrap := Build.toNat_sub_of_lt hfuture
      rw [Build.sub, Build.overflowing, Checked.ok_bind, Except.ok.injEq, decide_eq_true_iff,
        and_iff_right rfl]
      omega

end

/-- A proof stamped at `110`. -/
def proofAt110 : TimestampProof :=
  issuedProof plainDsa headDigest (Vector.replicate 32 7) ⟨[1, 2, 3], 110⟩

theorem verify_proofAt110 :
    verifyTimestampProof plainDsa headDigest proofAt110 [1, 2, 3] = true :=
  verify_issuedProof (mlDsaVerifies_sign lawful_plainDsa _ _)

/-- Twenty seconds later, in either build. -/
theorem keepsWindow_later :
    KeepsWindow plainDsa headDigest .debug proofAt110 [1, 2, 3] 3600 130 ∧
      KeepsWindow plainDsa headDigest .release proofAt110 [1, 2, 3] 3600 130 :=
  ⟨(keepsWindow_iff verify_proofAt110 (by decide)).mpr (.inl (by decide)),
    (keepsWindow_iff verify_proofAt110 (by decide)).mpr (.inl (by decide))⟩

/-- **Ten seconds ahead of the clock**, well within the tolerance: one build panics, and the other
finds the proof too old. -/
theorem future_proof_rejected :
    verifyTimestampProofWithTimeCheck plainDsa headDigest .debug proofAt110 [1, 2, 3] 3600 100
      = Checked.panicWith "attempt to subtract with overflow" ∧
    verifyTimestampProofWithTimeCheck plainDsa headDigest .release proofAt110 [1, 2, 3] 3600 100
      = .ok false ∧
    ¬ KeepsWindow plainDsa headDigest .debug proofAt110 [1, 2, 3] 3600 100 ∧
    ¬ KeepsWindow plainDsa headDigest .release proofAt110 [1, 2, 3] 3600 100 := by
  have hdebug : verifyTimestampProofWithTimeCheck plainDsa headDigest .debug proofAt110 [1, 2, 3]
      3600 100 = Checked.panicWith "attempt to subtract with overflow" :=
    timeCheck_of_verify verify_proofAt110 (by decide)
  have hrelease : verifyTimestampProofWithTimeCheck plainDsa headDigest .release proofAt110
      [1, 2, 3] 3600 100 = .ok false := timeCheck_of_verify verify_proofAt110 (by decide)
  refine ⟨hdebug, hrelease, fun h => ?_, fun h => ?_⟩
  · cases hdebug.symm.trans h
  · exact absurd (Except.ok.inj (hrelease.symm.trans h)) (by decide)

end PqcGateway
