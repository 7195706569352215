import PqcGateway.Threshold.Manager
import PqcGateway.Threshold.Reconstruct

/-!
# Threshold/Quorum — which lists of indices sign

A manager is made fresh or recovered from codes, whichever they are; it then holds a seed in shares,
and signing keeps that (`Reached.holdsSeed`).  `signWithQuorum` counts the entries of a list that it
has shares for, and interpolates at all of them: a list that repeats one of them passes the count
and panics (`quorumSigns_iff`).

* `signWithQuorum_repeat` — a share that is named twice is a panic, if the count lets the list pass.
* `repeated_share_panics` — three entries for two shares, where it takes three.
-/

namespace PqcGateway

/-! ## The managers there are -/

/-- The public key that belongs to a seed. -/
def seedPublicKey (D : MlDsa) (seed : Vector UInt8 32) : List UInt8 :=
  D.encodeKey (D.verifyingKey (D.fromSeed seed))

namespace ThresholdKeyManager

/-- A manager as a program can have one: made fresh, recovered from some codes, or left by a call of
`sign_with_quorum`. -/
inductive Reached (D : MlDsa) (H : Sha256) : ThresholdKeyManager → Prop
  | made {config : SharingConfig} {sk : D.SigningKey} {rng : OsRng} {mgr : ThresholdKeyManager}
      (h : new D H config sk rng = .ok mgr) : Reached D H mgr
  | recovered {codes : List String} {config : SharingConfig} {rng : OsRng}
      {mgr : ThresholdKeyManager} (h : recoverFromCodes D H codes config rng = pure mgr) :
      Reached D H mgr
  | signed {mgr mgr' : ThresholdKeyManager} {ids message : List UInt8} {out : Option (List UInt8)}
      (before : Reached D H mgr) (h : mgr.signWithQuorum D ids message = .ok (mgr', out)) :
      Reached D H mgr'

end ThresholdKeyManager

/-- The manager holds the seed, in shares made under its configuration, and shows its public key. -/
structure HoldsSeed (D : MlDsa) (seed : Vector UInt8 32) (mgr : ThresholdKeyManager) : Prop where
  publicKey_eq : mgr.publicKey = seedPublicKey D seed
  sharing : IsSharing mgr.config seed.toList mgr.distributedShares
  codes_eq : mgr.recoveryCodes = generateRecoveryCodes mgr.distributedShares

section

variable {D : MlDsa} {H : Sha256} {mgr : ThresholdKeyManager} {seed : Vector UInt8 32}

theorem holdsSeed_of_new (hD : D.Lawful) {config : SharingConfig} {sk : D.SigningKey} {rng : OsRng}
    (h : ThresholdKeyManager.new D H config sk rng = .ok mgr) :
    HoldsSeed D (D.toSeed sk) mgr := by
  have hkey := new_holdsKey h
  refine ⟨?_, hkey.sharing, hkey.codes_eq⟩
  rw [hkey.publicKey_eq, seedPublicKey, hD.fromSeed_toSeed]
  rfl

/-- The shares of a fresh manager. -/
theorem distributedShares_of_new {config : SharingConfig} {sk : D.SigningKey} {rng : OsRng}
    (h : ThresholdKeyManager.new D H config sk rng = .ok mgr) :
    mgr.distributedShares
      = (shareIds config).map (shareOf rng config (D.toSeed sk).toList) := by
  obtain ⟨shares, hsplit, h⟩ := Checked.bind_eq_ok.mp h
  obtain rfl := Except.ok.inj h
  have hsharing := isSharing_of_splitSecret hsplit
  rw [splitSecret_eq hsharing.nonempty hsharing.one_le] at hsplit
  exact (Except.ok.inj hsplit).symm

/-- A recovery that returns holds what it was given as the seed. -/
theorem holdsSeed_of_recoverFromSeed {bytes : List UInt8} {config : SharingConfig} {rng : OsRng}
    (h : ThresholdKeyManager.recoverFromSeed D H bytes config rng = pure mgr) :
    ∃ seed, seed.toList = bytes ∧ HoldsSeed D seed mgr := by
  unfold ThresholdKeyManager.recoverFromSeed at h
  split at h
  · exact absurd h (Fallible.throw_ne_pure _ mgr)
  · rename_i seed hseed
    obtain rfl := toList_of_bytes32TryFrom hseed
    obtain ⟨shares, hsplit, hmgr⟩ := Fallible.bind_eq_pure.mp h
    obtain rfl := Except.ok.inj (Except.ok.inj hmgr)
    exact ⟨seed, rfl, rfl, isSharing_of_splitSecret (Fallible.liftM_eq_pure.mp hsplit), rfl⟩

/-- Signing touches the count only. -/
theorem signWithQuorum_frame {ids message : List UInt8} {mgr' : ThresholdKeyManager}
    {out : Option (List UInt8)} (h : mgr.signWithQuorum D ids message = .ok (mgr', out)) :
    ∃ signatureCount, mgr' = { mgr with signatureCount } := by
  unfold ThresholdKeyManager.signWithQuorum at h
  split at h
  · exact ⟨_, (Prod.mk.inj (Except.ok.inj h)).1.symm⟩
  simp only at h
  split at h
  · exact ⟨_, (Prod.mk.inj (Except.ok.inj h)).1.symm⟩
  obtain ⟨bytes, -, h⟩ := Checked.bind_eq_ok.mp h
  split at h
  · obtain ⟨count, -, h⟩ := Checked.bind_eq_ok.mp h
    exact ⟨count, (Prod.mk.inj (Except.ok.inj h)).1.symm⟩
  · exact ⟨_, (Prod.mk.inj (Except.ok.inj h)).1.symm⟩

/-- **Every manager holds a seed**, and keeps it. -/
theorem ThresholdKeyManager.Reached.holdsSeed (hD : D.Lawful)
    (h : ThresholdKeyManager.Reached D H mgr) : ∃ seed, HoldsSeed D seed mgr := by
  induction h with
  | made hnew => exact ⟨_, holdsSeed_of_new hD hnew⟩
  | recovered hrecover =>
    rw [ThresholdKeyManager.recoverFromCodes_eq_bind] at hrecover
    obtain ⟨bytes, -, hseed⟩ := Fallible.bind_eq_pure.mp hrecover
    obtain ⟨seed, -, hholds⟩ := holdsSeed_of_recoverFromSeed hseed
    exact ⟨seed, hholds⟩
  | signed _ hsign ih =>
    obtain ⟨seed, hholds⟩ := ih
    obtain ⟨count, rfl⟩ := signWithQuorum_frame hsign
    exact ⟨seed, hholds.publicKey_eq, hholds.sharing, hholds.codes_eq⟩

/-! ## Which lists sign

Indices that the manager has no share for are passed over, and so decide nothing. -/

/-- The entries of a list that the manager has shares for, repeats included. -/
def knownIds (mgr : ThresholdKeyManager) (ids : List UInt8) : List UInt8 :=
  ids.filter fun id => 1 ≤ id ∧ id ≤ mgr.config.totalShares

/-- The call is as promised: it does not panic, it signs exactly with `threshold` different indices
the manager has shares for, the signature verifies and is counted, and otherwise nothing changes. -/
def QuorumSigns (D : MlDsa) (mgr : ThresholdKeyManager) (ids message : List UInt8) : Prop :=
  ∃ mgr' out, mgr.signWithQuorum D ids message = .ok (mgr', out) ∧
    (out.isSome ↔ mgr.config.threshold.toNat ≤ (knownIds mgr ids).toFinset.card) ∧
    (∀ sig, out = some sig → mgr.verify D message sig = true ∧
      mgr' = { mgr with signatureCount := mgr.signatureCount + 1 }) ∧
    (out = none → mgr' = mgr)

namespace HoldsSeed

variable {ids message : List UInt8}

/-- The shares found are those of the known entries, in the order of the list. -/
theorem shares_found (h : HoldsSeed D seed mgr) :
    ids.filterMap mgr.getShare ⊆ mgr.distributedShares ∧
      (ids.filterMap mgr.getShare).map Share.id = knownIds mgr ids := by
  have hknown : ids.filterMap mgr.getShare = (knownIds mgr ids).filterMap mgr.getShare := by
    rw [knownIds, List.filterMap_filter]
    refine List.filterMap_congr fun id _ => ?_
    split_ifs with hid
    · rfl
    · refine List.find?_eq_none.mpr fun share hshare heq => hid (decide_eq_true ?_)
      rw [← eq_of_beq heq, ← mem_shareIds, ← h.sharing.map_id]
      exact List.mem_map_of_mem hshare
  rw [hknown]
  refine h.sharing.filterMap_find fun id hid => mem_shareIds.mpr ?_
  exact of_decide_eq_true (List.mem_filter.mp hid).2

theorem length_shares_found (h : HoldsSeed D seed mgr) :
    (ids.filterMap mgr.getShare).length = (knownIds mgr ids).length := by
  rw [← h.shares_found.2, List.length_map]

/-- With few known entries nothing is signed. -/
theorem signWithQuorum_few (h : HoldsSeed D seed mgr)
    (hfew : (knownIds mgr ids).length < mgr.config.threshold.toNat) :
    mgr.signWithQuorum D ids message = .ok (mgr, none) := by
  rw [ThresholdKeyManager.signWithQuorum]
  split_ifs with hlen
  · rfl
  · simp only [h.length_shares_found, if_pos hfew]
    rfl

/-- **A repeated entry panics.** -/
theorem signWithQuorum_repeat (h : HoldsSeed D seed mgr)
    (henough : mgr.config.threshold.toNat ≤ (knownIds mgr ids).length)
    (hrepeat : ¬ (knownIds mgr ids).Nodup) :
    mgr.signWithQuorum D ids message
      = Checked.panicWith "Cannot invert 0 in GF(256)" := by
  have hlen : ∀ s ∈ ids.filterMap mgr.getShare, s.data.length = 31 + 1 := fun s hs => by
    rw [h.sharing.length_data (h.shares_found.1 hs), Vector.length_toList]
  have hpanic := reconstructSecret_of_repeat hlen (by rwa [h.shares_found.2])
  have hmany := henough.trans (List.length_filter_le _ ids)
  rw [ThresholdKeyManager.signWithQuorum, if_neg (not_lt.mpr hmany)]
  simp only [h.length_shares_found, if_neg (not_lt.mpr henough), hpanic]
  rfl

/-- **Enough different entries sign**, while the count has room. -/
theorem signWithQuorum_quorum (h : HoldsSeed D seed mgr)
    (henough : mgr.config.threshold.toNat ≤ (knownIds mgr ids).length)
    (hnodup : (knownIds mgr ids).Nodup) :
    mgr.signWithQuorum D ids message = (do
      let signatureCount ← Checked.checkedAdd 64 mgr.signatureCount 1
      pure ({ mgr with signatureCount },
        some (D.encodeSignature (D.sign (D.fromSeed seed) message)))) := by
  have hseed : reconstructSecret (ids.filterMap mgr.getShare) = .ok seed.toList :=
    h.sharing.reconstructSecret h.shares_found.1 (.of_map Share.id (by rwa [h.shares_found.2]))
      (by rwa [h.length_shares_found])
  have hmany := henough.trans (List.length_filter_le _ ids)
  rw [ThresholdKeyManager.signWithQuorum, if_neg (not_lt.mpr hmany)]
  simp only [h.length_shares_found, if_neg (not_lt.mpr henough), hseed, Checked.ok_bind,
    mlDsaSign_toList]

end HoldsSeed

/-- **Quorum signing counts entries, not indices.**  A call is as promised exactly when it is
refused for too few known entries, or when these are all different and the count has room. -/
theorem quorumSigns_iff (hD : D.Lawful) (hmgr : ThresholdKeyManager.Reached D H mgr)
    (ids message : List UInt8) :
    QuorumSigns D mgr ids message ↔
      (knownIds mgr ids).length < mgr.config.threshold.toNat ∨
        (knownIds mgr ids).Nodup ∧ mgr.signatureCount + 1 < 2 ^ 64 := by
  obtain ⟨seed, h⟩ := hmgr.holdsSeed hD
  obtain hfew | henough := Nat.lt_or_ge (knownIds mgr ids).length mgr.config.threshold.toNat
  · have hdistinct := (List.toFinset_card_le (knownIds mgr ids)).trans_lt hfew
    refine iff_of_true ⟨mgr, none, h.signWithQuorum_few hfew, ?_, ?_, fun _ => rfl⟩ (.inl hfew)
    · exact iff_of_false Bool.false_ne_true (not_le.mpr hdistinct)
    · rintro sig ⟨⟩
  rw [or_iff_right (not_lt.mpr henough)]
  constructor
  · rintro ⟨mgr', out, hsign, -⟩
    have hnodup : (knownIds mgr ids).Nodup := by
      by_contra hrepeat
      rw [h.signWithQuorum_repeat henough hrepeat] at hsign
      cases hsign
    rw [h.signWithQuorum_quorum henough hnodup] at hsign
    obtain ⟨count, hcount, -⟩ := Checked.bind_eq_ok.mp hsign
    exact ⟨hnodup, (Checked.checkedAdd_eq_ok.mp hcount).1⟩
  · rintro ⟨hnodup, hcount⟩
    have hsign : mgr.signWithQuorum D ids message = _ := h.signWithQuorum_quorum henough hnodup
    rw [Checked.checkedAdd_of_lt hcount, Checked.ok_bind] at hsign
    refine ⟨_, _, hsign, ?_, ?_, ?_⟩
    · rw [List.toFinset_card_of_nodup hnodup]
      exact iff_of_true rfl henough
    · rintro _ ⟨⟩
      rw [ThresholdKeyManager.verify, h.publicKey_eq]
      exact ⟨mlDsaVerifies_sign hD _ message, rfl⟩
    · rintro ⟨⟩

end

/-- A three-of-five manager, and a list with an index it does not know. -/
theorem quorumSigns_three_of_five :
    ∃ mgr, ThresholdKeyManager.new plainDsa headDigest ⟨3, 5⟩ (Vector.replicate 32 7)
        (fun _ _ => 9) = .ok mgr ∧ QuorumSigns plainDsa mgr [5, 9, 1, 3] [1, 2, 3] := by
  obtain ⟨mgr, hnew, hconfig⟩ := exists_new plainDsa headDigest (Vector.replicate 32 7) ⟨3, 5⟩
    (by decide) fun _ _ => 9
  have hreached : ThresholdKeyManager.Reached plainDsa headDigest mgr := .made hnew
  have hknown : knownIds mgr [5, 9, 1, 3] = [5, 1, 3] := by
    rw [knownIds, hconfig]
    decide
  have hcount : mgr.signatureCount + 1 < 2 ^ 64 := by
    rw [(new_holdsKey hnew).count_eq]
    decide
  refine ⟨mgr, hnew, (quorumSigns_iff lawful_plainDsa hreached _ _).mpr (.inr ⟨?_, hcount⟩)⟩
  rw [hknown]
  decide

/-- **One share twice.**  With three entries for two shares, or a fourth one for the third share
again, the manager panics. -/
theorem repeated_share_panics :
    ∃ mgr, ThresholdKeyManager.new plainDsa headDigest ⟨3, 5⟩ (Vector.replicate 32 7)
        (fun _ _ => 9) = .ok mgr ∧
      mgr.signWithQuorum plainDsa [1, 1, 2] [1, 2, 3]
        = Checked.panicWith "Cannot invert 0 in GF(256)" ∧
      mgr.signWithQuorum plainDsa [1, 2, 3, 3] [1, 2, 3]
        = Checked.panicWith "Cannot invert 0 in GF(256)" ∧
      ¬ QuorumSigns plainDsa mgr [1, 1, 2] [1, 2, 3] ∧
      ¬ QuorumSigns plainDsa mgr [1, 2, 3, 3] [1, 2, 3] := by
  obtain ⟨mgr, hnew, hconfig⟩ := exists_new plainDsa headDigest (Vector.replicate 32 7) ⟨3, 5⟩
    (by decide) fun _ _ => 9
  have h := holdsSeed_of_new lawful_plainDsa hnew
  have hpanic : ∀ ids : List UInt8, 3 ≤ (ids.filter fun id => 1 ≤ id ∧ id ≤ 5).length →
      ¬ (ids.filter fun id => 1 ≤ id ∧ id ≤ 5).Nodup →
      mgr.signWithQuorum plainDsa ids [1, 2, 3]
        = Checked.panicWith "Cannot invert 0 in GF(256)" := by
    intro ids henough hrepeat
    have hknown : knownIds mgr ids = ids.filter fun id => 1 ≤ id ∧ id ≤ 5 := by
      rw [knownIds, hconfig]
    exact h.signWithQuorum_repeat (by rwa [hknown, hconfig]) (by rwa [hknown])
  have htwice := hpanic [1, 1, 2] (by decide) (by decide)
  have hthird := hpanic [1, 2, 3, 3] (by decide) (by decide)
  refine ⟨mgr, hnew, htwice, hthird, ?_, ?_⟩
  · rintro ⟨mgr', out, hsign, -⟩
    rw [htwice] at hsign
    cases hsign
  · rintro ⟨mgr', out, hsign, -⟩
    rw [hthird] at hsign
    cases hsign

end PqcGateway
