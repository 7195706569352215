import PqcGateway.Threshold.Quorum

/-!
# Threshold/Recovery — recovering a manager from some of its codes

`ThresholdKeyManager::recover_from_codes` is given a configuration and does not compare its
threshold with the number of codes.  From fewer codes it interpolates another seed, and returns a
manager of the key that belongs to that one (`recoversKey_iff`).

* `HoldsSeed.exists_recoverFromCodes` — codes of different shares always recover a manager,
  whosever.
* `one_code_another_key` — from one code where it takes two, one of another key.
-/

namespace PqcGateway

/-- The recovery ends in an error, or keeps the public key. -/
def RecoversKey (D : MlDsa) (H : Sha256) (mgr : ThresholdKeyManager) (codes : List String)
    (rng : OsRng) : Prop :=
  (∃ e, ThresholdKeyManager.recoverFromCodes D H codes mgr.config rng = throw e) ∨
    ∃ next, ThresholdKeyManager.recoverFromCodes D H codes mgr.config rng = pure next ∧
      next.publicKey = mgr.publicKey

section

variable {D : MlDsa} {H : Sha256} {mgr : ThresholdKeyManager} {seed : Vector UInt8 32}

/-- Every seed gives a manager. -/
theorem exists_recoverFromSeed {config : SharingConfig} (ht : 1 ≤ config.threshold.toNat)
    (seed : Vector UInt8 32) (rng : OsRng) :
    ∃ next, ThresholdKeyManager.recoverFromSeed D H seed.toList config rng = pure next ∧
      next.publicKey = seedPublicKey D seed := by
  have hne : seed.toList ≠ [] := List.ne_nil_of_length_pos (by simp)
  obtain ⟨out, hsplit, -⟩ := exists_isSharing ht hne rng
  rw [ThresholdKeyManager.recoverFromSeed]
  simp only [bytes32TryFrom_toList, hsplit, Fallible.liftM_ok, pure_bind]
  exact ⟨_, rfl, rfl⟩

/-- **Different shares of a manager always recover**: the key of the seed they interpolate. -/
theorem HoldsSeed.exists_recoverFromCodes (h : HoldsSeed D seed mgr) {shares : List Share}
    (hne : shares ≠ []) (hsub : shares ⊆ mgr.distributedShares) (hnodup : shares.Nodup)
    (rng : OsRng) :
    ∃ found next, reconstructSecret shares = .ok (Vector.toList found) ∧
      ThresholdKeyManager.recoverFromCodes D H (generateRecoveryCodes shares) mgr.config rng
        = pure next ∧ next.publicKey = seedPublicKey D found := by
  obtain ⟨bytes, hbytes, hlength⟩ := h.sharing.reconstructSecret_returns hne hsub hnodup
  obtain ⟨found, rfl⟩ := exists_seed_of_length (hlength.trans seed.length_toList)
  obtain ⟨next, hnext, hkey⟩ :=
    exists_recoverFromSeed (D := D) (H := H) h.sharing.one_le found rng
  refine ⟨found, next, hbytes, ?_, hkey⟩
  rw [ThresholdKeyManager.recoverFromCodes_eq_bind, recoverFromCodes_generateRecoveryCodes, hbytes,
    Fallible.liftM_ok, pure_bind, hnext]

/-- **Recovery is silent about the threshold.**  With different codes of a manager it never ends in
an error, and it keeps the public key exactly when there are `threshold` of them, or when the seed
happens to lie on the polynomials of lower degree that the fewer shares determine. -/
theorem recoversKey_iff (hD : D.Lawful) (hinj : Function.Injective (seedPublicKey D))
    (hmgr : ThresholdKeyManager.Reached D H mgr) (hseed : seedPublicKey D seed = mgr.publicKey)
    {codes : List String} (hne : codes ≠ []) (hsub : codes ⊆ mgr.recoveryCodes)
    (hnodup : codes.Nodup) (rng : OsRng) :
    RecoversKey D H mgr codes rng ↔
      mgr.config.threshold.toNat ≤ codes.length ∨
        ∃ shares ⊆ mgr.distributedShares, generateRecoveryCodes shares = codes ∧
          Interpolates shares seed.toList := by
  obtain ⟨held, h⟩ := hmgr.holdsSeed hD
  obtain rfl := hinj (hseed.trans h.publicKey_eq)
  obtain ⟨shares, hshares, rfl⟩ := IsSharing.exists_shares_of_codes (h.codes_eq ▸ hsub)
  have hne : shares ≠ [] := fun hnil => hne (List.map_eq_nil_iff.mpr hnil)
  have hnodup : shares.Nodup := hnodup.of_map recoveryCode
  obtain ⟨found, next, hfound, hnext, hkey⟩ :=
    h.exists_recoverFromCodes (H := H) hne hshares hnodup rng
  have hrecovers : RecoversKey D H mgr (generateRecoveryCodes shares) rng ↔
      reconstructSecret shares = .ok seed.toList := by
    rw [hfound, Except.ok.injEq, Vector.toList_inj, RecoversKey, hnext]
    constructor
    · rintro (⟨e, he⟩ | ⟨next', hnext', hkey'⟩)
      · exact absurd he.symm (Fallible.throw_ne_pure e next)
      · obtain rfl := Except.ok.inj (Except.ok.inj hnext')
        exact hinj (hkey.symm.trans (hkey'.trans hseed.symm))
    · rintro rfl
      exact .inr ⟨next, rfl, hkey.trans hseed⟩
  have hcodes : (∃ shares' ⊆ mgr.distributedShares,
      generateRecoveryCodes shares' = generateRecoveryCodes shares ∧
        Interpolates shares' seed.toList) ↔ Interpolates shares seed.toList := by
    constructor
    · rintro ⟨shares', -, heq, hinterpolates⟩
      obtain rfl := recoveryCode_injective.list_map heq
      exact hinterpolates
    · exact fun hinterpolates => ⟨shares, hshares, rfl, hinterpolates⟩
  rw [hrecovers, h.sharing.reconstructSecret_iff hne hshares hnodup, hcodes,
    generateRecoveryCodes, List.length_map]

end

/-- A two-of-three manager, recovered from all of its codes. -/
theorem recoversKey_all_codes :
    ∃ mgr, ThresholdKeyManager.new plainDsa headDigest ⟨2, 3⟩ (Vector.replicate 32 7)
        (fun _ _ => 9) = .ok mgr ∧
      RecoversKey plainDsa headDigest mgr mgr.recoveryCodes fun _ _ => 4 := by
  obtain ⟨mgr, hnew, hconfig⟩ := exists_new plainDsa headDigest (Vector.replicate 32 7) ⟨2, 3⟩
    (by decide) fun _ _ => 9
  have h := holdsSeed_of_new lawful_plainDsa hnew
  have hcodes : IsCodeQuorum mgr mgr.recoveryCodes :=
    (new_holdsKey hnew).isCodeQuorum (by rw [hconfig]; decide)
  have hne : mgr.recoveryCodes ≠ [] := by
    refine List.ne_nil_of_length_pos (lt_of_lt_of_le ?_ hcodes.enough)
    rw [hconfig]
    decide
  have hinj : Function.Injective (seedPublicKey plainDsa) := fun _ _ => Vector.toList_inj.mp
  exact ⟨mgr, hnew, (recoversKey_iff lawful_plainDsa hinj (.made hnew) h.publicKey_eq.symm hne
    (List.Subset.refl _) hcodes.nodup _).mpr (.inl hcodes.enough)⟩

/-- **One code of a two-of-three manager.**  Its share is taken for the seed, and the manager that
is returned has another public key. -/
theorem one_code_another_key :
    ∃ mgr code next,
      ThresholdKeyManager.new plainDsa headDigest ⟨2, 3⟩ (Vector.replicate 32 7) (fun _ _ => 9)
        = .ok mgr ∧
      code ∈ mgr.recoveryCodes ∧
      ThresholdKeyManager.recoverFromCodes plainDsa headDigest [code] mgr.config (fun _ _ => 4)
        = pure next ∧
      next.publicKey ≠ mgr.publicKey ∧
      ¬ RecoversKey plainDsa headDigest mgr [code] fun _ _ => 4 := by
  obtain ⟨mgr, hnew, hconfig⟩ := exists_new plainDsa headDigest (Vector.replicate 32 7) ⟨2, 3⟩
    (by decide) fun _ _ => 9
  have h := holdsSeed_of_new lawful_plainDsa hnew
  let share := shareOf (fun _ _ => 9) ⟨2, 3⟩ (Vector.replicate 32 7).toList 1
  have hshare : share ∈ mgr.distributedShares := by
    rw [distributedShares_of_new hnew]
    exact List.mem_map_of_mem (by decide)
  have hdata : share.data ≠ (Vector.replicate 32 7).toList := fun heq => by
    have hbyte := congrArg (·.getD 0 0) heq
    revert hbyte
    decide
  obtain ⟨found, next, hfound, hnext, hkey⟩ := h.exists_recoverFromCodes (H := headDigest)
    (List.cons_ne_nil share []) (List.cons_subset.mpr ⟨hshare, List.nil_subset _⟩)
    (List.nodup_singleton share) fun _ _ => 4
  rw [reconstructSecret_singleton, Except.ok.injEq] at hfound
  have hother : next.publicKey ≠ mgr.publicKey := by
    rw [hkey, h.publicKey_eq]
    exact fun heq => hdata (hfound.trans heq)
  refine ⟨mgr, recoveryCode share, next, hnew, ?_, hnext, hother, ?_⟩
  · rw [h.codes_eq]
    exact List.mem_map_of_mem hshare
  · rintro (⟨e, he⟩ | ⟨next', hnext', hkey'⟩)
    · exact Fallible.throw_ne_pure e next (he.symm.trans hnext)
    · obtain rfl := Except.ok.inj (Except.ok.inj (hnext.symm.trans hnext'))
      exact hother hkey'

end PqcGateway
