import PqcGateway.Keys.Window

/-!
# Keys/Invariant — what holds of the key manager in every reachable state

Both results read the window of `Keys/Window` off the hash map.

* `keyInvariant_run` — the current key is the only active one, and the versions held are the most
  recent ones, after any run.
* `material_run` — the shares and the recovery codes are always those of the current key.
-/

namespace PqcGateway

open KeyVersion VersionedKeyManager

variable {D : MlDsa} {H : Sha256}

/-! ## Reading the window off the map

A kid finds the key of the window that has it, and the current kid the newest. -/

namespace Tracks

variable {past : List KeyVersion} {cur : KeyVersion} {mgr : VersionedKeyManager}

theorem get_eq_some (h : Tracks D past cur mgr) {kid : String} {key : KeyVersion} :
    mgr.keys.get kid = some key ↔ key ∈ heldKeys mgr.maxRetainedKeys past cur ∧ kid = key.kid := by
  rw [h.keys.get_eq_some, List.mem_map]
  constructor
  · rintro ⟨key', hkey, ⟨⟩⟩
    exact ⟨hkey, rfl⟩
  · rintro ⟨hkey, rfl⟩
    exact ⟨key, hkey, rfl⟩

theorem get_current (h : Tracks D past cur mgr) : mgr.keys.get mgr.currentKid = some cur :=
  h.get_eq_some.mpr ⟨mem_heldKeys.mpr (.inl rfl), h.current⟩

theorem made_current (h : Tracks D past cur mgr) : Fresh D (past.length + 1) cur :=
  h.made past.length cur (List.getElem?_concat_length ..)

theorem made_past (h : Tracks D past cur mgr) {i : ℕ} {old : KeyVersion}
    (hi : past[i]? = some old) : Fresh D (i + 1) old := by
  refine h.made i old ?_
  rwa [List.getElem?_append_left (List.getElem?_eq_some_iff.mp hi).1]

/-- **The versions held**: the most recent of those made. -/
theorem mem_versions (h : Tracks D past cur mgr) {v : ℕ} :
    (∃ kid key, mgr.keys.get kid = some key ∧ key.version = v) ↔
      1 ≤ v ∧ v ≤ past.length + 1 ∧ past.length + 1 < v + (mgr.maxRetainedKeys + 1) := by
  constructor
  · rintro ⟨kid, key, hget, rfl⟩
    obtain rfl | ⟨i, old, hi, hmax, rfl⟩ := mem_heldKeys.mp (h.get_eq_some.mp hget).1
    · rw [h.made_current.version_eq]
      omega
    · have hlt := (List.getElem?_eq_some_iff.mp hi).1
      rw [retire_version, (h.made_past hi).version_eq]
      omega
  · rintro ⟨hpos, hle, hmax⟩
    obtain rfl | hlt := Nat.eq_or_lt_of_le hle
    · exact ⟨_, cur, h.get_current, h.made_current.version_eq⟩
    · have hi : past[v - 1]? = some past[v - 1] := List.getElem?_eq_getElem _
      refine ⟨_, past[v - 1].retire, h.get_eq_some.mpr ⟨mem_heldKeys.mpr ?_, rfl⟩, ?_⟩
      · exact .inr ⟨v - 1, _, hi, by omega, rfl⟩
      · rw [retire_version, (h.made_past hi).version_eq]
        omega

/-- A held key's version determines its kid. -/
theorem kid_of_version (h : Tracks D past cur mgr) {kid kid' : String} {key key' : KeyVersion}
    (hget : mgr.keys.get kid = some key) (hget' : mgr.keys.get kid' = some key')
    (hversion : key.version = key'.version) : kid = kid' := by
  have hmade : ∀ {kid key}, mgr.keys.get kid = some key →
      ∃ made, (past ++ [cur])[key.version - 1]? = some made ∧ kid = made.kid := by
    intro kid key hget
    obtain ⟨hkey, rfl⟩ := h.get_eq_some.mp hget
    obtain rfl | ⟨i, old, hi, -, rfl⟩ := mem_heldKeys.mp hkey
    · rw [h.made_current.version_eq]
      exact ⟨_, List.getElem?_concat_length .., rfl⟩
    · rw [retire_version, (h.made_past hi).version_eq, Nat.add_sub_cancel,
        List.getElem?_append_left (List.getElem?_eq_some_iff.mp hi).1]
      exact ⟨old, hi, rfl⟩
  obtain ⟨made, hmade₁, rfl⟩ := hmade hget
  obtain ⟨made', hmade₂, rfl⟩ := hmade hget'
  rw [hversion, hmade₂] at hmade₁
  rw [Option.some.inj hmade₁]

/-- A key of the next window, the newest apart, is a key of this one, retired. -/
theorem exists_of_mem_next {max : ℕ} {new key : KeyVersion}
    (h : key ∈ heldKeys max (past ++ [cur]) new) :
    key = new ∨ ∃ old ∈ heldKeys max past cur, key = old.retire := by
  obtain rfl | ⟨i, old, hi, hmax, rfl⟩ := mem_heldKeys.mp h
  · exact .inl rfl
  rw [List.length_append, List.length_singleton] at hmax
  refine .inr ?_
  obtain hlt | hge := Nat.lt_or_ge i past.length
  · rw [List.getElem?_append_left hlt] at hi
    exact ⟨old.retire, mem_heldKeys.mpr (.inr ⟨i, old, hi, by omega, rfl⟩), rfl⟩
  · rw [List.getElem?_append_right hge, List.getElem?_singleton] at hi
    split at hi
    · obtain rfl := Option.some.inj hi
      exact ⟨cur, mem_heldKeys.mpr (.inl rfl), rfl⟩
    · cases hi

end Tracks

/-! ## The invariant -/

/-- What holds of a manager that made `created` keys. -/
structure KeyInvariant (created : ℕ) (mgr : VersionedKeyManager) : Prop where
  current_active : ∃ key, mgr.keys.get mgr.currentKid = some key ∧ key.active = true
  only_active : ∀ kid key, mgr.keys.get kid = some key → key.active = true → kid = mgr.currentKid
  distinct : ∀ kid kid' key key', mgr.keys.get kid = some key → mgr.keys.get kid' = some key' →
    key.version = key'.version → kid = kid'
  below_next : ∀ kid key, mgr.keys.get kid = some key → key.version < mgr.nextVersion
  most_recent : ∀ v, (∃ kid key, mgr.keys.get kid = some key ∧ key.version = v) ↔
    1 ≤ v ∧ v ≤ created ∧ created < v + (mgr.maxRetainedKeys + 1)

theorem Tracks.keyInvariant {past : List KeyVersion} {cur : KeyVersion} {mgr : VersionedKeyManager}
    (h : Tracks D past cur mgr) : KeyInvariant (past.length + 1) mgr where
  current_active := ⟨cur, h.get_current, h.made_current.active⟩
  only_active kid key hget hactive := by
    obtain ⟨hkey, rfl⟩ := h.get_eq_some.mp hget
    obtain rfl | ⟨i, old, -, -, rfl⟩ := mem_heldKeys.mp hkey
    · exact h.current.symm
    · cases hactive
  distinct _ _ _ _ := h.kid_of_version
  below_next kid key hget := by
    have := (h.mem_versions.mp ⟨kid, key, hget, rfl⟩).2.1
    rw [h.next]
    omega
  most_recent _ := h.mem_versions

/-- **The key-manager invariant.**  A run of a new manager returns unless the version counter
overflows.  In every state it reaches the invariant holds, with one key made at the start and one by
each rotation; and a rotation from there stores the new key under a kid that is not in use and
leaves the other keys it keeps as they were, but for the `active` flag. -/
theorem keyInvariant_run {m : ℕ} (hm : m ≤ 2 ^ 63 - 1) {mgr₀ : VersionedKeyManager}
    (hstart : Started D H m mgr₀) (calls : List (KeyCall D)) :
    (rotations calls + 2 < 2 ^ 64 →
      ∃ mgr answers, (keyMachine D H).run mgr₀ calls = .ok (mgr, answers)) ∧
    ∀ mgr answers, (keyMachine D H).run mgr₀ calls = .ok (mgr, answers) →
      mgr.maxRetainedKeys = m ∧ KeyInvariant (rotations calls + 1) mgr ∧
      ∀ draw mgr' kid, mgr.rotate D H draw = .ok (mgr', kid) → mgr.keys.get kid = none ∧
        ∀ kid' key', kid' ≠ kid → mgr'.keys.get kid' = some key' →
          ∃ key, mgr.keys.get kid' = some key ∧ key' = key.retire := by
  obtain ⟨cur₀, h₀, rfl⟩ := started_tracks hstart
  have hmax : mgr₀.maxRetainedKeys + 1 < 2 ^ 64 := by omega
  refine ⟨fun hcalls => h₀.run_returns hmax calls (by simpa using hcalls), ?_⟩
  intro mgr answers hrun
  obtain ⟨past, cur, h⟩ := h₀.run hmax hrun
  have hlen : past.length = rotations calls := by rw [h.length_eq, List.length_nil, Nat.zero_add]
  refine ⟨h.max_eq, hlen ▸ h.keyInvariant, fun draw mgr' kid hrotate => ?_⟩
  have hnext : mgr.nextVersion + 1 < 2 ^ 64 := by
    obtain ⟨next, hnext, -⟩ := Checked.bind_eq_ok.mp hrotate
    exact (Checked.checkedAdd_eq_ok.mp hnext).1
  obtain ⟨mgr₁, new, hrotate₁, h', hmax', -, hfree, -⟩ :=
    rotate_tracks (H := H) h.toTracks (h.max_eq ▸ hmax) hnext draw
  obtain ⟨rfl, rfl⟩ := Prod.mk.inj (Except.ok.inj (hrotate₁.symm.trans hrotate))
  refine ⟨hfree, fun kid' key' hne hget => ?_⟩
  obtain ⟨hkey, rfl⟩ := h'.get_eq_some.mp hget
  rw [hmax'] at hkey
  obtain rfl | ⟨old, hold, rfl⟩ := Tracks.exists_of_mem_next hkey
  · exact absurd rfl hne
  · exact ⟨old, h.get_eq_some.mpr ⟨hold, rfl⟩, rfl⟩

/-- Two rotations that keep one old key: versions 2 and 3 are held. -/
theorem keyInvariant_two_rotations :
    ∃ mgr₀ mgr answers, Started plainDsa headDigest 1 mgr₀ ∧
      (keyMachine plainDsa headDigest).run mgr₀ [.rotate plainDraw, .rotate plainDraw]
        = .ok (mgr, answers) ∧ KeyInvariant 3 mgr := by
  obtain ⟨mgr₀, -, hnew, -⟩ := new_tracks plainDsa headDigest 1 plainDraw.toKeyDraw
  have hstart : Started plainDsa headDigest 1 mgr₀ := .inl ⟨_, hnew⟩
  have hrun := keyInvariant_run (by decide) hstart [.rotate plainDraw, .rotate plainDraw]
  obtain ⟨mgr, answers, hmgr⟩ := hrun.1 (by decide)
  exact ⟨mgr₀, mgr, answers, hstart, hmgr, (hrun.2 mgr answers hmgr).2.1⟩

/-! ## Threshold material -/

/-- **Threshold material follows the current key.**  For a valid `(threshold, total_shares)` the
constructor returns, and in every state reached from there any `threshold` different shares
reconstruct the current seed, as do any `threshold` different recovery codes. -/
theorem material_run {m : ℕ} (hm : m ≤ 2 ^ 63 - 1) {t n : UInt8}
    (hconfig : SharingConfig.Valid ⟨t, n⟩) (draw : KeyDraw D) (rng : OsRng) :
    ∃ mgr₀, withThreshold D H m t n draw rng = .ok mgr₀ ∧
      ∀ calls mgr answers, (keyMachine D H).run mgr₀ calls = .ok (mgr, answers) →
        ∃ shares codes, mgr.currentShares = some shares ∧ mgr.recoveryCodes = some codes ∧
          (∀ quorum ⊆ shares, quorum.Nodup → t.toNat ≤ quorum.length →
            reconstructSecret quorum = .ok mgr.currentSeed) ∧
          ∀ quorum ⊆ codes, quorum.Nodup → t.toNat ≤ quorum.length →
            recoverFromCodes quorum = pure mgr.currentSeed := by
  obtain ⟨mgr₀, cur₀, hnew, h₀, rfl, hconfig₀⟩ := withThreshold_tracks D H m hconfig draw rng
  refine ⟨mgr₀, hnew, fun calls mgr answers hrun => ?_⟩
  obtain ⟨past, cur, h⟩ := h₀.run (by omega) hrun
  obtain ⟨out, hout, hshares, hcodes⟩ := h.material _ (h.config_eq.trans hconfig₀)
  have hseed : mgr.currentSeed = cur.seed := by
    rw [currentSeed, h.get_current]
    rfl
  rw [hseed]
  exact ⟨out, generateRecoveryCodes out, hshares, hcodes, fun _ => hout.reconstructSecret,
    fun _ => hout.recoverFromCodes⟩

/-- A two-of-three manager, after a rotation. -/
theorem material_after_rotation :
    ∃ mgr₀ mgr answers shares,
      withThreshold plainDsa headDigest 1 2 3 plainDraw.toKeyDraw (fun _ _ => 9) = .ok mgr₀ ∧
      (keyMachine plainDsa headDigest).run mgr₀ [.rotate plainDraw] = .ok (mgr, answers) ∧
      mgr.currentShares = some shares ∧
      ∀ quorum ⊆ shares, quorum.Nodup → 2 ≤ quorum.length →
        reconstructSecret quorum = .ok mgr.currentSeed := by
  obtain ⟨mgr₀, hnew, hall⟩ := material_run (H := headDigest)
    (by decide : 1 ≤ 2 ^ 63 - 1) (t := 2) (n := 3) ⟨by decide, by decide⟩ plainDraw.toKeyDraw
    fun _ _ => 9
  obtain ⟨cur, h₀, hmax⟩ := started_tracks (.inr ⟨_, _, _, _, hnew⟩)
  obtain ⟨mgr, answers, hrun⟩ :=
    h₀.run_returns (by rw [hmax]; decide) [.rotate plainDraw] (by decide)
  obtain ⟨shares, -, hshares, -, hquorum, -⟩ := hall _ mgr answers hrun
  exact ⟨mgr₀, mgr, answers, shares, hnew, hrun, hshares, hquorum⟩

end PqcGateway
