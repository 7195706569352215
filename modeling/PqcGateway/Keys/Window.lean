import PqcGateway.Keys.Manager

/-!
# Keys/Window — the manager holds a window of the keys it made

The abstract manager is a list: the keys made so far, the current one last.  `Tracks past cur mgr`
connects it to the hash map, which holds exactly the last `maxRetainedKeys + 1` of them
(`heldKeys`), all but the current one retired.  A rotation appends to the list (`rotate_tracks`),
so every run does (`run_tracks`).

* `rotate_tracks` — a rotation appends a key to the list.
* `Tracks.run_returns` — and never panics while there are version numbers left.
-/

namespace PqcGateway

variable {D : MlDsa} {H : Sha256}

/-! ## Keys as they are made

A kid starts with the version of its key, so keys made one after the other have different kids. -/

namespace KeyVersion

/-- The key's seed and public key are the two halves of one generated pair. -/
def IsPair (D : MlDsa) (key : KeyVersion) : Prop :=
  ∃ sk, key.seed = (generateMlDsaKeypair D sk).seed ∧
    key.publicKey = (generateMlDsaKeypair D sk).publicKey

/-- A key as `KeyVersion::new` makes it: its kid starts with its version, and its two halves are one
generated pair. -/
structure Fresh (D : MlDsa) (version : ℕ) (key : KeyVersion) : Prop where
  version_eq : key.version = version
  kid_eq : ∃ tail, key.kid.toList
    = "mldsa-v".toList ++ ((toString version).toList ++ '-' :: tail)
  pair : IsPair D key
  active : key.active = true

/-- A fingerprint has its first eight characters. -/
theorem slice_keyFingerprint (H : Sha256) (publicKey : List UInt8) :
    ∃ short, Text.slice (keyFingerprint H publicKey) 0 8 = .ok short := by
  rw [keyFingerprint, hexEncode]
  exact ⟨_, Text.slice_of_isAscii (Text.isAscii_hexChars _) (by decide) (by simp)⟩

/-- **Making a key never panics.** -/
theorem new_returns (D : MlDsa) (H : Sha256) (version : ℕ) (draw : KeyDraw D) :
    ∃ key, new D H version draw = .ok key ∧ Fresh D version key ∧
      key.seed = (generateMlDsaKeypair D draw.signingKey).seed := by
  let kp := generateMlDsaKeypair D draw.signingKey
  obtain ⟨short, hshort⟩ := slice_keyFingerprint H kp.publicKey
  have hkid : ("mldsa-v" ++ toString version ++ "-" ++ short).toList
      = "mldsa-v".toList ++ ((toString version).toList ++ '-' :: short.toList) := by
    simp only [String.toList_append, List.append_assoc]
    rfl
  refine ⟨KeyVersion.mk ("mldsa-v" ++ toString version ++ "-" ++ short) version kp.seed
    kp.publicKey draw.now true (keyFingerprint H kp.publicKey), ?_,
    ⟨rfl, ⟨_, hkid⟩, ⟨draw.signingKey, rfl, rfl⟩, rfl⟩, rfl⟩
  rw [new]
  simp only [kp] at hshort
  simp only [hshort, Checked.ok_bind]
  rfl

namespace Fresh

variable {v w : ℕ} {key other : KeyVersion}

/-- **Keys of different versions have different kids.** -/
theorem version_inj (h : Fresh D v key) (h' : Fresh D w other) (hkid : key.kid = other.kid) :
    v = w := by
  obtain ⟨a, ha⟩ := h.kid_eq
  obtain ⟨b, hb⟩ := h'.kid_eq
  rw [hkid, hb] at ha
  exact (Text.decimal_append_inj rfl (List.append_cancel_left ha)).symm

theorem seed_ne_nil (h : Fresh D v key) : key.seed ≠ [] := by
  obtain ⟨sk, hseed, -⟩ := h.pair
  rw [hseed, generateMlDsaKeypair]
  exact List.ne_nil_of_length_pos (by simp)

end Fresh

@[simp] theorem retire_kid (key : KeyVersion) : key.retire.kid = key.kid := rfl

@[simp] theorem retire_version (key : KeyVersion) : key.retire.version = key.version := rfl

@[simp] theorem retire_active (key : KeyVersion) : key.retire.active = false := rfl

@[simp] theorem retire_retire (key : KeyVersion) : key.retire.retire = key.retire := rfl

/-- A key under its kid, as the map holds it. -/
def entry (key : KeyVersion) : String × KeyVersion := (key.kid, key)

end KeyVersion

open KeyVersion VersionedKeyManager

/-! ## The window -/

/-- The keys held when `past` and then `cur` were made and `max` old keys are retained. -/
def heldKeys (max : ℕ) (past : List KeyVersion) (cur : KeyVersion) : List KeyVersion :=
  (past.drop (past.length - max)).map retire ++ [cur]

@[simp] theorem heldKeys_nil (max : ℕ) (cur : KeyVersion) : heldKeys max [] cur = [cur] := by
  simp [heldKeys]

theorem mem_heldKeys {max : ℕ} {past : List KeyVersion} {cur key : KeyVersion} :
    key ∈ heldKeys max past cur ↔
      key = cur ∨ ∃ i old, past[i]? = some old ∧ past.length ≤ i + max ∧ key = old.retire := by
  rw [heldKeys, List.mem_append, List.mem_singleton, or_comm, List.mem_map]
  refine or_congr_right ⟨?_, ?_⟩
  · rintro ⟨old, hold, rfl⟩
    obtain ⟨i, hi, rfl⟩ := List.mem_drop_iff_getElem.mp hold
    exact ⟨past.length - max + i, _, List.getElem?_eq_getElem (by omega), by omega, rfl⟩
  · rintro ⟨i, old, hi, hmax, rfl⟩
    obtain ⟨hlt, rfl⟩ := List.getElem?_eq_some_iff.mp hi
    refine ⟨_, List.mem_drop_iff_getElem.mpr ⟨i - (past.length - max), by omega, rfl⟩, ?_⟩
    congr 2
    omega

/-- A key held is one of the keys made, up to its flag. -/
theorem exists_made_of_mem_heldKeys {max : ℕ} {past : List KeyVersion} {cur key : KeyVersion}
    (h : key ∈ heldKeys max past cur) : ∃ made ∈ past ++ [cur], key.kid = made.kid := by
  obtain rfl | ⟨i, old, hi, -, rfl⟩ := mem_heldKeys.mp h
  · exact ⟨key, by simp, rfl⟩
  · exact ⟨old, List.mem_append_left _ (List.mem_of_getElem? hi), rfl⟩

/-- The keys were made in this order, from version 1 on. -/
def MadeInOrder (D : MlDsa) (keys : List KeyVersion) : Prop :=
  ∀ i key, keys[i]? = some key → Fresh D (i + 1) key

/-- The manager's shares and codes are those of the current key, if it has a configuration. -/
def Material (cur : KeyVersion) (mgr : VersionedKeyManager) : Prop :=
  ∀ config, mgr.thresholdConfig = some config → ∃ out, IsSharing config cur.seed out ∧
    mgr.currentShares = some out ∧ mgr.recoveryCodes = some (generateRecoveryCodes out)

/-- **The manager holds the window** of the keys made so far. -/
structure Tracks (D : MlDsa) (past : List KeyVersion) (cur : KeyVersion)
    (mgr : VersionedKeyManager) : Prop where
  made : MadeInOrder D (past ++ [cur])
  next : mgr.nextVersion = past.length + 2
  current : mgr.currentKid = cur.kid
  keys : mgr.keys.Holds ((heldKeys mgr.maxRetainedKeys past cur).map entry)
  material : Material cur mgr

namespace MadeInOrder

variable {keys : List KeyVersion}

theorem append (h : MadeInOrder D keys) {new : KeyVersion}
    (hnew : Fresh D (keys.length + 1) new) : MadeInOrder D (keys ++ [new]) := by
  intro i key hi
  obtain hlt | rfl := (Nat.lt_succ_iff_lt_or_eq.mp
    (by simpa using (List.getElem?_eq_some_iff.mp hi).1) : i < keys.length ∨ i = keys.length)
  · rw [List.getElem?_append_left hlt] at hi
    exact h i key hi
  · rw [List.getElem?_concat_length, Option.some.injEq] at hi
    exact hi ▸ hnew

theorem kid_inj (h : MadeInOrder D keys) {i j : ℕ} {key other : KeyVersion}
    (hi : keys[i]? = some key) (hj : keys[j]? = some other) (hkid : key.kid = other.kid) :
    i = j :=
  Nat.succ_injective ((h i key hi).version_inj (h j other hj) hkid)

/-- The newest key's kid is none of those before. -/
theorem kid_ne {new key : KeyVersion} (h : MadeInOrder D (keys ++ [new])) (hkey : key ∈ keys) :
    key.kid ≠ new.kid := by
  intro hkid
  obtain ⟨i, hi, rfl⟩ := List.getElem_of_mem hkey
  have hi' : (keys ++ [new])[i]? = some keys[i] := by
    rw [List.getElem?_append_left hi, List.getElem?_eq_getElem hi]
  exact hi.ne (h.kid_inj hi' (List.getElem?_concat_length ..) hkid)

/-- The versions ascend. -/
theorem pairwise (h : MadeInOrder D keys) : keys.Pairwise fun a b => a.version < b.version := by
  refine List.pairwise_iff_getElem.mpr fun i j hi hj hij => ?_
  rw [(h i _ (List.getElem?_eq_getElem hi)).version_eq,
    (h j _ (List.getElem?_eq_getElem hj)).version_eq]
  omega

end MadeInOrder

/-! ## The steps of a rotation

`rotate` deactivates, inserts, prunes and shares the new key; what the map holds is followed through
each of these. -/

theorem deactivate_holds {keys : EntryMap String KeyVersion} {l : List KeyVersion}
    {cur : KeyVersion} (h : keys.Holds ((l ++ [cur]).map entry)) :
    (deactivate keys cur.kid).Holds ((l ++ [cur.retire]).map entry) := by
  have hcons : ∀ key : KeyVersion, ((l ++ [key]).map entry).Perm (entry key :: l.map entry) := by
    intro key
    rw [List.map_append]
    exact List.perm_append_singleton _ _
  have hget : keys.get cur.kid = some cur := h.get_eq_some.mpr (by simp [entry])
  rw [deactivate, hget]
  exact ((h.perm (hcons cur)).insert_cons cur.retire).perm (hcons cur.retire).symm

/-- What the loop is given: a key's kid and version. -/
def kidVersion (key : KeyVersion) : String × ℕ := (key.kid, key.version)

/-- **The loop removes the first keys of its list** until `limit` keys are left. -/
theorem pruneLoop_holds (limit : ℕ) {keys : EntryMap String KeyVersion} {l tail : List KeyVersion}
    (h : keys.Holds ((l ++ tail).map entry)) :
    (pruneLoop limit keys (l.map kidVersion)).Holds
      ((l.drop (l.length + tail.length - limit) ++ tail).map entry) := by
  induction l generalizing keys with
  | nil => simpa [pruneLoop] using h
  | cons key l ih =>
    have hlen : keys.len = l.length + tail.length + 1 := by
      rw [h.len]
      simp only [List.cons_append, List.map_cons, List.length_cons, List.length_map,
        List.length_append]
    rw [List.map_cons, kidVersion, pruneLoop, hlen, List.length_cons]
    split
    · rw [show l.length + 1 + tail.length - limit = l.length + tail.length - limit + 1 by omega]
      exact ih h.remove_cons
    · rwa [show l.length + 1 + tail.length - limit = 0 by omega]

/-- **Pruning keeps the newest keys**, in whatever order the map is walked. -/
theorem prune_holds (order : WalkOrder String KeyVersion) {max : ℕ}
    {keys : EntryMap String KeyVersion} {l : List KeyVersion} {cur : KeyVersion}
    (h : keys.Holds ((l ++ [cur]).map entry)) (hmax : max + 1 < 2 ^ 64)
    (hl : l.Pairwise fun a b => a.version < b.version) :
    ∃ keys', prune order max cur.kid keys = .ok keys' ∧
      keys'.Holds ((l.drop (l.length - max) ++ [cur]).map entry) := by
  have hkid : cur.kid ∉ (l.map entry).map Prod.fst := by
    have := h.nodup
    rw [List.map_append, List.map_append, List.nodup_append] at this
    exact fun hmem => this.2.2 _ hmem _ (List.mem_singleton_self _) rfl
  have hloop := pruneLoop_holds (max + 1) h
  rw [List.length_singleton, Nat.add_sub_add_right] at hloop
  rw [prune, Checked.checkedAdd_of_lt hmax, Checked.ok_bind]
  split
  · -- the walk's order is lost in the sort
    have hold : ((keys.iter order).filter fun e => e.1 ≠ cur.kid).Perm (l.map entry) := by
      refine ((h.iter order).filter _).trans (.of_eq ?_)
      rw [List.map_append, List.filter_append, EntryMap.Holds.filter_ne_of_notMem hkid]
      simp [entry]
    have hversions := hold.map fun e => (e.1, e.2.version)
    rw [List.map_map] at hversions
    have hsorted : (l.map kidVersion).Pairwise fun a b => a.2 < b.2 := List.pairwise_map.mpr hl
    refine ⟨_, rfl, ?_⟩
    rwa [List.mergeSort_eq_of_perm hsorted hversions]
  · refine ⟨keys, rfl, ?_⟩
    have hlen := h.len
    simp only [List.length_map, List.length_append, List.length_singleton] at hlen
    rwa [show l.length - max = 0 by omega]

/-- Sharing a key leaves what has nothing to do with shares. -/
theorem shareKey_frame {rng : OsRng} {config : SharingConfig} {key : KeyVersion}
    {mgr mgr' : VersionedKeyManager} (h : shareKey rng config key mgr = .ok mgr') :
    mgr'.currentKid = mgr.currentKid ∧ mgr'.maxRetainedKeys = mgr.maxRetainedKeys := by
  obtain ⟨shares, -, h⟩ := Checked.bind_eq_ok.mp h
  rw [← Except.ok.inj h]
  exact ⟨rfl, rfl⟩

theorem shareNewKey_frame {rng : OsRng} {newKey : KeyVersion} {mgr mgr' : VersionedKeyManager}
    (h : shareNewKey rng newKey mgr = .ok mgr') :
    mgr'.currentKid = mgr.currentKid ∧ mgr'.maxRetainedKeys = mgr.maxRetainedKeys := by
  unfold shareNewKey at h
  split at h
  · exact shareKey_frame h
  · rw [← Except.ok.inj h]
    exact ⟨rfl, rfl⟩

/-- A rotation that returns had room to count the keys it retains. -/
theorem maxRetainedKeys_lt_of_rotate {mgr mgr' : VersionedKeyManager} {draw : RotateDraw D}
    {kid : String} (h : mgr.rotate D H draw = .ok (mgr', kid)) :
    mgr.maxRetainedKeys + 1 < 2 ^ 64 := by
  obtain ⟨next, -, h⟩ := Checked.bind_eq_ok.mp h
  obtain ⟨newKey, -, h⟩ := Checked.bind_eq_ok.mp h
  obtain ⟨shared, hshare, h⟩ := Checked.bind_eq_ok.mp h
  obtain ⟨keys, hprune, -⟩ := Checked.bind_eq_ok.mp h
  obtain ⟨limit, hlimit, -⟩ := Checked.bind_eq_ok.mp hprune
  have hmax := (Checked.checkedAdd_eq_ok.mp hlimit).1
  simp only [(shareNewKey_frame hshare).2] at hmax
  exact hmax

/-- **The shares are replaced together with the key.** -/
theorem shareNewKey_material (rng : OsRng) {cur new : KeyVersion} {mgr : VersionedKeyManager}
    (h : Material cur mgr) (hseed : new.seed ≠ []) :
    ∃ shares codes,
      shareNewKey rng new mgr
        = .ok { mgr with currentShares := shares, recoveryCodes := codes } ∧
      ∀ config, mgr.thresholdConfig = some config → ∃ out, IsSharing config new.seed out ∧
        shares = some out ∧ codes = some (generateRecoveryCodes out) := by
  obtain hconfig | ⟨config, hconfig⟩ := Option.eq_none_or_eq_some mgr.thresholdConfig
  · have hshare : shareNewKey rng new mgr = .ok mgr := by
      simp only [shareNewKey, hconfig]
      rfl
    exact ⟨mgr.currentShares, mgr.recoveryCodes, hshare, fun _ h => by simp [hconfig] at h⟩
  · obtain ⟨_, hcur, -, -⟩ := h config hconfig
    obtain ⟨out, hsplit, hout⟩ := exists_isSharing hcur.one_le hseed rng
    have hshare : shareNewKey rng new mgr = shareKey rng config new mgr := by
      simp only [shareNewKey, hconfig]
    refine ⟨some out, some (generateRecoveryCodes out), ?_, fun config' h' => ?_⟩
    · rw [hshare, shareKey, hsplit, Checked.ok_bind]
      rfl
    · obtain rfl := Option.some.inj (hconfig.symm.trans h')
      exact ⟨out, hout, rfl, rfl⟩

/-- The window of one more key, by dropping from the window before. -/
theorem drop_window {max : ℕ} (past : List KeyVersion) (cur : KeyVersion) :
    let l := ((past ++ [cur]).drop (past.length - max)).map retire
    l.drop (l.length - max) = ((past ++ [cur]).drop ((past ++ [cur]).length - max)).map retire := by
  simp only [List.length_map, List.length_drop, List.length_append, List.length_singleton,
    List.drop_drop, ← List.map_drop]
  congr 2
  omega

/-- The kid of a key that is made next is in no use. -/
theorem get_new_kid {past : List KeyVersion} {cur new : KeyVersion} {mgr : VersionedKeyManager}
    (h : Tracks D past cur mgr) (hmade : MadeInOrder D (past ++ [cur] ++ [new])) :
    mgr.keys.get new.kid = none := by
  refine h.keys.get_eq_none.mpr fun hmem => ?_
  rw [List.map_map, List.mem_map] at hmem
  obtain ⟨key, hkey, hkid⟩ := hmem
  obtain ⟨old, hold, holdKid⟩ := exists_made_of_mem_heldKeys hkey
  exact hmade.kid_ne hold (holdKid.symm.trans hkid)

/-- **The keys a rotation leaves**: the old one is retired, the new one comes in, and the oldest
ones go. -/
theorem rotateKeys_holds {past : List KeyVersion} {cur new : KeyVersion}
    {mgr : VersionedKeyManager} (h : Tracks D past cur mgr)
    (hmade : MadeInOrder D (past ++ [cur] ++ [new])) (hmax : mgr.maxRetainedKeys + 1 < 2 ^ 64)
    (order : WalkOrder String KeyVersion) :
    ∃ keys, prune order mgr.maxRetainedKeys new.kid
        ((deactivate mgr.keys mgr.currentKid).insert new.kid new) = .ok keys ∧
      keys.Holds ((heldKeys mgr.maxRetainedKeys (past ++ [cur]) new).map entry) := by
  let l := ((past ++ [cur]).drop (past.length - mgr.maxRetainedKeys)).map retire
  have hretired : (deactivate mgr.keys mgr.currentKid).Holds (l.map entry) := by
    have hl : l = (past.drop (past.length - mgr.maxRetainedKeys)).map retire ++ [cur.retire] := by
      simp only [l, List.drop_append_of_le_length (Nat.sub_le _ _), List.map_append,
        List.map_singleton]
    rw [h.current, hl]
    exact deactivate_holds h.keys
  have hfresh : new.kid ∉ (l.map entry).map Prod.fst := by
    simp only [l, List.map_map, List.mem_map, not_exists, not_and]
    intro key hkey
    have hold : key.kid ≠ new.kid := hmade.kid_ne (List.mem_of_mem_drop hkey)
    exact hold
  have hinserted : ((deactivate mgr.keys mgr.currentKid).insert new.kid new).Holds
      ((l ++ [new]).map entry) := by
    refine (hretired.insert_of_notMem hfresh new).perm ?_
    rw [List.map_append]
    exact (List.perm_append_singleton _ _).symm
  have hsorted : l.Pairwise fun a b => a.version < b.version :=
    List.pairwise_map.mpr (h.made.pairwise.sublist (List.drop_sublist _ _))
  obtain ⟨keys, hprune, hkeys⟩ := prune_holds order hinserted hmax hsorted
  rw [drop_window] at hkeys
  exact ⟨keys, hprune, hkeys⟩

/-- **A rotation moves the window on by one key**, under a kid the map does not hold. -/
theorem rotate_tracks {past : List KeyVersion} {cur : KeyVersion} {mgr : VersionedKeyManager}
    (h : Tracks D past cur mgr) (hmax : mgr.maxRetainedKeys + 1 < 2 ^ 64)
    (hnext : mgr.nextVersion + 1 < 2 ^ 64) (draw : RotateDraw D) :
    ∃ mgr' new, mgr.rotate D H draw = .ok (mgr', new.kid) ∧ Tracks D (past ++ [cur]) new mgr' ∧
      mgr'.maxRetainedKeys = mgr.maxRetainedKeys ∧ mgr'.thresholdConfig = mgr.thresholdConfig ∧
      mgr.keys.get new.kid = none ∧
      new.seed = (generateMlDsaKeypair D draw.signingKey).seed := by
  obtain ⟨new, hnew, hfresh, hseed⟩ := new_returns D H mgr.nextVersion draw.toKeyDraw
  have hmade : MadeInOrder D (past ++ [cur] ++ [new]) := by
    refine h.made.append ?_
    rw [List.length_append, List.length_singleton]
    exact h.next ▸ hfresh
  obtain ⟨keys, hprune, hkeys⟩ := rotateKeys_holds h hmade hmax draw.order
  let moved : VersionedKeyManager :=
    { mgr with
      nextVersion := mgr.nextVersion + 1
      keys := deactivate mgr.keys mgr.currentKid }
  have hmoved : Material cur moved := h.material
  obtain ⟨shares, codes, hshare, hmaterial⟩ :=
    shareNewKey_material draw.rng hmoved hfresh.seed_ne_nil
  refine ⟨{ moved with
      keys
      currentKid := new.kid
      currentShares := shares
      recoveryCodes := codes }, new, ?_, ⟨hmade, ?_, rfl, hkeys, hmaterial⟩, rfl, rfl,
    get_new_kid h hmade, hseed⟩
  · rw [rotate, Checked.checkedAdd_of_lt hnext, Checked.ok_bind]
    simp only [hnew, Checked.ok_bind]
    rw [hshare, Checked.ok_bind]
    simp only [moved, hprune, Checked.ok_bind]
    rfl
  · simp only [moved, h.next, List.length_append, List.length_singleton]

/-! ## Every run -/

/-- **A new manager holds its first key.** -/
theorem new_tracks (D : MlDsa) (H : Sha256) (max : ℕ) (draw : KeyDraw D) :
    ∃ mgr cur, VersionedKeyManager.new D H max draw = .ok mgr ∧ Tracks D [] cur mgr ∧
      mgr.maxRetainedKeys = max ∧ cur.seed = (generateMlDsaKeypair D draw.signingKey).seed := by
  obtain ⟨cur, hcur, hfresh, hseed⟩ := new_returns D H 1 draw
  have hnew : VersionedKeyManager.new D H max draw
      = .ok ⟨EntryMap.new.insert cur.kid cur, cur.kid, 2, max, none, none, none⟩ := by
    rw [VersionedKeyManager.new, hcur, Checked.ok_bind]
    rfl
  refine ⟨_, cur, hnew, ⟨?_, rfl, rfl, ?_, fun _ h => nomatch h⟩, rfl, hseed⟩
  · exact MadeInOrder.append (fun i key hi => by simp at hi) hfresh
  · rw [heldKeys_nil]
    exact EntryMap.holds_new.insert cur.kid cur

/-- **A valid configuration gives a manager with its first key and that key's shares.** -/
theorem withThreshold_tracks (D : MlDsa) (H : Sha256) (max : ℕ) {t n : UInt8}
    (hvalid : SharingConfig.Valid ⟨t, n⟩) (draw : KeyDraw D) (rng : OsRng) :
    ∃ mgr cur, withThreshold D H max t n draw rng = .ok mgr ∧ Tracks D [] cur mgr ∧
      mgr.maxRetainedKeys = max ∧ mgr.thresholdConfig = some ⟨t, n⟩ := by
  obtain ⟨base, cur, hbase, h, hmax, -⟩ := new_tracks D H max draw
  have hget : base.keys.get base.currentKid = some cur := by
    rw [h.keys.get_eq_some, h.current]
    simp [heldKeys, entry]
  have hseed : cur.seed ≠ [] := (h.made 0 cur rfl).seed_ne_nil
  obtain ⟨out, hsplit, hout⟩ := exists_isSharing hvalid.one_le hseed rng
  refine ⟨{ base with
    thresholdConfig := some ⟨t, n⟩
    currentShares := some out
    recoveryCodes := some (generateRecoveryCodes out) }, cur, ?_,
    ⟨h.made, h.next, h.current, h.keys, ?_⟩, hmax, rfl⟩
  · rw [withThreshold, hbase, Checked.ok_bind, SharingConfig.new_eq_ok.mpr ⟨rfl, hvalid⟩,
      Checked.ok_bind]
    simp only [hget, shareKey, hsplit, Checked.ok_bind]
    rfl
  · rintro _ ⟨⟩
    exact ⟨out, hout, rfl, rfl⟩

/-- Without a valid configuration the constructor panics. -/
theorem valid_of_withThreshold {max : ℕ} {t n : UInt8} {draw : KeyDraw D} {rng : OsRng}
    {mgr : VersionedKeyManager} (h : withThreshold D H max t n draw rng = .ok mgr) :
    SharingConfig.Valid ⟨t, n⟩ := by
  obtain ⟨_, -, h⟩ := Checked.bind_eq_ok.mp h
  obtain ⟨config, hconfig, -⟩ := Checked.bind_eq_ok.mp h
  obtain ⟨rfl, hvalid⟩ := SharingConfig.new_eq_ok.mp hconfig
  exact hvalid

theorem started_tracks {max : ℕ} {mgr : VersionedKeyManager} (h : Started D H max mgr) :
    ∃ cur, Tracks D [] cur mgr ∧ mgr.maxRetainedKeys = max := by
  obtain ⟨draw, h⟩ | ⟨t, n, draw, rng, h⟩ := h
  · obtain ⟨mgr', cur, h', hcur, hmax, -⟩ := new_tracks D H max draw
    obtain rfl := Except.ok.inj (h.symm.trans h')
    exact ⟨cur, hcur, hmax⟩
  · obtain ⟨mgr', cur, h', hcur, hmax, -⟩ :=
      withThreshold_tracks D H max (valid_of_withThreshold h) draw rng
    obtain rfl := Except.ok.inj (h.symm.trans h')
    exact ⟨cur, hcur, hmax⟩

/-- The manager after some calls: it still holds the window, and has made one key for each
rotation. -/
structure TracksFrom (D : MlDsa) (past : List KeyVersion) (cur : KeyVersion)
    (mgr : VersionedKeyManager) (calls : List (KeyCall D)) (past' : List KeyVersion)
    (cur' : KeyVersion) (mgr' : VersionedKeyManager) : Prop extends Tracks D past' cur' mgr' where
  max_eq : mgr'.maxRetainedKeys = mgr.maxRetainedKeys
  config_eq : mgr'.thresholdConfig = mgr.thresholdConfig
  length_eq : past'.length = past.length + rotations calls
  still_made : past ++ [cur] <+: past' ++ [cur']

section Run

variable {past : List KeyVersion} {cur : KeyVersion} {mgr : VersionedKeyManager}

theorem rotations_append_singleton (calls : List (KeyCall D)) (call : KeyCall D) :
    rotations (calls ++ [call]) = rotations calls + if call.isRotate then 1 else 0 := by
  rw [rotations, List.countP_append, List.countP_singleton]
  rfl

theorem Tracks.from_self (h : Tracks D past cur mgr) : TracksFrom D past cur mgr [] past cur mgr :=
  { h with max_eq := rfl, config_eq := rfl, length_eq := rfl, still_made := List.prefix_rfl }

/-- A call that signs changes nothing; a rotation moves the window on. -/
theorem TracksFrom.step {calls : List (KeyCall D)} {past' : List KeyVersion} {cur' : KeyVersion}
    {mgr' : VersionedKeyManager} (h : TracksFrom D past cur mgr calls past' cur' mgr')
    (hmax : mgr.maxRetainedKeys + 1 < 2 ^ 64) (call : KeyCall D)
    (hnext : call.isRotate → mgr'.nextVersion + 1 < 2 ^ 64) :
    ∃ past'' cur'' mgr'' answer, (keyMachine D H).step mgr' call = .ok (mgr'', answer) ∧
      TracksFrom D past cur mgr (calls ++ [call]) past'' cur'' mgr'' := by
  cases call with
  | signCurrent data =>
    exact ⟨past', cur', mgr', _, rfl, { h with
      length_eq := by rw [h.length_eq, rotations_append_singleton]; rfl }⟩
  | rotate draw =>
    obtain ⟨mgr'', new, hrotate, htracks, hmax', hconfig', -⟩ :=
      rotate_tracks (H := H) h.toTracks (h.max_eq ▸ hmax) (hnext rfl) draw
    refine ⟨past' ++ [cur'], new, mgr'', .rotated new.kid, ?_, { htracks with
      max_eq := hmax'.trans h.max_eq
      config_eq := hconfig'.trans h.config_eq
      length_eq := ?_
      still_made := h.still_made.trans (List.prefix_append _ _) }⟩
    · simp only [keyMachine, hrotate, Checked.ok_bind]
      rfl
    · rw [List.length_append, h.length_eq, rotations_append_singleton]
      rfl

/-- A rotation that returns had a next version to give. -/
theorem nextVersion_lt_of_step {call : KeyCall D} {mgr' : VersionedKeyManager} {answer : KeyAnswer}
    (h : (keyMachine D H).step mgr call = .ok (mgr', answer)) (hcall : call.isRotate) :
    mgr.nextVersion + 1 < 2 ^ 64 := by
  cases call with
  | signCurrent data => cases hcall
  | rotate draw =>
    obtain ⟨⟨mgr', kid⟩, hrotate, -⟩ := Checked.bind_eq_ok.mp h
    obtain ⟨next, hnext, -⟩ := Checked.bind_eq_ok.mp hrotate
    exact (Checked.checkedAdd_eq_ok.mp hnext).1

/-- **Every run keeps the window.** -/
theorem Tracks.run (h : Tracks D past cur mgr) (hmax : mgr.maxRetainedKeys + 1 < 2 ^ 64)
    {calls : List (KeyCall D)} {mgr' : VersionedKeyManager} {answers : List KeyAnswer}
    (hrun : (keyMachine D H).run mgr calls = .ok (mgr', answers)) :
    ∃ past' cur', TracksFrom D past cur mgr calls past' cur' mgr' := by
  refine (keyMachine D H).run_history
    (I := fun calls mgr' => ∃ past' cur', TracksFrom D past cur mgr calls past' cur' mgr')
    (fun calls mgr' call mgr'' answer => ?_) ⟨past, cur, h.from_self⟩ hrun
  rintro ⟨past', cur', h'⟩ hstep
  obtain ⟨past'', cur'', mgr₂, answer₂, hstep₂, h''⟩ :=
    h'.step (H := H) hmax call fun hcall => nextVersion_lt_of_step hstep hcall
  obtain ⟨rfl, -⟩ := Prod.mk.inj (Except.ok.inj (hstep.symm.trans hstep₂))
  exact ⟨past'', cur'', h''⟩

/-- So does a run of a manager that retains so many keys that no rotation returns. -/
theorem Tracks.run_of_ok (h : Tracks D past cur mgr) {calls : List (KeyCall D)}
    {mgr' : VersionedKeyManager} {answers : List KeyAnswer}
    (hrun : (keyMachine D H).run mgr calls = .ok (mgr', answers)) :
    ∃ past' cur', TracksFrom D past cur mgr calls past' cur' mgr' := by
  by_cases hmax : mgr.maxRetainedKeys + 1 < 2 ^ 64
  · exact h.run hmax hrun
  have hstep : ∀ calls mgr₁ call mgr₂ answer, (mgr₁ = mgr ∧ rotations calls = 0) →
      (keyMachine D H).step mgr₁ call = .ok (mgr₂, answer) →
      mgr₂ = mgr ∧ rotations (calls ++ [call]) = 0 := by
    rintro calls mgr₁ call mgr₂ answer ⟨rfl, hcalls⟩ hstep
    rcases call with data | draw
    · obtain ⟨rfl, -⟩ := Prod.mk.inj (Except.ok.inj hstep)
      refine ⟨rfl, ?_⟩
      rw [rotations_append_singleton, hcalls]
      rfl
    · obtain ⟨⟨rotated, kid⟩, hrotate, -⟩ := Checked.bind_eq_ok.mp hstep
      exact absurd (maxRetainedKeys_lt_of_rotate hrotate) hmax
  obtain ⟨rfl, hcalls⟩ := (keyMachine D H).run_history
    (I := fun calls mgr' => mgr' = mgr ∧ rotations calls = 0) (h := []) hstep ⟨rfl, rfl⟩ hrun
  rw [List.nil_append] at hcalls
  exact ⟨past, cur, { h.from_self with length_eq := by rw [hcalls, Nat.add_zero] }⟩

/-- **A run returns** unless the version counter overflows. -/
theorem Tracks.run_returns (h : Tracks D past cur mgr)
    (hmax : mgr.maxRetainedKeys + 1 < 2 ^ 64) (calls : List (KeyCall D))
    (hcalls : past.length + rotations calls + 2 < 2 ^ 64) :
    ∃ mgr' answers, (keyMachine D H).run mgr calls = .ok (mgr', answers) := by
  have hstep : ∀ done call rest mgr', done ++ call :: rest = calls →
      (∃ past' cur', TracksFrom D past cur mgr done past' cur' mgr') →
      ∃ mgr'' answer, (keyMachine D H).step mgr' call = .ok (mgr'', answer) ∧
        ∃ past'' cur'', TracksFrom D past cur mgr (done ++ [call]) past'' cur'' mgr'' := by
    rintro done call rest mgr' hall ⟨past', cur', h'⟩
    have hnext : call.isRotate → mgr'.nextVersion + 1 < 2 ^ 64 := by
      intro hcall
      have hsplit : rotations calls = rotations done + (1 + rotations rest) := by
        rw [← hall, rotations, List.countP_append, List.countP_cons_of_pos hcall,
          Nat.add_comm _ 1]
        rfl
      rw [h'.next, h'.length_eq]
      omega
    obtain ⟨past'', cur'', mgr'', answer, hstep, h''⟩ := h'.step (H := H) hmax call hnext
    exact ⟨mgr'', answer, hstep, past'', cur'', h''⟩
  obtain ⟨mgr', answers, hrun, -⟩ :=
    (keyMachine D H).run_returns hstep (List.nil_append calls) ⟨past, cur, h.from_self⟩
  exact ⟨mgr', answers, hrun⟩

end Run

end PqcGateway
