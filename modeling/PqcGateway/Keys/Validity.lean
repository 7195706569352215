import PqcGateway.Keys.Invariant

/-!
# Keys/Validity — how long a signature verifies

A signature verifies as long as its key is in the window, which is for exactly `maxRetainedKeys`
rotations, and then never again (`signature_window`).

* `kid_eq_iff` — the current kid changes with the first rotation, and never comes back.
* `signature_window` — a signature of the current key verifies for `m` more rotations, and the JWKS
  document lists the kids under which something does.
-/

namespace PqcGateway

open KeyVersion VersionedKeyManager

variable {D : MlDsa} {H : Sha256}

/-! ## Signing and verifying with one key -/

namespace KeyVersion

variable {key : KeyVersion}

theorem sign_eq_some {data sig : List UInt8} :
    key.sign D data = some sig ↔ mlDsaSign D key.seed data = .ok sig := by
  rw [KeyVersion.sign]
  cases mlDsaSign D key.seed data <;> simp [Except.toOption]

theorem sign_returns (hD : D.Lawful) (hkey : IsPair D key) (data : List UInt8) :
    ∃ sig, key.sign D data = some sig := by
  obtain ⟨sk, hseed, -⟩ := hkey
  exact ⟨_, sign_eq_some.mpr (hseed ▸ mlDsaSign_generate hD sk data)⟩

theorem verify_of_sign (hD : D.Lawful) (hkey : IsPair D key) {data sig : List UInt8}
    (hsig : key.sign D data = some sig) : key.verify D data sig = true := by
  obtain ⟨sk, hseed, hpublic⟩ := hkey
  rw [sign_eq_some, hseed] at hsig
  rw [KeyVersion.verify, hpublic]
  exact mlDsaVerifies_of_sign hD hsig

end KeyVersion

/-! ## Which kids verify

A kid that is held verifies what its key signs, and one that is not verifies nothing. -/

namespace Tracks

variable {past : List KeyVersion} {cur : KeyVersion} {mgr : VersionedKeyManager}

/-- A key made no more than `maxRetainedKeys` keys ago is held. -/
theorem get_recent (h : Tracks D past cur mgr) {i : ℕ} {made : KeyVersion}
    (hi : (past ++ [cur])[i]? = some made) (hmax : past.length ≤ i + mgr.maxRetainedKeys) :
    ∃ key, mgr.keys.get made.kid = some key ∧ key.publicKey = made.publicKey := by
  obtain hlt | hge := Nat.lt_or_ge i past.length
  · rw [List.getElem?_append_left hlt] at hi
    exact ⟨made.retire,
      h.get_eq_some.mpr ⟨mem_heldKeys.mpr (.inr ⟨i, made, hi, hmax, rfl⟩), rfl⟩, rfl⟩
  · obtain rfl : i = past.length := by
      have := (List.getElem?_eq_some_iff.mp hi).1
      rw [List.length_append, List.length_singleton] at this
      omega
    rw [List.getElem?_concat_length, Option.some.injEq] at hi
    exact ⟨cur, hi ▸ h.current ▸ h.get_current, by rw [hi]⟩

/-- **An older key is gone.** -/
theorem get_pruned (h : Tracks D past cur mgr) {i : ℕ} {made : KeyVersion}
    (hi : (past ++ [cur])[i]? = some made) (hmax : i + mgr.maxRetainedKeys < past.length) :
    mgr.keys.get made.kid = none := by
  refine Option.eq_none_iff_forall_ne_some.mpr fun key hget => ?_
  obtain ⟨hkey, hkid⟩ := h.get_eq_some.mp hget
  obtain rfl | ⟨j, old, hj, hj', rfl⟩ := mem_heldKeys.mp hkey
  · have := h.made.kid_inj hi (List.getElem?_concat_length ..) hkid
    omega
  · have hj₁ : (past ++ [cur])[j]? = some old := by
      rwa [List.getElem?_append_left (List.getElem?_eq_some_iff.mp hj).1]
    have := h.made.kid_inj hi hj₁ hkid
    omega

/-- Every key held is one generated pair, as it was made. -/
theorem isPair_of_get (h : Tracks D past cur mgr) {kid : String} {key : KeyVersion}
    (hget : mgr.keys.get kid = some key) : IsPair D key := by
  obtain rfl | ⟨i, old, hi, -, rfl⟩ := mem_heldKeys.mp (h.get_eq_some.mp hget).1
  · exact h.made_current.pair
  · exact (h.made_past hi).pair

/-- A kid verifies some signature iff it is held. -/
theorem exists_verifyByKid (h : Tracks D past cur mgr) (hD : D.Lawful) {kid : String} :
    (∃ data sig, mgr.verifyByKid D kid data sig = true) ↔
      ∃ key, mgr.keys.get kid = some key := by
  constructor
  · rintro ⟨data, sig, hverify⟩
    refine Option.ne_none_iff_exists'.mp fun hget => ?_
    simp [verifyByKid, hget] at hverify
  · rintro ⟨key, hget⟩
    have hpair := h.isPair_of_get hget
    obtain ⟨sig, hsig⟩ := sign_returns hD hpair []
    exact ⟨[], sig, by simpa only [verifyByKid, hget] using verify_of_sign hD hpair hsig⟩

/-- The JWKS document lists the keys held. -/
theorem mem_jwks (h : Tracks D past cur mgr) {b64url : Base64Url}
    {order : WalkOrder String KeyVersion} {kid : String} :
    kid ∈ (mgr.jwks b64url order).map Jwk.kid ↔ ∃ key, mgr.keys.get kid = some key := by
  have hperm := (h.keys.iter order).map fun e => (e.2.toJwk b64url).kid
  rw [jwks, List.map_map]
  refine hperm.mem_iff.trans ?_
  simp only [h.get_eq_some, List.map_map, List.mem_map]
  exact exists_congr fun key => and_congr_right fun _ => eq_comm

end Tracks

/-! ## The key that signed, later on -/

namespace TracksFrom

variable {past past' : List KeyVersion} {cur cur' : KeyVersion} {mgr mgr' : VersionedKeyManager}
variable {calls : List (KeyCall D)}

/-- The key that was current keeps its place among the keys made. -/
theorem getElem?_length (h : TracksFrom D past cur mgr calls past' cur' mgr') :
    (past' ++ [cur'])[past.length]? = some cur := by
  obtain ⟨rest, hrest⟩ := h.still_made
  rw [← hrest, List.getElem?_append_left (by simp), List.getElem?_concat_length]

/-- **The current kid changes with the first rotation**, and never comes back. -/
theorem kid_eq_iff (h : TracksFrom D past cur mgr calls past' cur' mgr') :
    cur.kid = cur'.kid ↔ rotations calls = 0 := by
  have hlast : (past' ++ [cur'])[past'.length]? = some cur' := List.getElem?_concat_length ..
  constructor
  · intro hkid
    have hlen := h.made.kid_inj h.getElem?_length hlast hkid
    rw [h.length_eq] at hlen
    omega
  · intro hcalls
    have hcur := h.getElem?_length
    rw [show past.length = past'.length by rw [h.length_eq, hcalls, Nat.add_zero], hlast] at hcur
    rw [Option.some.inj hcur]

/-- **A signature verifies as long as its key is held.** -/
theorem verifyByKid_of_get (h : TracksFrom D past cur mgr calls past' cur' mgr') (hD : D.Lawful)
    (hpair : IsPair D cur) {data sig : List UInt8} (hsig : cur.sign D data = some sig)
    {key : KeyVersion} (hget : mgr'.keys.get cur.kid = some key) :
    mgr'.verifyByKid D cur.kid data sig = true := by
  have hmax : past'.length ≤ past.length + mgr'.maxRetainedKeys := by
    refine Nat.not_lt.mp fun hlt => ?_
    rw [h.get_pruned h.getElem?_length hlt] at hget
    cases hget
  obtain ⟨key', hget', hpublic⟩ := h.get_recent h.getElem?_length hmax
  have hverify := verify_of_sign hD hpair hsig
  rw [KeyVersion.verify, ← hpublic] at hverify
  simpa only [verifyByKid, hget', KeyVersion.verify] using hverify

end TracksFrom

/-- What the current key signs is named by its kid. -/
theorem Tracks.signCurrent_eq_some {past : List KeyVersion} {cur : KeyVersion}
    {mgr : VersionedKeyManager} (h : Tracks D past cur mgr) {data sig : List UInt8} {kid : String} :
    mgr.signCurrent D data = some (kid, sig) ↔ kid = cur.kid ∧ cur.sign D data = some sig := by
  simp only [signCurrent, h.get_current, Option.bind_eq_bind, Option.bind_some,
    Option.bind_eq_some_iff, Option.pure_def, Option.some.injEq, Prod.mk.injEq]
  constructor
  · rintro ⟨sig, hsig, rfl, rfl⟩
    exact ⟨rfl, hsig⟩
  · rintro ⟨rfl, hsig⟩
    exact ⟨sig, hsig, rfl, rfl⟩

/-- **Signature validity window.**  In every state the JWKS document lists exactly the kids under
which some signature verifies.  What the current key signs there verifies for the next `m`
rotations; after more than `m` nothing verifies under its kid. -/
theorem signature_window (hD : D.Lawful) {m : ℕ} (hm : m ≤ 2 ^ 63 - 1)
    {mgr₀ mgr : VersionedKeyManager} (hstart : Started D H m mgr₀) {calls : List (KeyCall D)}
    {answers : List KeyAnswer} (hrun : (keyMachine D H).run mgr₀ calls = .ok (mgr, answers)) :
    (∀ b64url order kid, kid ∈ (mgr.jwks b64url order).map Jwk.kid ↔
      ∃ data sig, mgr.verifyByKid D kid data sig = true) ∧
    ∀ data kid sig, mgr.signCurrent D data = some (kid, sig) →
      ∀ later mgr' answers', (keyMachine D H).run mgr later = .ok (mgr', answers') →
        (rotations later ≤ m → mgr'.verifyByKid D kid data sig = true) ∧
        (m < rotations later → ∀ data' sig', mgr'.verifyByKid D kid data' sig' = false) := by
  obtain ⟨cur₀, h₀, rfl⟩ := started_tracks hstart
  obtain ⟨past, cur, h⟩ := h₀.run (by omega) hrun
  refine ⟨fun b64url order kid => h.mem_jwks.trans (h.exists_verifyByKid hD).symm, ?_⟩
  intro data kid sig hsign later mgr' answers' hlater
  obtain ⟨past', cur', h'⟩ := h.run (by rw [h.max_eq]; omega) hlater
  obtain ⟨rfl, hsig⟩ := h.signCurrent_eq_some.mp hsign
  have hmax : mgr'.maxRetainedKeys = mgr₀.maxRetainedKeys := h'.max_eq.trans h.max_eq
  refine ⟨fun hle => ?_, fun hlt data' sig' => ?_⟩
  · obtain ⟨key, hget, -⟩ := h'.get_recent h'.getElem?_length (by rw [h'.length_eq, hmax]; omega)
    exact h'.verifyByKid_of_get hD h.made_current.pair hsig hget
  · have hget := h'.get_pruned h'.getElem?_length (by rw [h'.length_eq, hmax]; omega)
    simp only [verifyByKid, hget]

/-- A manager that retains one old key: a signature survives one rotation and not two. -/
theorem signature_window_one :
    ∃ mgr kid sig mgr₁ answers₁ mgr₂ answers₂,
      mgr.signCurrent plainDsa [1, 2, 3] = some (kid, sig) ∧
      (keyMachine plainDsa headDigest).run mgr [.rotate plainDraw] = .ok (mgr₁, answers₁) ∧
      mgr₁.verifyByKid plainDsa kid [1, 2, 3] sig = true ∧
      (keyMachine plainDsa headDigest).run mgr [.rotate plainDraw, .rotate plainDraw]
        = .ok (mgr₂, answers₂) ∧
      mgr₂.verifyByKid plainDsa kid [1, 2, 3] sig = false := by
  obtain ⟨mgr, cur, hnew, h, hmax, -⟩ := new_tracks plainDsa headDigest 1 plainDraw.toKeyDraw
  obtain ⟨sig, hsig⟩ := sign_returns lawful_plainDsa h.made_current.pair [1, 2, 3]
  have hsign : mgr.signCurrent plainDsa [1, 2, 3] = some (cur.kid, sig) :=
    h.signCurrent_eq_some.mpr ⟨rfl, hsig⟩
  have hlimit : mgr.maxRetainedKeys + 1 < 2 ^ 64 := by
    rw [hmax]
    decide
  obtain ⟨mgr₁, answers₁, h₁⟩ := h.run_returns hlimit [.rotate plainDraw] (by decide)
  obtain ⟨mgr₂, answers₂, h₂⟩ :=
    h.run_returns hlimit [.rotate plainDraw, .rotate plainDraw] (by decide)
  have hwindow := (signature_window lawful_plainDsa (by decide) (.inl ⟨_, hnew⟩)
    (Machine.run_nil _ mgr)).2 _ _ _ hsign
  exact ⟨mgr, cur.kid, sig, mgr₁, answers₁, mgr₂, answers₂, hsign, h₁,
    (hwindow _ _ _ h₁).1 (by decide), h₂, (hwindow _ _ _ h₂).2 (by decide) _ _⟩

end PqcGateway
