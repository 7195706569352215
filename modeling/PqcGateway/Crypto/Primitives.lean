import PqcGateway.Machinery.Text

/-!
# Crypto/Primitives — the cryptography the gateway calls

ML-DSA-65 and SHA-256 come from crates, so they are parameters: `MlDsa` lists the calls the gateway
makes and `MlDsa.Lawful` what their documentation promises.  Over them stand the gateway's own
wrappers, which pass keys, seeds and signatures around as bytes.

* `mlDsaVerifies_of_sign` — what the seed of a generated key signs verifies under its public key.
-/

namespace PqcGateway

/-! ## The crates -/

/-- The `ml_dsa` crate at ML-DSA-65: its types and the calls made on them.  A decoder's error is
the text it displays as. -/
structure MlDsa where
  SigningKey : Type
  VerifyingKey : Type
  Signature : Type
  fromSeed : Vector UInt8 32 → SigningKey
  toSeed : SigningKey → Vector UInt8 32
  verifyingKey : SigningKey → VerifyingKey
  encodeKey : VerifyingKey → List UInt8
  decodeKey : List UInt8 → Except String VerifyingKey
  sign : SigningKey → List UInt8 → Signature
  encodeSignature : Signature → List UInt8
  decodeSignature : List UInt8 → Except String Signature
  verify : VerifyingKey → List UInt8 → Signature → Bool

/-- A key comes back from its seed, encodings decode, and a signature verifies under its own key. -/
structure MlDsa.Lawful (D : MlDsa) : Prop where
  fromSeed_toSeed : ∀ sk, D.fromSeed (D.toSeed sk) = sk
  decodeKey_encodeKey : ∀ vk, D.decodeKey (D.encodeKey vk) = .ok vk
  decodeSignature_encodeSignature : ∀ sig, D.decodeSignature (D.encodeSignature sig) = .ok sig
  verify_sign : ∀ sk message, D.verify (D.verifyingKey sk) message (D.sign sk message) = true

/-- `Sha256::digest`. -/
abbrev Sha256 : Type := List UInt8 → Vector UInt8 32

/-! ## Bytes of a number

Seeds are 32 bytes, and so are the numbers below `2^256`. -/

/-- `u64::to_le_bytes`. -/
def toLeBytes (x : UInt64) : List UInt8 :=
  (List.range 8).map fun i => (x >>> UInt64.ofNat (8 * i)).toUInt8

@[simp] theorem length_toLeBytes (x : UInt64) : (toLeBytes x).length = 8 := by
  rw [toLeBytes, List.length_map, List.length_range]

/-- A number is determined by its lowest bytes, if it has no others. -/
theorem eq_of_byte_eq {n x y : ℕ} (hx : x < 256 ^ n) (hy : y < 256 ^ n)
    (h : ∀ i < n, x / 256 ^ i % 256 = y / 256 ^ i % 256) : x = y := by
  induction n generalizing x y with
  | zero => omega
  | succ n ih =>
    have hdiv : x / 256 = y / 256 := by
      refine ih (Nat.div_lt_of_lt_mul ?_) (Nat.div_lt_of_lt_mul ?_) fun i hi => ?_
      · rwa [← Nat.pow_succ']
      · rwa [← Nat.pow_succ']
      · rw [Nat.div_div_eq_div_mul, Nat.div_div_eq_div_mul, ← Nat.pow_succ']
        exact h (i + 1) (Nat.succ_lt_succ hi)
    have hmod : x % 256 = y % 256 := by simpa using h 0 n.succ_pos
    rw [← Nat.div_add_mod x 256, hdiv, hmod, Nat.div_add_mod]

theorem toLeBytes_injective : Function.Injective toLeBytes := by
  intro x y hxy
  refine UInt64.toNat_inj.mp (eq_of_byte_eq (n := 8) x.toNat_lt y.toNat_lt fun i hi => ?_)
  have hget := congrArg UInt8.toNat (List.map_inj_left.mp hxy i (List.mem_range.mpr hi))
  have h8 : 8 * i % 64 = 8 * i := Nat.mod_eq_of_lt (by omega)
  have hpow : 2 ^ (8 * i) = 256 ^ i := Nat.pow_mul 2 8 i
  simpa [UInt64.toNat_shiftRight, h8, Nat.shiftRight_eq_div_pow, hpow] using hget

/-- Any bytes are the lowest ones of a number that has no others. -/
theorem exists_of_bytes (l : List UInt8) :
    ∃ n < 256 ^ l.length, ∀ i (h : i < l.length), n / 256 ^ i % 256 = l[i].toNat := by
  induction l with
  | nil => exact ⟨0, Nat.one_pos, fun i h => absurd h (Nat.not_lt_zero i)⟩
  | cons b l ih =>
    obtain ⟨n, hn, hbytes⟩ := ih
    have hb : b.toNat < 256 := b.toNat_lt
    refine ⟨b.toNat + 256 * n, ?_, fun i hi => ?_⟩
    · rw [List.length_cons, Nat.pow_succ']
      omega
    · cases i with
      | zero => simp [Nat.add_mul_mod_self_left]
      | succ i =>
        have hdiv : (b.toNat + 256 * n) / 256 = n := by omega
        rw [Nat.pow_succ', ← Nat.div_div_eq_div_mul, hdiv]
        exact hbytes i (Nat.lt_of_succ_lt_succ hi)

/-- **Eight bytes are those of a number.** -/
theorem exists_toLeBytes {l : List UInt8} (h : l.length = 8) : ∃ x, toLeBytes x = l := by
  obtain ⟨n, hn, hbytes⟩ := exists_of_bytes l
  rw [h] at hn
  refine ⟨UInt64.ofNat n, List.ext_getElem (by rw [length_toLeBytes, h]) fun i hi hi' => ?_⟩
  have h8 : 8 * i % 64 = 8 * i := Nat.mod_eq_of_lt (by omega)
  have hpow : 2 ^ (8 * i) = 256 ^ i := Nat.pow_mul 2 8 i
  have hmod : n % 18446744073709551616 = n := Nat.mod_eq_of_lt hn
  rw [← UInt8.toNat_inj, ← hbytes i hi']
  simp [toLeBytes, UInt64.toNat_shiftRight, h8, Nat.shiftRight_eq_div_pow, hpow, hmod]

/-! ## Hexadecimal -/

/-- `hex_encode`: two lower-case digits for each byte. -/
def hexEncode (bytes : List UInt8) : String := String.ofList (Text.hexChars bytes)

theorem hexEncode_injective : Function.Injective hexEncode := fun _ _ h =>
  Text.hexChars_injective (String.ofList_injective h)

/-- `hex_encode(&Sha256::digest(bytes)[..16])`, the fingerprint of a public key. -/
def keyFingerprint (H : Sha256) (publicKey : List UInt8) : String :=
  hexEncode ((H publicKey).toList.take 16)

/-! ## ML-DSA over bytes -/

/-- `<[u8; 32]>::try_from`, and with it `ml_dsa::Seed::try_from`: exactly 32 bytes. -/
def bytes32TryFrom (bytes : List UInt8) : Option (Vector UInt8 32) :=
  if h : bytes.length = 32 then some ⟨bytes.toArray, h⟩ else none

@[simp] theorem bytes32TryFrom_toList (seed : Vector UInt8 32) :
    bytes32TryFrom seed.toList = some seed := by
  rw [bytes32TryFrom, dif_pos seed.length_toList]
  rfl

theorem toList_of_bytes32TryFrom {bytes : List UInt8} {seed : Vector UInt8 32}
    (h : bytes32TryFrom bytes = some seed) : seed.toList = bytes := by
  rw [bytes32TryFrom, Option.dite_none_right_eq_some] at h
  obtain ⟨hlength, h⟩ := h
  rw [← Option.some.inj h]
  rfl

theorem exists_seed_of_length {bytes : List UInt8} (h : bytes.length = 32) :
    ∃ seed : Vector UInt8 32, seed.toList = bytes := ⟨⟨bytes.toArray, h⟩, rfl⟩

/-- ML-DSA-65 key pair: the encoded verifying key, and the seed of the signing key. -/
structure MlDsaKeyPair where
  publicKey : List UInt8
  seed : List UInt8
deriving DecidableEq, Repr

section

variable (D : MlDsa)

/-- `generate_ml_dsa_keypair`, where the crate generates the key `sk`. -/
def generateMlDsaKeypair (sk : D.SigningKey) : MlDsaKeyPair where
  publicKey := D.encodeKey (D.verifyingKey sk)
  seed := (D.toSeed sk).toList

/-- Sign data with ML-DSA-65. -/
def mlDsaSign (seed message : List UInt8) : Except String (List UInt8) :=
  match bytes32TryFrom seed with
  | none => .error "Invalid ML-DSA-65 seed (expected 32 bytes)"
  | some seed => .ok (D.encodeSignature (D.sign (D.fromSeed seed) message))

/-- Verify an ML-DSA-65 signature. -/
def mlDsaVerify (publicKey message signature : List UInt8) : Except String Bool :=
  match D.decodeSignature signature with
  | .error e => .error ("Invalid ML-DSA-65 signature: " ++ e)
  | .ok sig =>
    match D.decodeKey publicKey with
    | .error e => .error ("Invalid ML-DSA-65 public key: " ++ e)
    | .ok vk => .ok (D.verify vk message sig)

/-- `ml_dsa_verify(..).unwrap_or(false)`: what does not decode does not verify. -/
def mlDsaVerifies (publicKey message signature : List UInt8) : Bool :=
  (mlDsaVerify D publicKey message signature).toOption.getD false

variable {D}

/-- Signing with a seed of the right length never fails. -/
theorem mlDsaSign_toList (seed : Vector UInt8 32) (message : List UInt8) :
    mlDsaSign D seed.toList message
      = .ok (D.encodeSignature (D.sign (D.fromSeed seed) message)) := by
  simp only [mlDsaSign, bytes32TryFrom_toList]

/-- A key verifies what it signs. -/
theorem mlDsaVerifies_sign (hD : D.Lawful) (sk : D.SigningKey) (message : List UInt8) :
    mlDsaVerifies D (D.encodeKey (D.verifyingKey sk)) message
      (D.encodeSignature (D.sign sk message)) = true := by
  rw [mlDsaVerifies, mlDsaVerify, hD.decodeSignature_encodeSignature]
  simp only [hD.decodeKey_encodeKey, hD.verify_sign]
  rfl

/-- **Signing with the seed of a generated key never fails.** -/
theorem mlDsaSign_generate (hD : D.Lawful) (sk : D.SigningKey) (message : List UInt8) :
    mlDsaSign D (generateMlDsaKeypair D sk).seed message
      = .ok (D.encodeSignature (D.sign sk message)) := by
  rw [generateMlDsaKeypair, mlDsaSign_toList, hD.fromSeed_toSeed]

/-- **A signature made with a key pair's seed verifies under its public key.** -/
theorem mlDsaVerifies_of_sign (hD : D.Lawful) {sk : D.SigningKey} {message sig : List UInt8}
    (h : mlDsaSign D (generateMlDsaKeypair D sk).seed message = .ok sig) :
    mlDsaVerifies D (generateMlDsaKeypair D sk).publicKey message sig = true := by
  rw [mlDsaSign_generate hD] at h
  obtain rfl := Except.ok.inj h
  exact mlDsaVerifies_sign hD sk message

end

/-! ## A scheme to compute with

Keys are their seeds and signatures show what was signed, so that runs can be evaluated: the laws
hold, and nothing is secret. -/

/-- The scheme whose keys are their seeds and whose signatures are the key and the message, for the
messages in `accepts`.  It has the laws when `accepts` holds of every message. -/
abbrev MlDsa.plain (accepts : List UInt8 → Bool) : MlDsa where
  SigningKey := Vector UInt8 32
  VerifyingKey := Vector UInt8 32
  Signature := List UInt8
  fromSeed := id
  toSeed := id
  verifyingKey := id
  encodeKey := Vector.toList
  decodeKey bytes := match bytes32TryFrom bytes with
    | some seed => .ok seed
    | none => .error "wrong length"
  sign seed message := seed.toList ++ message
  encodeSignature := id
  decodeSignature := .ok
  verify seed message signature := accepts message && signature == seed.toList ++ message

/-- The scheme that accepts every message. -/
abbrev plainDsa : MlDsa := .plain fun _ => true

theorem lawful_plainDsa : plainDsa.Lawful where
  fromSeed_toSeed _ := rfl
  decodeKey_encodeKey := fun (vk : Vector UInt8 32) => by
    simp only [bytes32TryFrom_toList]
  decodeSignature_encodeSignature _ := rfl
  verify_sign := fun (sk : Vector UInt8 32) message => by
    simp only [Bool.true_and, id, beq_self_eq_true]

/-- A digest that repeats the first byte. -/
def headDigest : Sha256 := fun bytes => Vector.replicate 32 (bytes.headD 0)

end PqcGateway
