import PqcGateway.Crypto.Primitives
import PqcGateway.Machinery.Runs

/-!
# Batch/Timestamp — proofs that a message existed at a time

A `TimestampAuthority` signs the time and the hash of a message, and `verifyTimestampProof` checks
the signature under the key the proof carries.  Where ML-DSA is ideal (`IdealKey`) and SHA-256 has
no collision among the messages at hand, what verifies under the authority's key was issued, and
what was issued verifies (`timestamps_authentic`).

* `timestamp_run` — every call of a run issues its proof, and each is counted.
* `proofPayload_inj` — what is signed determines the time and the hash.
-/

namespace PqcGateway

/-- A quantum-safe timestamp proof using ML-DSA-65. -/
structure TimestampProof where
  timestamp : UInt64
  messageHash : String
  signature : List UInt8
  publicKey : List UInt8
  proofHash : String
deriving DecidableEq, Repr

/-- A timestamp authority that creates and verifies timestamp proofs. -/
structure TimestampAuthority where
  seed : List UInt8
  publicKey : List UInt8
  fingerprint : String
  proofsIssued : ℕ
deriving DecidableEq, Repr

/-- Timestamp bytes, then message hash bytes. -/
def proofPayload (timestamp : UInt64) (messageHash : String) : List UInt8 :=
  toLeBytes timestamp ++ Text.asBytes messageHash

section

variable (D : MlDsa) (H : Sha256)

/-- `hex_encode(&Sha256::digest(message))`. -/
def messageDigest (message : List UInt8) : String := hexEncode (H message).toList

/-- The integrity hash of a proof. -/
def proofDigest (timestamp : UInt64) (messageHash : String) (signature : List UInt8) : String :=
  hexEncode (H (proofPayload timestamp messageHash ++ signature)).toList

namespace TimestampAuthority

/-- Create a new timestamp authority, where the crate generates the key `sk`. -/
def new (sk : D.SigningKey) : TimestampAuthority :=
  let kp := generateMlDsaKeypair D sk
  { seed := kp.seed
    publicKey := kp.publicKey
    fingerprint := keyFingerprint H kp.publicKey
    proofsIssued := 0 }

/-- Create a timestamp proof for a message, at the clock reading `timestamp`. -/
def createProof (message : List UInt8) (timestamp : UInt64) (authority : TimestampAuthority) :
    Checked (TimestampAuthority × Except String TimestampProof) :=
  let messageHash := messageDigest H message
  match mlDsaSign D authority.seed (proofPayload timestamp messageHash) with
  | .error e => .ok (authority, .error e)
  | .ok signature => do
    let proofHash := proofDigest H timestamp messageHash signature
    let proofsIssued ← Checked.checkedAdd 64 authority.proofsIssued 1
    let proof : TimestampProof :=
      { timestamp
        messageHash
        signature
        publicKey := authority.publicKey
        proofHash }
    pure ({ authority with proofsIssued }, .ok proof)

end TimestampAuthority

/-- Verify a timestamp proof. -/
def verifyTimestampProof (proof : TimestampProof) (message : List UInt8) : Bool :=
  messageDigest H message == proof.messageHash
    && mlDsaVerifies D proof.publicKey (proofPayload proof.timestamp proof.messageHash)
        proof.signature
    && proofDigest H proof.timestamp proof.messageHash proof.signature == proof.proofHash

/-- A call of `create_proof`, and the clock's reading in it. -/
structure ProofCall where
  message : List UInt8
  timestamp : UInt64
deriving DecidableEq, Repr

/-- The bytes the call signs. -/
def ProofCall.payload (call : ProofCall) : List UInt8 :=
  proofPayload call.timestamp (messageDigest H call.message)

/-- **The authority**, driven by its calls. -/
def timestampMachine : Machine TimestampAuthority ProofCall (Except String TimestampProof) where
  step authority call := authority.createProof D H call.message call.timestamp

end

/-! ## Proofs of a run

Each call has its proof, and the authority keeps its key. -/

/-- The run answered a call for the message with this proof. -/
def Issued (calls : List ProofCall) (answers : List (Except String TimestampProof))
    (message : List UInt8) (proof : TimestampProof) : Prop :=
  ∃ timestamp, (⟨message, timestamp⟩, .ok proof) ∈ calls.zip answers

/-- ML-DSA as an ideal signature: what the key signed verifies, and nothing else does. -/
structure IdealKey (D : MlDsa) (sk : D.SigningKey) (signed : List (List UInt8)) : Prop where
  fromSeed_toSeed : D.fromSeed (D.toSeed sk) = sk
  verifies_of_signed : ∀ payload ∈ signed, mlDsaVerifies D (generateMlDsaKeypair D sk).publicKey
    payload (D.encodeSignature (D.sign sk payload)) = true
  signed_of_verifies : ∀ payload sig,
    mlDsaVerifies D (generateMlDsaKeypair D sk).publicKey payload sig = true → payload ∈ signed

section

variable {D : MlDsa} {H : Sha256} {sk : D.SigningKey}

/-- The key pair an authority was made with stays. -/
structure KeptKey (D : MlDsa) (sk : D.SigningKey) (authority : TimestampAuthority) : Prop where
  seed : authority.seed = (generateMlDsaKeypair D sk).seed
  publicKey : authority.publicKey = (generateMlDsaKeypair D sk).publicKey

/-- What a call with this key answers. -/
def issuedProof (D : MlDsa) (H : Sha256) (sk : D.SigningKey) (call : ProofCall) : TimestampProof :=
  let signature := D.encodeSignature (D.sign sk (call.payload H))
  { timestamp := call.timestamp
    messageHash := messageDigest H call.message
    signature
    publicKey := (generateMlDsaKeypair D sk).publicKey
    proofHash := proofDigest H call.timestamp (messageDigest H call.message) signature }

/-- **A call issues its proof**, counts it and keeps the key. -/
theorem timestamp_step {authority authority' : TimestampAuthority} {call : ProofCall}
    {answer : Except String TimestampProof} (hseed : D.fromSeed (D.toSeed sk) = sk)
    (hkey : KeptKey D sk authority)
    (hstep : (timestampMachine D H).step authority call = .ok (authority', answer)) :
    answer = .ok (issuedProof D H sk call) ∧ KeptKey D sk authority' ∧
      authority'.proofsIssued = authority.proofsIssued + 1 := by
  have hsign : mlDsaSign D authority.seed (call.payload H)
      = .ok (D.encodeSignature (D.sign sk (call.payload H))) := by
    simp only [hkey.seed, mlDsaSign, generateMlDsaKeypair, bytes32TryFrom_toList, hseed]
  change authority.createProof D H call.message call.timestamp = _ at hstep
  rw [TimestampAuthority.createProof, ← ProofCall.payload, hsign] at hstep
  obtain ⟨issued, hadd, hpure⟩ := Checked.bind_eq_ok.mp hstep
  obtain ⟨-, rfl⟩ := Checked.checkedAdd_eq_ok.mp hadd
  obtain ⟨rfl, rfl⟩ := Prod.mk.inj (Except.ok.inj hpure)
  refine ⟨?_, ⟨hkey.seed, hkey.publicKey⟩, rfl⟩
  rw [issuedProof, hkey.publicKey]

variable {calls : List ProofCall} {answers : List (Except String TimestampProof)}
  {authority : TimestampAuthority}

theorem keptKey_new : KeptKey D sk (.new D H sk) := ⟨rfl, rfl⟩

/-- **Every call of a run issues its proof**, and each is counted. -/
theorem timestamp_run (hseed : D.fromSeed (D.toSeed sk) = sk)
    (hrun : (timestampMachine D H).run (.new D H sk) calls = .ok (authority, answers)) :
    answers = calls.map (fun call => .ok (issuedProof D H sk call)) ∧
      authority.publicKey = (generateMlDsaKeypair D sk).publicKey ∧
      authority.proofsIssued = calls.length := by
  have hanswers := Machine.answers_eq_map _ (fun _ _ _ _ hkey hstep =>
    ⟨(timestamp_step hseed hkey hstep).2.1, (timestamp_step hseed hkey hstep).1⟩) keptKey_new hrun
  have hcounted : ∀ calls authority call authority' answer,
      (KeptKey D sk authority ∧ authority.proofsIssued = calls.length) →
        (timestampMachine D H).step authority call = .ok (authority', answer) →
        KeptKey D sk authority' ∧ authority'.proofsIssued = (calls ++ [call]).length := by
    rintro calls authority call authority' answer ⟨hkey, hcount⟩ hstep
    obtain ⟨-, hkept, hissued⟩ := timestamp_step hseed hkey hstep
    exact ⟨hkept, by rw [hissued, hcount, List.length_append, List.length_singleton]⟩
  have hstart : KeptKey D sk (.new D H sk) ∧
      (TimestampAuthority.new D H sk).proofsIssued = ([] : List ProofCall).length :=
    ⟨keptKey_new, rfl⟩
  obtain ⟨hkept, hcount⟩ := Machine.run_history _ hcounted hstart hrun
  exact ⟨hanswers, hkept.publicKey, hcount⟩

/-- The proofs a run issued are those of its calls. -/
theorem issued_iff (hanswers : answers = calls.map fun call => .ok (issuedProof D H sk call))
    {message : List UInt8} {proof : TimestampProof} :
    Issued calls answers message proof ↔
      ∃ call ∈ calls, call.message = message ∧ issuedProof D H sk call = proof := by
  have hzip : calls.zip answers = calls.map fun call => (call, .ok (issuedProof D H sk call)) := by
    rw [hanswers, ← List.map_id calls, List.map_map, List.zip_map', List.map_id]
    rfl
  rw [Issued, hzip]
  simp only [List.mem_map, Prod.mk.injEq, Except.ok.injEq]
  constructor
  · rintro ⟨timestamp, call, hcall, rfl, hproof⟩
    exact ⟨_, hcall, rfl, hproof⟩
  · rintro ⟨call, hcall, rfl, hproof⟩
    exact ⟨call.timestamp, call, hcall, rfl, hproof⟩

/-- **A payload determines** the time and the hash. -/
theorem proofPayload_inj {timestamp timestamp' : UInt64} {hash hash' : String}
    (h : proofPayload timestamp hash = proofPayload timestamp' hash') :
    timestamp = timestamp' ∧ hash = hash' := by
  obtain ⟨htime, hhash⟩ := List.append_inj h (by simp)
  exact ⟨toLeBytes_injective htime, Text.asBytes_injective hhash⟩

theorem messageDigest_inj {M : Set (List UInt8)} (hH : Set.InjOn H M) {m m' : List UInt8}
    (hm : m ∈ M) (hm' : m' ∈ M) (h : messageDigest H m = messageDigest H m') : m = m' :=
  hH hm hm' (Vector.toList_inj.mp (hexEncode_injective h))

/-- An issued proof is accepted where its key verifies what it signed. -/
theorem verify_issuedProof {call : ProofCall}
    (hverify : mlDsaVerifies D (generateMlDsaKeypair D sk).publicKey (call.payload H)
      (D.encodeSignature (D.sign sk (call.payload H))) = true) :
    verifyTimestampProof D H (issuedProof D H sk call) call.message = true := by
  rw [ProofCall.payload] at hverify
  simp [verifyTimestampProof, issuedProof, ProofCall.payload, hverify]

/-- **Timestamp proofs are authentic.**  Where the authority's key is ideal and no two of the
messages `M` have the same SHA-256, a proof under the authority's key that is accepted for a message
was issued for it, with the same time; every issued proof is accepted; and the authority has counted
them. -/
theorem timestamps_authentic
    (hrun : (timestampMachine D H).run (.new D H sk) calls = .ok (authority, answers))
    (hideal : IdealKey D sk (calls.map (ProofCall.payload H))) {M : Set (List UInt8)}
    (hcalls : ∀ call ∈ calls, call.message ∈ M) (hH : Set.InjOn H M) :
    (∀ proof, ∀ message ∈ M, proof.publicKey = authority.publicKey →
        verifyTimestampProof D H proof message = true →
        ∃ issued, Issued calls answers message issued ∧ issued.timestamp = proof.timestamp) ∧
      (∀ message proof, Issued calls answers message proof →
        verifyTimestampProof D H proof message = true) ∧
      authority.proofsIssued = answers.countP (·.isOk) := by
  obtain ⟨hanswers, hkey, hcount⟩ := timestamp_run hideal.fromSeed_toSeed hrun
  refine ⟨fun proof message hmessage hpublic haccept => ?_, ?_, ?_⟩
  · rw [verifyTimestampProof, Bool.and_eq_true, Bool.and_eq_true, beq_iff_eq] at haccept
    obtain ⟨⟨hhash, hverify⟩, -⟩ := haccept
    rw [hpublic, hkey] at hverify
    obtain ⟨call, hcall, hpayload⟩ := List.mem_map.mp (hideal.signed_of_verifies _ _ hverify)
    obtain ⟨htime, hdigest⟩ := proofPayload_inj hpayload
    have hsame := messageDigest_inj hH (hcalls call hcall) hmessage (hdigest.trans hhash.symm)
    exact ⟨_, (issued_iff hanswers).mpr ⟨call, hcall, hsame, rfl⟩, htime⟩
  · intro message proof hissued
    obtain ⟨call, hcall, rfl, rfl⟩ := (issued_iff hanswers).mp hissued
    exact verify_issuedProof (hideal.verifies_of_signed _ (List.mem_map_of_mem hcall))
  · rw [hcount, hanswers, List.countP_map, List.countP_eq_length.mpr]
    exact fun _ _ => rfl

end

/-! ## Two proofs -/

/-- Two messages, stamped ten seconds apart. -/
def twoCalls : List ProofCall := [⟨[1], 100⟩, ⟨[2], 110⟩]

/-- The plain scheme, verifying nothing but what the two calls sign. -/
abbrev twoCallsDsa : MlDsa :=
  .plain fun payload => twoCalls.any fun call => call.payload headDigest == payload

theorem mlDsaVerifies_twoCallsDsa {sk : Vector UInt8 32} {payload sig : List UInt8} :
    mlDsaVerifies twoCallsDsa (generateMlDsaKeypair twoCallsDsa sk).publicKey payload sig = true ↔
      payload ∈ twoCalls.map (ProofCall.payload headDigest) ∧ sig = sk.toList ++ payload := by
  simp [mlDsaVerifies, mlDsaVerify, generateMlDsaKeypair, Except.toOption]

theorem idealKey_twoCallsDsa (sk : Vector UInt8 32) :
    IdealKey twoCallsDsa sk (twoCalls.map (ProofCall.payload headDigest)) where
  fromSeed_toSeed := rfl
  verifies_of_signed _ hpayload := mlDsaVerifies_twoCallsDsa.mpr ⟨hpayload, rfl⟩
  signed_of_verifies _ _ hverify := (mlDsaVerifies_twoCallsDsa.mp hverify).1

/-- Both proofs are issued and counted, and each is accepted for its message. -/
theorem twoCalls_authentic :
    ∃ authority answers, (timestampMachine twoCallsDsa headDigest).run
        (.new twoCallsDsa headDigest (.replicate 32 7)) twoCalls = .ok (authority, answers) ∧
      authority.proofsIssued = 2 ∧
      ∀ message proof, Issued twoCalls answers message proof →
        verifyTimestampProof twoCallsDsa headDigest proof message = true := by
  have hmessages : ∀ call ∈ twoCalls, call.message ∈ ({[1], [2]} : Set (List UInt8)) := by
    simp [twoCalls]
  have hdigests : Set.InjOn headDigest ({[1], [2]} : Set (List UInt8)) := by
    rintro _ (rfl | rfl) _ (rfl | rfl) h
    · rfl
    · exact absurd h (by decide)
    · exact absurd h (by decide)
    · rfl
  have hauthentic := timestamps_authentic rfl (idealKey_twoCallsDsa (.replicate 32 7)) hmessages
    hdigests
  exact ⟨_, _, rfl, hauthentic.2.2, hauthentic.2.1⟩

end PqcGateway
