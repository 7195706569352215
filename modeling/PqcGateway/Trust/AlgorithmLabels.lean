import PqcGateway.Trust.KeyTrust

/-!
# Trust/AlgorithmLabels — the algorithm a certificate declares and the one its key verifies with

A signature is verified under the `issuerAlgorithm` of the certificate that carries it, and nothing
compares that with the `algorithm` that the issuer's certificate declares.  Keys of the three
algorithms differ in length (`ChainCrates.KeyFormats`), so in an accepted chain the two labels agree
(`AlgorithmsAgree`) exactly where the certificates that issue declare the algorithm of their keys
(`algorithmsAgree_iff`).

* `mislabelled_root_accepted` — an Ed25519 root that declares ML-DSA-65 is accepted.
-/

namespace PqcGateway

/-! ## Keys and their algorithms -/

/-- The lengths of the keys that decode: SEC1 points of P-256, and ML-DSA-65 verifying keys. -/
structure ChainCrates.KeyFormats (K : ChainCrates) : Prop where
  p256 : ∀ key vk, K.p256.decodeKey key = some vk → key.length = 33 ∨ key.length = 65
  mlDsa : ∀ key vk, K.mlDsa.decodeKey key = .ok vk → key.length = 1952

/-- The algorithm whose keys have the length of this one. -/
def keyAlgorithm (publicKey : List UInt8) : Option ChainCertAlgorithm :=
  if publicKey.length = 32 then some .ed25519
  else if publicKey.length = 33 ∨ publicKey.length = 65 then some .ecdsaP256
  else if publicKey.length = 1952 then some .mlDsa65
  else none

section

variable {K : ChainCrates} {algorithm : ChainCertAlgorithm} {publicKey data signature : List UInt8}

theorem SignatureCrate.decodes_of_verifies {Bytes : Type} {C : SignatureCrate Bytes} {key : Bytes}
    (h : C.verifies key data signature = true) : ∃ vk, C.decodeKey key = some vk := by
  rw [← Option.isSome_iff_exists]
  by_contra hnone
  rw [Option.not_isSome_iff_eq_none] at hnone
  simp [SignatureCrate.verifies, hnone] at h

theorem decodes_of_mlDsaVerifies {D : MlDsa} (h : mlDsaVerifies D publicKey data signature = true) :
    ∃ vk, D.decodeKey publicKey = .ok vk := by
  cases hkey : D.decodeKey publicKey with
  | ok vk => exact ⟨vk, rfl⟩
  | error e =>
    rw [mlDsaVerifies, mlDsaVerify] at h
    cases hsig : D.decodeSignature signature <;> simp [hsig, hkey, Except.toOption] at h

/-- **A key verifies under one algorithm only**, that of its length. -/
theorem keyAlgorithm_of_verify (hK : K.KeyFormats)
    (h : verifySignature K algorithm publicKey data signature = true) :
    keyAlgorithm publicKey = some algorithm := by
  cases algorithm with
  | ecdsaP256 =>
    obtain ⟨vk, hvk⟩ := SignatureCrate.decodes_of_verifies h
    obtain hlen | hlen := hK.p256 publicKey vk hvk <;> simp [keyAlgorithm, hlen]
  | ed25519 =>
    have hlen : publicKey.length = 32 := by
      by_contra hne
      have hnone : bytes32TryFrom publicKey = none := dif_neg hne
      simp [verifySignature, verifyEd25519, hnone] at h
    rw [keyAlgorithm, if_pos hlen]
  | mlDsa65 =>
    obtain ⟨vk, hvk⟩ := decodes_of_mlDsaVerifies h
    simp [keyAlgorithm, hK.mlDsa publicKey vk hvk]

end

/-! ## What is verified along a chain -/

/-- The certificates whose signatures are verified, each with the one whose key verifies it: the
next, and the last one itself if it names itself as its issuer. -/
def verifications : List ManagedCertificate → List (ManagedCertificate × ManagedCertificate)
  | [] => []
  | [root] => if root.isSelfSigned then [(root, root)] else []
  | cert :: issuerCert :: rest => (cert, issuerCert) :: verifications (issuerCert :: rest)

/-- **No algorithm confusion**: a signature is verified under the algorithm that the issuer's
certificate declares, which is among those reported. -/
structure AlgorithmsAgree (chain : List ManagedCertificate) (result : ChainValidationResult) :
    Prop where
  declared : ∀ p ∈ verifications chain, p.1.issuerAlgorithm = p.2.algorithm
  used : ∀ p ∈ verifications chain, p.1.issuerAlgorithm ∈ result.algorithmsUsed

section

variable {K : ChainCrates} {store : TrustStore} {clock : ℕ → UInt64}
  {chain : List ManagedCertificate} {root : ManagedCertificate}
  {p : ManagedCertificate × ManagedCertificate}

theorem signedBy_of_mem_verifications (hchain : chain.IsChain (IssuedBy K))
    (hroot : ∀ root, chain.getLast? = some root → root.isSelfSigned = true →
      TrustStore.signedBy K root root = true)
    (hp : p ∈ verifications chain) : TrustStore.signedBy K p.1 p.2 = true := by
  induction chain with
  | nil => exact absurd hp List.not_mem_nil
  | cons cert rest ih =>
    cases rest with
    | nil =>
      rw [verifications] at hp
      split_ifs at hp with hself
      · obtain rfl := List.mem_singleton.mp hp
        exact hroot cert rfl hself
      · exact absurd hp List.not_mem_nil
    | cons issuerCert rest =>
      obtain ⟨hissued, hrest⟩ := List.isChain_cons_cons.mp hchain
      obtain rfl | hp := List.mem_cons.mp hp
      · exact hissued.signed
      · exact ih hrest (fun root hlast => hroot root (by simpa using hlast)) hp

/-- **Every signature listed is verified** in an accepted chain. -/
theorem signedBy_of_valid (hvalid : (store.validateChain K clock chain).valid = true)
    (hp : p ∈ verifications chain) : TrustStore.signedBy K p.1 p.2 = true := by
  obtain ⟨root, hlast, hfields, -⟩ := valid_iff.mp hvalid
  refine signedBy_of_mem_verifications hfields.issued (fun root' hlast' hself => ?_) hp
  obtain rfl := Option.some.inj (hlast.symm.trans hlast')
  exact hfields.self_signed hself

theorem mem_of_mem_verifications (hp : p ∈ verifications chain) : p.2 ∈ chain := by
  induction chain with
  | nil => exact absurd hp List.not_mem_nil
  | cons cert rest ih =>
    cases rest with
    | nil =>
      rw [verifications] at hp
      split_ifs at hp
      · obtain rfl := List.mem_singleton.mp hp
        exact List.mem_singleton.mpr rfl
      · exact absurd hp List.not_mem_nil
    | cons issuerCert rest =>
      obtain rfl | hp := List.mem_cons.mp hp
      · exact List.mem_cons_of_mem _ List.mem_cons_self
      · exact List.mem_cons_of_mem _ (ih hp)

theorem mem_algorithmsUsed {algorithm : ChainCertAlgorithm} :
    algorithm ∈ TrustStore.algorithmsUsed chain ↔ ∃ cert ∈ chain, cert.algorithm = algorithm := by
  have hfold : ∀ used : List ChainCertAlgorithm,
      algorithm ∈ chain.foldl (fun used cert => if cert.algorithm ∈ used then used
        else used ++ [cert.algorithm]) used ↔
      algorithm ∈ used ∨ ∃ cert ∈ chain, cert.algorithm = algorithm := by
    induction chain with
    | nil => simp
    | cons cert rest ih =>
      intro used
      rw [List.foldl_cons, ih, List.exists_mem_cons_iff, ← or_assoc]
      refine or_congr_left ?_
      split_ifs with hmem
      · exact ⟨.inl, fun h => h.elim id fun heq => heq ▸ hmem⟩
      · rw [List.mem_append, List.mem_singleton, eq_comm (a := algorithm)]
  rw [TrustStore.algorithmsUsed, hfold, or_iff_right List.not_mem_nil]

/-- **The algorithms reported** are the declared ones. -/
theorem validateChain_algorithmsUsed :
    (store.validateChain K clock chain).algorithmsUsed = TrustStore.algorithmsUsed chain := by
  unfold TrustStore.validateChain
  cases hlast : chain.getLast? with
  | none =>
    rw [List.getLast?_eq_none_iff.mp hlast]
    rfl
  | some root => rfl

/-- **An accepted chain has no algorithm confusion** exactly if each certificate whose key verifies
a signature declares the algorithm of its key. -/
theorem algorithmsAgree_iff (hK : K.KeyFormats)
    (hvalid : (store.validateChain K clock chain).valid = true) :
    AlgorithmsAgree chain (store.validateChain K clock chain) ↔
      ∀ p ∈ verifications chain, keyAlgorithm p.2.publicKey = some p.2.algorithm := by
  have hkey : ∀ p ∈ verifications chain, keyAlgorithm p.2.publicKey = some p.1.issuerAlgorithm :=
    fun p hp => keyAlgorithm_of_verify hK (signedBy_of_valid hvalid hp)
  constructor
  · intro h p hp
    rw [hkey p hp, h.declared p hp]
  · intro h
    have hdeclared : ∀ p ∈ verifications chain, p.1.issuerAlgorithm = p.2.algorithm :=
      fun p hp => Option.some.inj ((hkey p hp).symm.trans (h p hp))
    refine ⟨hdeclared, fun p hp => ?_⟩
    rw [hdeclared p hp, validateChain_algorithmsUsed, mem_algorithmsUsed]
    exact ⟨p.2, mem_of_mem_verifications hp, rfl⟩

end

/-! ## A root with a false label

The root and its leaf are accepted under whatever label the root declares. -/

/-- Signatures that are the key and the data, under keys of the lengths that the crates decode. -/
def formatCrates : ChainCrates where
  p256 :=
    { VerifyingKey := List UInt8
      Signature := List UInt8
      decodeKey := fun key => if key.length = 33 ∨ key.length = 65 then some key else none
      decodeSignature := some
      verify := fun vk data signature => signature == vk ++ data }
  ed25519 :=
    { VerifyingKey := Vector UInt8 32
      Signature := List UInt8
      decodeKey := some
      decodeSignature := some
      verify := fun vk data signature => signature == vk.toList ++ data }
  mlDsa :=
    { plainDsa with
      VerifyingKey := List UInt8
      verifyingKey := fun sk => sk.toList ++ List.replicate 1920 0
      encodeKey := id
      decodeKey := fun key => if key.length = 1952 then .ok key else .error "wrong length"
      sign := fun sk data => sk.toList ++ List.replicate 1920 0 ++ data
      verify := fun vk data signature => signature == vk ++ data }

theorem keyFormats_formatCrates : formatCrates.KeyFormats where
  p256 _ _ h := (Option.ite_none_right_eq_some.mp h).1
  mlDsa key vk h := by
    by_contra hlen
    have herror : formatCrates.mlDsa.decodeKey key = .error "wrong length" := if_neg hlen
    rw [herror] at h
    cases h

/-- A root with an Ed25519 key, before it is signed. -/
def draftEd25519Root (algorithm : ChainCertAlgorithm) : ManagedCertificate :=
  { honestRoot with
    algorithm
    publicKey := List.replicate 32 5
    issuerAlgorithm := .ed25519 }

/-- A root that an Ed25519 key signed, under the label of some algorithm. -/
def ed25519Root (algorithm : ChainCertAlgorithm) : ManagedCertificate :=
  { draftEd25519Root algorithm with
    signature := List.replicate 32 5 ++ (draftEd25519Root algorithm).tbsBytes }

/-- **The label does not matter** to acceptance. -/
theorem ed25519Root_valid (algorithm : ChainCertAlgorithm) :
    (((TrustStore.new 30).addTrustedRoot (ed25519Root algorithm)).validateChain formatCrates
      (fun _ => 500) [ed25519Root algorithm]).valid = true := by
  have hsigned : TrustStore.signedBy formatCrates (ed25519Root algorithm) (ed25519Root algorithm)
      = true := by
    cases algorithm <;> decide
  refine valid_iff.mpr ⟨ed25519Root algorithm, rfl,
    ⟨?_, List.IsChain.singleton _, fun _ => hsigned⟩, ?_, fun _ _ pins hpins => ?_⟩
  · rw [List.forall_mem_singleton]
    exact ⟨(by decide : (0 : UInt64) ≤ 500), (by decide : (500 : UInt64) ≤ 1000),
      Finset.notMem_empty _⟩
  · have hget : ((TrustStore.new 30).addTrustedRoot (ed25519Root algorithm)).trustedRoots.get
        (ed25519Root algorithm).fingerprint = some (ed25519Root algorithm) :=
      EntryMap.get_insert_self _ _ _
    exact Option.ne_none_iff_exists'.mpr ⟨_, hget⟩
  · cases hpins

/-- A server's certificate with a P-256 key, which the root signed. -/
def ecdsaLeaf : ManagedCertificate :=
  .plainSigned (List.replicate 32 5)
    { honestRoot with
      subject := "a.test"
      algorithm := .ecdsaP256
      publicKey := List.replicate 33 2
      issuerAlgorithm := .ed25519
      isCa := false
      serial := "03" }

theorem ecdsaLeaf_valid :
    (((TrustStore.new 30).addTrustedRoot (ed25519Root .ed25519)).validateChain formatCrates
      (fun _ => 500) [ecdsaLeaf, ed25519Root .ed25519]).valid = true := by
  obtain ⟨root, hlast, hfields, hroot, hpins⟩ := valid_iff.mp (ed25519Root_valid .ed25519)
  obtain rfl := List.singleton_inj.mp (congrArg Option.toList hlast)
  have hsigned : TrustStore.signedBy formatCrates ecdsaLeaf (ed25519Root .ed25519) = true := by
    decide
  refine valid_iff.mpr ⟨_, rfl, ⟨List.forall_mem_cons.mpr ⟨?_, hfields.in_force⟩,
    List.isChain_cons_cons.mpr ⟨⟨rfl, rfl, hsigned⟩, hfields.issued⟩, hfields.self_signed⟩, hroot,
    List.forall_mem_cons.mpr ⟨fun pins hget => ?_, hpins⟩⟩
  · exact ⟨(by decide : (0 : UInt64) ≤ 500), (by decide : (500 : UInt64) ≤ 1000),
      Finset.notMem_empty _⟩
  · cases hget

/-- **With its own label** the root agrees, about itself and about what it signed. -/
theorem ed25519Root_agrees :
    AlgorithmsAgree [ecdsaLeaf, ed25519Root .ed25519]
      (((TrustStore.new 30).addTrustedRoot (ed25519Root .ed25519)).validateChain formatCrates
        (fun _ => 500) [ecdsaLeaf, ed25519Root .ed25519]) :=
  (algorithmsAgree_iff keyFormats_formatCrates ecdsaLeaf_valid).mpr (by decide)

/-- **Ed25519 passes for ML-DSA-65**: the root is accepted and its signature is verified under an
algorithm that is not reported. -/
theorem mislabelled_root_accepted :
    let result := ((TrustStore.new 30).addTrustedRoot (ed25519Root .mlDsa65)).validateChain
      formatCrates (fun _ => 500) [ed25519Root .mlDsa65]
    result.valid = true ∧ (ed25519Root .mlDsa65).issuerAlgorithm = .ed25519 ∧
      result.algorithmsUsed = [.mlDsa65] ∧ ¬ AlgorithmsAgree [ed25519Root .mlDsa65] result := by
  have hroot : (ed25519Root .mlDsa65, ed25519Root .mlDsa65) ∈
      verifications [ed25519Root .mlDsa65] := by decide
  refine ⟨ed25519Root_valid .mlDsa65, rfl, rfl, fun h => ?_⟩
  exact absurd (h.declared _ hroot) (by decide)

end PqcGateway
