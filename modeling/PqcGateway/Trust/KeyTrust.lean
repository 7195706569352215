import PqcGateway.Trust.CertChain
import Mathlib.Data.Fintype.EquivFin

/-!
# Trust/KeyTrust — labels and keys in an accepted chain

`validateChain` looks the root and the pinned certificates up by the fingerprint they carry, which
nothing compares with their keys.

* `valid_iff` — what acceptance checks: fields, and labels.
* `keyTrusted_of_honest` — where certificates carry the fingerprints of their own keys, and these
  do not collide, an accepted chain has trusted keys.
* `valid_of_borrowed_fingerprint` — a root with somebody else's fingerprint is accepted with any
  key.
* `exists_forged` — no store that trusts a root at all is safe from such a chain.
-/

namespace PqcGateway

variable {K : ChainCrates} {H : Sha256} {store : TrustStore} {now : UInt64}
  {clock : ℕ → UInt64} {chain : List ManagedCertificate}

/-! ## What acceptance checks -/

/-- The certificate is in date and not revoked. -/
structure InForce (store : TrustStore) (now : UInt64) (cert : ManagedCertificate) : Prop where
  begun : cert.notBefore ≤ now
  not_over : now ≤ cert.notAfter
  not_revoked : cert.serial ∉ store.revokedSerials

/-- The next certificate issued this one. -/
structure IssuedBy (K : ChainCrates) (cert issuerCert : ManagedCertificate) : Prop where
  linked : cert.issuer = issuerCert.subject
  by_ca : issuerCert.isCa = true
  signed : TrustStore.signedBy K cert issuerCert = true

/-- The checks that do not look a certificate up by its fingerprint. -/
structure FieldsPass (K : ChainCrates) (store : TrustStore) (now : UInt64)
    (chain : List ManagedCertificate) (root : ManagedCertificate) : Prop where
  in_force : ∀ cert ∈ chain, InForce store now cert
  issued : chain.IsChain (IssuedBy K)
  self_signed : root.isSelfSigned = true → TrustStore.signedBy K root root = true

/-- The fingerprints the certificates carry are the ones the store asks for. -/
structure LabelsPass (store : TrustStore) (chain : List ManagedCertificate)
    (root : ManagedCertificate) : Prop where
  root_label : store.trustedRoots.get root.fingerprint ≠ none
  pin_labels : ∀ cert ∈ chain, ∀ pins, store.pinnedFingerprints.get cert.subject = some pins →
    cert.fingerprint ∈ pins

theorem errorIf_eq_nil {p : Prop} [Decidable p] {e : ChainValidationError} :
    errorIf p e = [] ↔ ¬ p := by
  unfold errorIf
  split <;> simp [*]

theorem violatesPins_eq_true {cert : ManagedCertificate} :
    store.violatesPins cert = true ↔
      ∃ pins, store.pinnedFingerprints.get cert.subject = some pins ∧ cert.fingerprint ∉ pins := by
  unfold TrustStore.violatesPins
  cases store.pinnedFingerprints.get cert.subject <;> simp

theorem certErrors_eq_nil {cert : ManagedCertificate} :
    store.certErrors now cert = [] ↔ InForce store now cert ∧
      ∀ pins, store.pinnedFingerprints.get cert.subject = some pins → cert.fingerprint ∈ pins := by
  simp only [TrustStore.certErrors, List.append_eq_nil_iff, errorIf_eq_nil, UInt64.not_lt,
    gt_iff_lt, TrustStore.isRevoked, decide_eq_true_eq, violatesPins_eq_true, not_exists, not_and,
    not_not]
  constructor
  · rintro ⟨⟨⟨hbegun, hover⟩, hrevoked⟩, hpins⟩
    exact ⟨⟨hbegun, hover, hrevoked⟩, hpins⟩
  · rintro ⟨⟨hbegun, hover, hrevoked⟩, hpins⟩
    exact ⟨⟨⟨hbegun, hover⟩, hrevoked⟩, hpins⟩

theorem linkErrors_eq_nil {cert issuerCert : ManagedCertificate} :
    TrustStore.linkErrors K cert issuerCert = [] ↔ IssuedBy K cert issuerCert := by
  simp only [TrustStore.linkErrors, List.append_eq_nil_iff, errorIf_eq_nil, not_not,
    Bool.not_eq_true', Bool.not_eq_false]
  constructor
  · rintro ⟨⟨hlinked, hca⟩, hsigned⟩
    exact ⟨hlinked, hca, hsigned⟩
  · rintro ⟨hlinked, hca, hsigned⟩
    exact ⟨⟨hlinked, hca⟩, hsigned⟩

/-- **The loop finds nothing** iff every certificate and every link passes. -/
theorem loopErrors_eq_nil :
    TrustStore.loopErrors K store now chain = [] ↔
      (∀ cert ∈ chain, store.certErrors now cert = []) ∧ chain.IsChain (IssuedBy K) := by
  induction chain with
  | nil => simp [TrustStore.loopErrors]
  | cons cert rest ih =>
    cases rest with
    | nil => simp [TrustStore.loopErrors]
    | cons issuerCert rest =>
      rw [TrustStore.loopErrors, List.append_eq_nil_iff, List.append_eq_nil_iff, ih,
        linkErrors_eq_nil, List.isChain_cons_cons, List.forall_mem_cons (a := cert)]
      constructor
      · rintro ⟨⟨hcert, hlink⟩, hrest, hchain⟩
        exact ⟨⟨hcert, hrest⟩, hlink, hchain⟩
      · rintro ⟨⟨hcert, hrest⟩, hlink, hchain⟩
        exact ⟨⟨hcert, hlink⟩, hrest, hchain⟩

theorem rootErrors_eq_nil {root : ManagedCertificate} :
    store.rootErrors K root = [] ↔
      (root.isSelfSigned = true → TrustStore.signedBy K root root = true) ∧
        store.trustedRoots.get root.fingerprint ≠ none := by
  have huntrusted : errorIf (store.trustedRoots.get root.fingerprint = none)
      (.untrustedRoot root.subject) = [] ↔ store.trustedRoots.get root.fingerprint ≠ none :=
    errorIf_eq_nil
  rw [TrustStore.rootErrors]
  by_cases hself : root.isSelfSigned = true
  · rw [if_pos hself, List.append_eq_nil_iff, huntrusted, errorIf_eq_nil, Bool.not_eq_true',
      Bool.not_eq_false]
    exact and_congr_left fun _ => ⟨fun h _ => h, fun h => h hself⟩
  · rw [if_neg hself, huntrusted]
    exact ⟨fun h => ⟨fun h' => absurd h' hself, h⟩, And.right⟩

/-- **A chain is accepted** iff it has a last certificate and all fields and labels pass. -/
theorem valid_iff :
    (store.validateChain K clock chain).valid = true ↔
      ∃ root, chain.getLast? = some root ∧ FieldsPass K store (clock 0) chain root ∧
        LabelsPass store chain root := by
  unfold TrustStore.validateChain
  cases chain.getLast? with
  | none => simp
  | some root =>
    simp only [List.isEmpty_iff, List.append_eq_nil_iff, loopErrors_eq_nil, certErrors_eq_nil,
      rootErrors_eq_nil, Option.some.injEq, exists_eq_left']
    constructor
    · rintro ⟨⟨hcerts, hissued⟩, hself, hroot⟩
      exact ⟨⟨fun c hc => (hcerts c hc).1, hissued, hself⟩, hroot, fun c hc => (hcerts c hc).2⟩
    · rintro ⟨⟨hforce, hissued, hself⟩, hroot, hpins⟩
      exact ⟨⟨fun c hc => ⟨hforce c hc, hpins c hc⟩, hissued⟩, hself, hroot⟩

/-! ## Keys

`KnownKey` and `KeyPinned` say of keys what the store is asked of labels. -/

/-- The store holds a root with this key. -/
def KnownKey (store : TrustStore) (publicKey : List UInt8) : Prop :=
  ∃ label cert, store.trustedRoots.get label = some cert ∧ cert.publicKey = publicKey

/-- The pins of the certificate's subject, if any, contain the fingerprint of its key. -/
def KeyPinned (H : Sha256) (store : TrustStore) (cert : ManagedCertificate) : Prop :=
  ∀ pins, store.pinnedFingerprints.get cert.subject = some pins →
    computeFingerprint H cert.publicKey ∈ pins

/-- **Trust in keys**: the last certificate's key is a trusted root's, and every certificate with a
pinned subject has a pinned key. -/
structure KeyTrusted (H : Sha256) (store : TrustStore) (chain : List ManagedCertificate) :
    Prop where
  root_known : ∀ root, chain.getLast? = some root → KnownKey store root.publicKey
  keys_pinned : ∀ cert ∈ chain, KeyPinned H store cert

/-- The certificate carries the fingerprint of its own key. -/
def OwnLabel (H : Sha256) (cert : ManagedCertificate) : Prop :=
  cert.fingerprint = computeFingerprint H cert.publicKey

/-- **Honest labels**: every certificate that is looked up by its fingerprint, and every trusted
root, goes by the fingerprint of its own key, and the last certificate's key shares none with
another key of a trusted root. -/
structure HonestLabels (H : Sha256) (store : TrustStore) (chain : List ManagedCertificate) :
    Prop where
  root : ∀ root, chain.getLast? = some root → OwnLabel H root
  pinned : ∀ cert ∈ chain, store.pinnedFingerprints.get cert.subject ≠ none → OwnLabel H cert
  trusted : ∀ label cert, store.trustedRoots.get label = some cert →
    label = computeFingerprint H cert.publicKey
  apart : ∀ root label cert, chain.getLast? = some root →
    store.trustedRoots.get label = some cert →
    computeFingerprint H root.publicKey = computeFingerprint H cert.publicKey →
    root.publicKey = cert.publicKey

/-- The trusted root that an honest last certificate is found as has its key. -/
theorem HonestLabels.root_known (h : HonestLabels H store chain) {root : ManagedCertificate}
    (hlast : chain.getLast? = some root)
    (hlabel : store.trustedRoots.get root.fingerprint ≠ none) : KnownKey store root.publicKey := by
  obtain ⟨cert, hget⟩ := Option.ne_none_iff_exists'.mp hlabel
  have hsame : computeFingerprint H root.publicKey = computeFingerprint H cert.publicKey :=
    (h.root root hlast).symm.trans (h.trusted root.fingerprint cert hget)
  exact ⟨root.fingerprint, cert, hget, (h.apart root _ cert hlast hget hsame).symm⟩

/-- **Acceptance is trust in keys**, where labels are honest. -/
theorem keyTrusted_of_honest (K : ChainCrates) (clock : ℕ → UInt64)
    (h : HonestLabels H store chain) :
    (store.validateChain K clock chain).valid = true → KeyTrusted H store chain := by
  intro hvalid
  obtain ⟨root, hlast, -, hlabels⟩ := valid_iff.mp hvalid
  refine ⟨fun root' hlast' => ?_, fun cert hcert pins hpins => ?_⟩
  · obtain rfl := Option.some.inj (hlast.symm.trans hlast')
    exact h.root_known hlast hlabels.root_label
  · have hown : OwnLabel H cert := h.pinned cert hcert (by rw [hpins]; exact Option.some_ne_none _)
    exact hown ▸ hlabels.pin_labels cert hcert pins hpins

/-! ## A signed chain

The scheme whose signatures are the key and the data makes a chain of two that can be computed
with. -/

/-- A root as an honest authority makes it. -/
def honestRoot : ManagedCertificate where
  subject := "Root CA"
  issuer := "Root CA"
  algorithm := .mlDsa65
  publicKey := [1]
  signature := []
  issuerAlgorithm := .mlDsa65
  notBefore := 0
  notAfter := 1000
  isCa := true
  fingerprint := computeFingerprint headDigest [1]
  serial := "01"

/-- The crates, accepting nothing but plain ML-DSA signatures. -/
def plainCrates : ChainCrates where
  p256 := ⟨Unit, Unit, fun _ => none, fun _ => none, fun _ _ _ => false⟩
  ed25519 := ⟨Unit, Unit, fun _ => none, fun _ => none, fun _ _ _ => false⟩
  mlDsa := plainDsa

/-- The certificate with a plain signature of this key's. -/
def ManagedCertificate.plainSigned (key : List UInt8) (cert : ManagedCertificate) :
    ManagedCertificate :=
  { cert with signature := key ++ cert.tbsBytes }

/-- The honest root, with a key of full length that signs it. -/
def signedRoot : ManagedCertificate :=
  .plainSigned (List.replicate 32 1) { honestRoot with publicKey := List.replicate 32 1 }

/-- A server's certificate that the root signed. -/
def signedLeaf : ManagedCertificate :=
  .plainSigned (List.replicate 32 1)
    { honestRoot with
      subject := "a.test"
      publicKey := List.replicate 32 2
      isCa := false
      fingerprint := computeFingerprint headDigest (List.replicate 32 2)
      serial := "03" }

/-- The chain is accepted wherever neither certificate is revoked and the labels pass. -/
theorem signedChain_valid
    (hrevoked : ∀ cert ∈ [signedLeaf, signedRoot], cert.serial ∉ store.revokedSerials)
    (hlabels : LabelsPass store [signedLeaf, signedRoot] signedRoot) :
    (store.validateChain plainCrates (fun _ => 500) [signedLeaf, signedRoot]).valid = true := by
  have hleaf : TrustStore.signedBy plainCrates signedLeaf signedRoot = true := by decide
  have hroot : TrustStore.signedBy plainCrates signedRoot signedRoot = true := by decide
  have hdates : ∀ cert ∈ [signedLeaf, signedRoot], cert.notBefore ≤ 500 ∧ 500 ≤ cert.notAfter := by
    decide
  refine valid_iff.mpr ⟨signedRoot, rfl, ⟨fun cert hcert => ?_, ?_, fun _ => hroot⟩, hlabels⟩
  · exact ⟨(hdates cert hcert).1, (hdates cert hcert).2, hrevoked cert hcert⟩
  · exact List.isChain_cons_cons.mpr ⟨⟨rfl, rfl, hleaf⟩, List.IsChain.singleton _⟩

/-- The server's certificate is accepted under its pin, and its chain's keys are trusted. -/
theorem keyTrusted_signedChain :
    let store := ((TrustStore.new 30).addTrustedRoot signedRoot).pinCertificate "a.test"
      signedLeaf.fingerprint
    (store.validateChain plainCrates (fun _ => 500) [signedLeaf, signedRoot]).valid = true ∧
      KeyTrusted headDigest store [signedLeaf, signedRoot] := by
  intro store
  have hroots : store.trustedRoots.Holds [(signedRoot.fingerprint, signedRoot)] :=
    EntryMap.holds_new.insert _ _
  have hpins : store.pinnedFingerprints.Holds [("a.test", {signedLeaf.fingerprint})] :=
    EntryMap.holds_new.insert _ _
  have hlabels : LabelsPass store [signedLeaf, signedRoot] signedRoot := ⟨?_, ?_⟩
  have hvalid := signedChain_valid (by decide) hlabels
  refine ⟨hvalid, keyTrusted_of_honest plainCrates (fun _ => 500) ⟨?_, ?_, ?_, ?_⟩ hvalid⟩
  · rintro root ⟨⟩
    rfl
  · intro cert hcert _
    obtain rfl | rfl := List.mem_pair.mp hcert <;> rfl
  · intro label cert hget
    obtain ⟨rfl, rfl⟩ := Prod.mk.inj (List.mem_singleton.mp (hroots.get_eq_some.mp hget))
    rfl
  · rintro root label cert ⟨⟩ hget -
    obtain ⟨-, rfl⟩ := Prod.mk.inj (List.mem_singleton.mp (hroots.get_eq_some.mp hget))
    rfl
  · exact Option.ne_none_iff_exists'.mpr
      ⟨signedRoot, hroots.get_eq_some.mpr List.mem_cons_self⟩
  · intro cert hcert pins hget
    obtain ⟨hsubject, rfl⟩ := Prod.mk.inj (List.mem_singleton.mp (hpins.get_eq_some.mp hget))
    obtain rfl | rfl := List.mem_pair.mp hcert
    · exact Finset.mem_singleton_self _
    · exact absurd hsubject (by decide)

/-! ## Forged roots

The fingerprint is the chain's own word, so the label of any trusted root will do. -/

/-- **A borrowed fingerprint is enough.**  A certificate in force that does not name itself as its
issuer is accepted as a root under a trusted root's fingerprint, whatever its key and signature. -/
theorem valid_of_borrowed_fingerprint {cert : ManagedCertificate}
    (hforce : InForce store (clock 0) cert) (hself : cert.subject ≠ cert.issuer)
    (hpins : store.pinnedFingerprints.get cert.subject = none)
    (hlabel : store.trustedRoots.get cert.fingerprint ≠ none) :
    (store.validateChain K clock [cert]).valid = true := by
  refine valid_iff.mpr ⟨cert, rfl, ⟨?_, List.IsChain.singleton _, ?_⟩, hlabel, ?_⟩
  · simpa using hforce
  · simp [ManagedCertificate.isSelfSigned, hself]
  · simp [hpins]

/-- **No store is safe**: one that trusts a root at all accepts a chain with a key it does not
know. -/
theorem exists_forged (K : ChainCrates) (store : TrustStore) (clock : ℕ → UInt64) {label : String}
    (h : store.trustedRoots.get label ≠ none) :
    ∃ cert, (store.validateChain K clock [cert]).valid = true ∧
      ¬ KnownKey store cert.publicKey := by
  obtain ⟨publicKey, hkey⟩ := Infinite.exists_notMem_finset
    (store.trustedRoots.pairs.map fun e => e.2.publicKey).toFinset
  obtain ⟨serial, hserial⟩ := Infinite.exists_notMem_finset store.revokedSerials
  obtain ⟨subject, hsubject⟩ := Infinite.exists_notMem_finset
    (insert "" (store.pinnedFingerprints.pairs.map Prod.fst).toFinset)
  rw [Finset.mem_insert, not_or, List.mem_toFinset] at hsubject
  let cert : ManagedCertificate :=
    { honestRoot with
      subject
      issuer := ""
      publicKey
      notBefore := clock 0
      notAfter := clock 0
      fingerprint := label
      serial }
  have hforce : InForce store (clock 0) cert := ⟨UInt64.le_rfl, UInt64.le_rfl, hserial⟩
  refine ⟨cert, valid_of_borrowed_fingerprint hforce hsubject.1 ?_ h, ?_⟩
  · exact (EntryMap.Holds.get_eq_none (.refl _)).mpr hsubject.2
  · rintro ⟨label', trusted, hget, heq⟩
    refine hkey (List.mem_toFinset.mpr (List.mem_map.mpr ⟨(label', trusted), ?_, heq⟩))
    exact (EntryMap.Holds.get_eq_some (.refl _)).mp hget

/-- A root with another key, which carries the honest root's fingerprint. -/
def forgedRoot : ManagedCertificate :=
  { honestRoot with
    subject := "Forged CA"
    publicKey := [2]
    serial := "02" }

/-- A store that trusts the honest root accepts the forged one, whose key it does not know. -/
theorem forgedRoot_accepted :
    (((TrustStore.new 30).addTrustedRoot honestRoot).validateChain plainCrates (fun _ => 500)
        [forgedRoot]).valid = true ∧
      ¬ KeyTrusted headDigest ((TrustStore.new 30).addTrustedRoot honestRoot) [forgedRoot] := by
  have hholds : ((TrustStore.new 30).addTrustedRoot honestRoot).trustedRoots.Holds
      [(honestRoot.fingerprint, honestRoot)] := EntryMap.holds_new.insert _ _
  constructor
  · refine valid_of_borrowed_fingerprint ⟨by decide, by decide, by simp [TrustStore.addTrustedRoot,
      TrustStore.new]⟩ (by decide) rfl ?_
    have hget := hholds.get_eq_some.mpr List.mem_cons_self
    exact Option.ne_none_iff_exists'.mpr ⟨honestRoot, hget⟩
  · intro h
    obtain ⟨label, cert, hget, hkey⟩ := h.root_known forgedRoot rfl
    obtain ⟨-, rfl⟩ := Prod.mk.inj (List.mem_singleton.mp (hholds.get_eq_some.mp hget))
    exact absurd hkey (by decide)

end PqcGateway
