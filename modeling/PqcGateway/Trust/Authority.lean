import PqcGateway.Trust.History
import PqcGateway.Trust.Issue

/-!
# Trust/Authority — what becomes of issued certificates

    createRootCa ─▸ createSignedCert ─▸ createCertWithTiming ─▸ …      a chain, issued link by link
          ▴                 ▴                    ▴
       trusted?    revoked? in date? pinned?    an authority?          the calls of a store

Certificates are issued under one another in any order, to authorities or not, with any dates.  What
a store that has seen any calls thinks of such a chain depends on no signature: it is accepted
exactly if its issuers are authorities and the calls have left its certificates in force, and a
revocation rejects the chains that contain the certificate and no others (`issued_accepted_iff`).
-/

namespace PqcGateway

open TrustStore

/-! ## Issuing, with any dates -/

section

variable {K : ChainCrates} {S : IssueCrates K} (H : Sha256)

/-- A certificate with explicit timing that is not signed yet, with its private key. -/
def timedDraft (subject : String) (algorithm : ChainCertAlgorithm) (issuerKp : CertKeyPair)
    (notBefore notAfter : UInt64) (isCa : Bool) (serial : Vector UInt8 16)
    (key : DrawnKey S algorithm) : CertKeyPair :=
  let (publicKey, privateKey) := generateKeypair S algorithm key
  let cert : ManagedCertificate :=
    { subject
      issuer := issuerKp.cert.subject
      algorithm
      publicKey
      signature := []
      issuerAlgorithm := issuerKp.cert.algorithm
      notBefore
      notAfter
      isCa
      fingerprint := computeFingerprint H publicKey
      serial := hexEncode serial.toList }
  { cert, privateKey }

/-- Create a certificate with explicit timing. -/
def createCertWithTiming (subject : String) (algorithm : ChainCertAlgorithm)
    (issuerKp : CertKeyPair) (notBefore notAfter : UInt64) (isCa : Bool)
    (serial : Vector UInt8 16) (key : DrawnKey S algorithm) : Checked CertKeyPair :=
  (timedDraft H subject algorithm issuerKp notBefore notAfter isCa serial key).signWith S
    issuerKp.cert.algorithm issuerKp.privateKey

/-- A chain as it was issued: a root, and each other certificate by the key pair before it.  The
newest is first. -/
inductive IssuedChain (S : IssueCrates K) (H : Sha256) : List CertKeyPair → Prop
  | root {subject : String} {algorithm : ChainCertAlgorithm} {validityDays : UInt64}
    {draws : Draws S algorithm} {kp : CertKeyPair}
    (h : createRootCa H subject algorithm validityDays draws = .ok kp) : IssuedChain S H [kp]
  | signed {issuerKp kp : CertKeyPair} {rest : List CertKeyPair} {args : SignedCertArgs S}
    (hissuer : IssuedChain S H (issuerKp :: rest))
    (h : createSignedCert H args.subject args.algorithm issuerKp args.validityDays args.isCa
      args.draws = .ok kp) : IssuedChain S H (kp :: issuerKp :: rest)
  | timed {issuerKp kp : CertKeyPair} {rest : List CertKeyPair} {subject : String}
    {algorithm : ChainCertAlgorithm} {notBefore notAfter : UInt64} {isCa : Bool}
    {serial : Vector UInt8 16} {key : DrawnKey S algorithm}
    (hissuer : IssuedChain S H (issuerKp :: rest))
    (h : createCertWithTiming H subject algorithm issuerKp notBefore notAfter isCa serial key
      = .ok kp) : IssuedChain S H (kp :: issuerKp :: rest)

end

/-! ## What is issued links up

Issuing asks nothing of the issuer, not that it is an authority, nor that it is in date. -/

/-- The next certificate's key signed this one, and its subject is named as the issuer. -/
structure SignedUnder (K : ChainCrates) (cert issuerCert : ManagedCertificate) : Prop where
  linked : cert.issuer = issuerCert.subject
  signed : signedBy K cert issuerCert = true

theorem issuedBy_iff {K : ChainCrates} {cert issuerCert : ManagedCertificate} :
    IssuedBy K cert issuerCert ↔ SignedUnder K cert issuerCert ∧ issuerCert.isCa = true :=
  ⟨fun h => ⟨⟨h.linked, h.signed⟩, h.by_ca⟩, fun h => ⟨h.1.linked, h.2, h.1.signed⟩⟩

/-- A condition on the second of each two neighbours is one on all but the first. -/
theorem isChain_and_iff {α : Type} {R : α → α → Prop} {p : α → Prop} {l : List α} :
    l.IsChain (fun a b => R a b ∧ p b) ↔ l.IsChain R ∧ ∀ b ∈ l.tail, p b := by
  induction l with
  | nil => simp
  | cons a l ih =>
    cases l with
    | nil => simp
    | cons b l =>
      rw [List.isChain_cons_cons, List.isChain_cons_cons, ih, List.tail_cons, List.tail_cons,
        List.forall_mem_cons]
      tauto

section

variable {K : ChainCrates} {S : IssueCrates K} {H : Sha256} {issuerKp draft kp : CertKeyPair}

/-- A draft that the issuer's key is asked to sign, with a key pair of its own. -/
structure DraftFor (S : IssueCrates K) (issuerKp draft : CertKeyPair) : Prop where
  issuer : draft.cert.issuer = issuerKp.cert.subject
  algorithm : draft.cert.issuerAlgorithm = issuerKp.cert.algorithm
  paired : KeyPaired S draft

/-- **Signing a draft** makes a certificate under the issuer's, if it makes one. -/
theorem DraftFor.signed (h : DraftFor S issuerKp draft) (hkey : KeyPaired S issuerKp)
    (hsign : draft.signWith S issuerKp.cert.algorithm issuerKp.privateKey = .ok kp) :
    KeyPaired S kp ∧ SignedUnder K kp.cert issuerKp.cert := by
  obtain ⟨sig, hsign', hsigned⟩ := signWith_of_keyPaired hkey h.algorithm
  obtain rfl := Except.ok.inj (hsign'.symm.trans hsign)
  exact ⟨h.paired, h.issuer, hsigned⟩

/-- What a draft is made of, if one is made. -/
theorem draftCert_eq_ok (hS : S.Lawful) {subject issuer : String}
    {algorithm issuerAlgorithm : ChainCertAlgorithm} {validityDays : UInt64} {isCa : Bool}
    {draws : Draws S algorithm}
    (h : draftCert H subject issuer algorithm issuerAlgorithm validityDays isCa draws = .ok draft) :
    draft.cert.subject = subject ∧ draft.cert.issuer = issuer ∧
      draft.cert.algorithm = algorithm ∧ draft.cert.issuerAlgorithm = issuerAlgorithm ∧
      draft.cert.isCa = isCa ∧ KeyPaired S draft := by
  obtain ⟨lifetime, -, h⟩ := Checked.bind_eq_ok.mp h
  obtain ⟨notAfter, -, h⟩ := Checked.bind_eq_ok.mp h
  obtain rfl := Except.ok.inj h
  exact ⟨rfl, rfl, rfl, rfl, rfl, signData_generateKeypair hS algorithm draws.key⟩

/-- An issued chain links up under a root that signed itself, and its newest key signs. -/
structure LinkedChain (S : IssueCrates K) (kp : CertKeyPair) (rest : List CertKeyPair) : Prop where
  key_paired : KeyPaired S kp
  linked : ((kp :: rest).map CertKeyPair.cert).IsChain (SignedUnder K)
  root : ∃ rootKp, (kp :: rest).getLast? = some rootKp ∧
    signedBy K rootKp.cert rootKp.cert = true

theorem LinkedChain.cons {rest : List CertKeyPair} (h : LinkedChain S issuerKp rest)
    (hkey : KeyPaired S kp) (hunder : SignedUnder K kp.cert issuerKp.cert) :
    LinkedChain S kp (issuerKp :: rest) where
  key_paired := hkey
  linked := List.isChain_cons_cons.mpr ⟨hunder, h.linked⟩
  root := by
    rw [List.getLast?_cons_cons]
    exact h.root

/-- **Every issued chain links up**, whoever was made an authority and whatever the dates. -/
theorem linkedChain_of_issued (hS : S.Lawful) {pairs : List CertKeyPair}
    (h : IssuedChain S H pairs) : ∃ kp rest, pairs = kp :: rest ∧ LinkedChain S kp rest := by
  induction h with
  | @root subject algorithm validityDays draws kp h =>
    obtain ⟨draft, hdraft, hsign⟩ := Checked.bind_eq_ok.mp h
    obtain ⟨hsubject, hissuer, rfl, halgorithm, -, hpaired⟩ := draftCert_eq_ok hS hdraft
    have hfor : DraftFor S draft draft := ⟨hissuer.trans hsubject.symm, halgorithm, hpaired⟩
    obtain ⟨hkey, -, hself⟩ := hfor.signed hpaired hsign
    obtain ⟨sig, -, hkp⟩ := Checked.bind_eq_ok.mp hsign
    obtain rfl := Except.ok.inj hkp
    exact ⟨_, [], rfl, hkey, List.IsChain.singleton _, _, rfl, hself⟩
  | @signed issuerKp kp rest args _ h ih =>
    obtain ⟨_, _, heq, hlinked⟩ := ih
    obtain ⟨rfl, rfl⟩ := List.cons.inj heq
    obtain ⟨draft, hdraft, hsign⟩ := Checked.bind_eq_ok.mp h
    obtain ⟨-, hissuer, -, halgorithm, -, hpaired⟩ := draftCert_eq_ok hS hdraft
    have hfor : DraftFor S issuerKp draft := ⟨hissuer, halgorithm, hpaired⟩
    obtain ⟨hkey, hunder⟩ := hfor.signed hlinked.key_paired hsign
    exact ⟨kp, _, rfl, hlinked.cons hkey hunder⟩
  | @timed issuerKp kp rest subject algorithm notBefore notAfter isCa serial key _ h ih =>
    obtain ⟨_, _, heq, hlinked⟩ := ih
    obtain ⟨rfl, rfl⟩ := List.cons.inj heq
    have hfor : DraftFor S issuerKp
        (timedDraft H subject algorithm issuerKp notBefore notAfter isCa serial key) :=
      ⟨rfl, rfl, signData_generateKeypair hS algorithm key⟩
    obtain ⟨hkey, hunder⟩ := hfor.signed hlinked.key_paired h
    exact ⟨kp, _, rfl, hlinked.cons hkey hunder⟩

/-! ## What a store thinks of it

What the calls can object to is the chain's root, its serials, its pins and its dates. -/

/-- The calls and the clock leave nothing to object to in a chain with this root. -/
structure InGoodStanding (calls : List StoreCall) (now : UInt64) (pairs : List CertKeyPair)
    (rootKp : CertKeyPair) : Prop where
  last : pairs.getLast? = some rootKp
  authorities : ∀ kp ∈ pairs.tail, kp.cert.isCa = true
  in_date : ∀ kp ∈ pairs, kp.cert.notBefore ≤ now ∧ now ≤ kp.cert.notAfter
  not_revoked : ∀ kp ∈ pairs, ¬ Revoked calls kp.cert.serial
  pinned : ∀ kp ∈ pairs, (∃ fingerprint, Pinned calls kp.cert.subject fingerprint) →
    Pinned calls kp.cert.subject kp.cert.fingerprint
  trusted : Trusted calls rootKp.cert.fingerprint

/-- **What is accepted of an issued chain** is what the calls have left in force. -/
theorem valid_iff_inGoodStanding {calls : List StoreCall} {store : TrustStore}
    (hstore : Recorded calls store) (clock : ℕ → UInt64) {rest : List CertKeyPair}
    (h : LinkedChain S kp rest) :
    (store.validateChain K clock ((kp :: rest).map CertKeyPair.cert)).valid = true ↔
      ∃ rootKp, InGoodStanding calls (clock 0) (kp :: rest) rootKp := by
  obtain ⟨rootKp, hlast, hself⟩ := h.root
  have hroot : ((kp :: rest).map CertKeyPair.cert).getLast? = some rootKp.cert := by
    rw [List.getLast?_map, hlast]
    rfl
  have hissued : ((kp :: rest).map CertKeyPair.cert).IsChain (IssuedBy K) ↔
      ∀ kp' ∈ (kp :: rest).tail, kp'.cert.isCa = true := by
    have hchain := isChain_and_iff (R := SignedUnder K) (p := fun cert => cert.isCa = true)
      (l := (kp :: rest).map CertKeyPair.cert)
    simp only [← issuedBy_iff] at hchain
    rw [hchain, and_iff_right h.linked, ← List.map_tail, List.forall_mem_map]
  rw [valid_iff]
  constructor
  · rintro ⟨root, hlast', ⟨hforce, hissued', -⟩, hlabel, hpins⟩
    obtain rfl := Option.some.inj (hroot.symm.trans hlast')
    rw [List.forall_mem_map] at hforce hpins
    exact ⟨rootKp, {
      last := hlast
      authorities := hissued.mp hissued'
      in_date := fun kp' hkp' => ⟨(hforce kp' hkp').begun, (hforce kp' hkp').not_over⟩
      not_revoked := fun kp' hkp' hrevoked =>
        (hforce kp' hkp').not_revoked ((hstore.revoked _).mpr hrevoked)
      pinned := fun kp' hkp' => (pin_label_iff hstore).mp (hpins kp' hkp')
      trusted := (hstore.roots _).mp hlabel }⟩
  · rintro ⟨rootKp', hstanding⟩
    obtain rfl := Option.some.inj (hlast.symm.trans hstanding.last)
    refine ⟨rootKp.cert, hroot, ⟨List.forall_mem_map.mpr fun kp' hkp' => ?_,
      hissued.mpr hstanding.authorities, fun _ => hself⟩, (hstore.roots _).mpr hstanding.trusted,
      List.forall_mem_map.mpr fun kp' hkp' => (pin_label_iff hstore).mpr
        (hstanding.pinned kp' hkp')⟩
    obtain ⟨hbegun, hnotOver⟩ := hstanding.in_date kp' hkp'
    exact ⟨hbegun, hnotOver, fun hrevoked =>
      hstanding.not_revoked kp' hkp' ((hstore.revoked _).mp hrevoked)⟩

/-- **A revocation rejects the chains with the certificate**, and no others. -/
theorem inGoodStanding_revoke_iff {calls : List StoreCall} {now : UInt64}
    {pairs : List CertKeyPair} {rootKp : CertKeyPair} (serial : String) :
    InGoodStanding (calls ++ [.revokeCertificate serial]) now pairs rootKp ↔
      InGoodStanding calls now pairs rootKp ∧ ∀ kp ∈ pairs, kp.cert.serial ≠ serial := by
  have hrevoked : ∀ s, Revoked (calls ++ [.revokeCertificate serial]) s ↔
      s = serial ∨ Revoked calls s := fun s => by simp [Revoked, leftOn_concat, eq_comm]
  have hpinned : ∀ subject pin, Pinned (calls ++ [.revokeCertificate serial]) subject pin ↔
      Pinned calls subject pin := fun subject pin => by simp [Pinned, leftOn_concat]
  have htrusted : ∀ pin, Trusted (calls ++ [.revokeCertificate serial]) pin ↔
      Trusted calls pin := fun pin => by simp [Trusted, leftOn_concat]
  constructor
  · intro h
    refine ⟨{ h with
      not_revoked := fun kp hkp hbefore =>
        h.not_revoked kp hkp ((hrevoked _).mpr (.inr hbefore))
      pinned := fun kp hkp => by simpa only [hpinned] using h.pinned kp hkp
      trusted := (htrusted _).mp h.trusted }, fun kp hkp heq => ?_⟩
    exact h.not_revoked kp hkp ((hrevoked _).mpr (.inl heq))
  · rintro ⟨h, hserials⟩
    exact { h with
      not_revoked := fun kp hkp hafter =>
        ((hrevoked _).mp hafter).elim (hserials kp hkp) (h.not_revoked kp hkp)
      pinned := fun kp hkp => by simpa only [hpinned] using h.pinned kp hkp
      trusted := (htrusted _).mpr h.trusted }

/-- **A root that is removed** takes all chains under its fingerprint with it, and no others. -/
theorem inGoodStanding_remove_iff {calls : List StoreCall} {now : UInt64}
    {pairs : List CertKeyPair} {rootKp : CertKeyPair} (fingerprint : String) :
    InGoodStanding (calls ++ [.removeTrustedRoot fingerprint]) now pairs rootKp ↔
      InGoodStanding calls now pairs rootKp ∧ rootKp.cert.fingerprint ≠ fingerprint := by
  have hrevoked : ∀ s, Revoked (calls ++ [.removeTrustedRoot fingerprint]) s ↔
      Revoked calls s := fun s => by simp [Revoked, leftOn_concat]
  have hpinned : ∀ subject pin, Pinned (calls ++ [.removeTrustedRoot fingerprint]) subject pin ↔
      Pinned calls subject pin := fun subject pin => by simp [Pinned, leftOn_concat]
  have htrusted : ∀ pin, Trusted (calls ++ [.removeTrustedRoot fingerprint]) pin ↔
      Trusted calls pin ∧ pin ≠ fingerprint := fun pin => by
    simp [Trusted, leftOn_concat, and_comm, eq_comm]
  constructor
  · intro h
    obtain ⟨hbefore, hne⟩ := (htrusted _).mp h.trusted
    exact ⟨{ h with
      not_revoked := fun kp hkp => by simpa only [hrevoked] using h.not_revoked kp hkp
      pinned := fun kp hkp => by simpa only [hpinned] using h.pinned kp hkp
      trusted := hbefore }, hne⟩
  · rintro ⟨h, hne⟩
    exact { h with
      not_revoked := fun kp hkp => by simpa only [hrevoked] using h.not_revoked kp hkp
      pinned := fun kp hkp => by simpa only [hpinned] using h.pinned kp hkp
      trusted := (htrusted _).mpr ⟨h.trusted, hne⟩ }

/-- **Exact acceptance of issued chains.**  A chain that was issued link by link, to whomever and
with any dates, is accepted after any calls of a store exactly if all its issuers are authorities
and the calls and the clock have left it in good standing.  One more revocation rejects the chains
with a certificate of that serial and no others, and a root that is removed those under it. -/
theorem issued_accepted_iff (hS : S.Lawful) {pairs : List CertKeyPair}
    (hissued : IssuedChain S H pairs) {expiryWarningDays : UInt32} {calls : List StoreCall}
    {store : TrustStore} {answers : List StoreAnswer}
    (hrun : storeMachine.run (.new expiryWarningDays) calls = .ok (store, answers))
    (clock : ℕ → UInt64) :
    ((store.validateChain K clock (pairs.map CertKeyPair.cert)).valid = true ↔
      ∃ rootKp, InGoodStanding calls (clock 0) pairs rootKp) ∧
    (∀ serial, ((store.revokeCertificate serial).validateChain K clock
        (pairs.map CertKeyPair.cert)).valid = true ↔
      (store.validateChain K clock (pairs.map CertKeyPair.cert)).valid = true ∧
        ∀ kp ∈ pairs, kp.cert.serial ≠ serial) ∧
    ∀ fingerprint, ((store.removeTrustedRoot fingerprint).1.validateChain K clock
        (pairs.map CertKeyPair.cert)).valid = true ↔
      (store.validateChain K clock (pairs.map CertKeyPair.cert)).valid = true ∧
        ∀ rootKp, pairs.getLast? = some rootKp → rootKp.cert.fingerprint ≠ fingerprint := by
  obtain ⟨kp, rest, rfl, hlinked⟩ := linkedChain_of_issued hS hissued
  have hvalid := valid_iff_inGoodStanding (recorded_run hrun) clock hlinked
  refine ⟨hvalid, fun serial => ?_, fun fingerprint => ?_⟩
  · have hrevoke : Recorded (calls ++ [.revokeCertificate serial])
        (store.revokeCertificate serial) := recorded_run (storeMachine.run_concat hrun rfl)
    rw [valid_iff_inGoodStanding hrevoke clock hlinked, hvalid]
    simp only [inGoodStanding_revoke_iff, exists_and_right]
  · have hremove : Recorded (calls ++ [.removeTrustedRoot fingerprint])
        (store.removeTrustedRoot fingerprint).1 := recorded_run (storeMachine.run_concat hrun rfl)
    rw [valid_iff_inGoodStanding hremove clock hlinked, hvalid]
    simp only [inGoodStanding_remove_iff]
    constructor
    · rintro ⟨rootKp, hstanding, hne⟩
      refine ⟨⟨rootKp, hstanding⟩, fun rootKp' hlast => ?_⟩
      rwa [← Option.some.inj (hstanding.last.symm.trans hlast)]
    · rintro ⟨⟨rootKp, hstanding⟩, hne⟩
      exact ⟨rootKp, hstanding, hne rootKp hstanding.last⟩

end

/-- A certificate with explicit timing is accepted until its root is revoked. -/
theorem issued_accepted_revoked : ∃ rootKp kp store answers,
    IssuedChain plainIssueCrates headDigest [kp, rootKp] ∧
    storeMachine.run (.new 30) [.addTrustedRoot rootKp.cert] = .ok (store, answers) ∧
    (store.validateChain plainChainCrates (fun _ => 20) [kp.cert, rootKp.cert]).valid = true ∧
    ((store.revokeCertificate rootKp.cert.serial).validateChain plainChainCrates (fun _ => 20)
      [kp.cert, rootKp.cert]).valid = false := by
  have hfits : Fits hybridDraws.now 3650 := by decide
  obtain ⟨rootKp, hmade, hkey, hca, -⟩ : ∃ rootKp, createRootCa headDigest "Root CA" .ecdsaP256 3650
      hybridDraws = .ok rootKp ∧ KeyPaired plainIssueCrates rootKp ∧ rootKp.cert.isCa = true ∧ _ :=
    createRootCa_of_fits headDigest lawful_plainIssueCrates hfits
  have hdates : (createRootCa headDigest "Root CA" .ecdsaP256 3650 hybridDraws).toOption.map
      (fun kp => decide (kp.cert.notBefore ≤ 20 ∧ 20 ≤ kp.cert.notAfter)) = some true := by decide
  rw [hmade] at hdates
  have hroot := of_decide_eq_true (Option.some.inj hdates)
  obtain ⟨sig, hsign, -⟩ : ∃ sig, createCertWithTiming (S := plainIssueCrates) headDigest
      "Leaf Server" .ed25519 rootKp 10 30 false (.replicate 16 2)
      (.replicate 32 2 : Vector UInt8 32) = .ok _ ∧ _ := signWith_of_keyPaired hkey rfl
  have hissued := (IssuedChain.root hmade).timed hsign
  have hrun : storeMachine.run (.new 30) [.addTrustedRoot rootKp.cert]
      = .ok ((TrustStore.new 30).addTrustedRoot rootKp.cert, [.done]) := rfl
  obtain ⟨haccept, hrevoke, -⟩ :=
    issued_accepted_iff lawful_plainIssueCrates hissued hrun fun _ => 20
  have honce : ∀ on off, LeftOn on off [StoreCall.addTrustedRoot rootKp.cert]
      ↔ on (.addTrustedRoot rootKp.cert) := fun on off => by
    rw [← List.nil_append [StoreCall.addTrustedRoot rootKp.cert], leftOn_concat]
    exact or_iff_left fun h => not_leftOn_nil h.2
  have hleaf : (10 : UInt64) ≤ 20 ∧ (20 : UInt64) ≤ 30 := by decide
  refine ⟨rootKp, _, _, _, hissued, hrun, haccept.mpr ⟨rootKp, ?_⟩,
    Bool.eq_false_iff.mpr fun hvalid => ?_⟩
  · exact
      { last := rfl
        authorities := fun kp hkp => List.mem_singleton.mp hkp ▸ hca
        in_date := List.forall_mem_cons.mpr ⟨hleaf, List.forall_mem_singleton.mpr hroot⟩
        not_revoked := by simp [Revoked, honce]
        pinned := by simp [Pinned, honce]
        trusted := by simp [Trusted, honce] }
  · exact ((hrevoke rootKp.cert.serial).mp hvalid).2 rootKp (by simp) rfl

end PqcGateway
