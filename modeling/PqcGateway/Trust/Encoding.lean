import PqcGateway.Trust.CertChain

/-!
# Trust/Encoding — what the signed bytes of a certificate determine

`tbsBytes` writes seven fields one after the other, with a NUL after the subject and after the
issuer and no lengths.  A name may contain NUL and a key may end in any byte, so the bytes do not
say where a field ends.

* `tbsBytes_determine_iff` — the bytes determine the fields for names and key lengths such that one
  certificate's names cannot be read out of the other's (`Determined`), and for no others.
* `determined_of_noNul` / `determined_of_lengths` — so they do for names without NUL, of any
  lengths, and for names of the same lengths, if the keys have one length.
* `signature_transplanted` — keys of two lengths: a signature on one certificate is a signature on
  another.
-/

namespace PqcGateway

namespace ManagedCertificate

/-! ## Names and body

The names come first, each with its NUL; what follows has sixteen bytes of dates, the key, the CA
flag and the serial to the end. -/

/-- The names as they are signed. -/
def names (cert : ManagedCertificate) : List UInt8 :=
  Text.asBytes cert.subject ++ [0] ++ Text.asBytes cert.issuer ++ [0]

/-- What is signed after the names. -/
def body (cert : ManagedCertificate) : List UInt8 :=
  toLeBytes cert.notBefore ++ toLeBytes cert.notAfter ++ cert.publicKey ++ [cert.isCa.toUInt8]
    ++ Text.asBytes cert.serial

/-- The fields that are signed are the same. -/
structure SameSigned (a b : ManagedCertificate) : Prop where
  subject : a.subject = b.subject
  issuer : a.issuer = b.issuer
  notBefore : a.notBefore = b.notBefore
  notAfter : a.notAfter = b.notAfter
  publicKey : a.publicKey = b.publicKey
  isCa : a.isCa = b.isCa
  serial : a.serial = b.serial

/-- The names are the same, and the keys of one length. -/
structure Alike (a b : ManagedCertificate) : Prop where
  subject : a.subject = b.subject
  issuer : a.issuer = b.issuer
  keyLength : a.publicKey.length = b.publicKey.length

variable {a b : ManagedCertificate}

theorem tbsBytes_eq (cert : ManagedCertificate) : cert.tbsBytes = cert.names ++ cert.body := by
  simp only [tbsBytes, names, body, List.append_assoc]

theorem toUInt8_inj {p q : Bool} (h : p.toUInt8 = q.toUInt8) : p = q := by
  revert p q
  decide

/-- The CA flag stands behind the dates and the key. -/
theorem flag_of_body (cert : ManagedCertificate) :
    cert.body[16 + cert.publicKey.length]? = some cert.isCa.toUInt8 := by
  have hlen : (toLeBytes cert.notBefore ++ toLeBytes cert.notAfter ++ cert.publicKey).length
      = 16 + cert.publicKey.length := by
    rw [List.length_append, List.length_append, length_toLeBytes, length_toLeBytes]
  rw [body, List.append_assoc, List.singleton_append, List.getElem?_append_right hlen.le, hlen,
    Nat.sub_self]
  rfl

/-- **Bytes of the same names and keys of one length** give the fields back. -/
theorem Alike.sameSigned (halike : Alike a b) (h : a.tbsBytes = b.tbsBytes) : SameSigned a b := by
  obtain ⟨hsubject, hissuer, hkey⟩ := halike
  have hnames : a.names = b.names := by rw [names, names, hsubject, hissuer]
  rw [tbsBytes_eq, tbsBytes_eq, hnames] at h
  have hbody : a.body = b.body := List.append_cancel_left h
  rw [body, body] at hbody
  obtain ⟨h, hserial⟩ := List.append_inj hbody (by simp [hkey])
  obtain ⟨h, hca⟩ := List.append_inj h (by simp [hkey])
  obtain ⟨h, hkey⟩ := List.append_inj h (by simp)
  obtain ⟨hbefore, hafter⟩ := List.append_inj h (by simp)
  exact ⟨hsubject, hissuer, toLeBytes_injective hbefore, toLeBytes_injective hafter, hkey,
    toUInt8_inj (List.singleton_inj.mp hca), Text.asBytes_injective hserial⟩

/-! ## Names that can be read out of others -/

/-- The other names begin with these, and where the CA flag then stands, behind a key of `k` bytes,
they have a flag or are over. -/
def Confusable (k : ℕ) (names names' : List UInt8) : Prop :=
  names <+: names' ∧ ∀ flag ∈ names'[names.length + 16 + k]?, flag = 0 ∨ flag = 1

/-- **The signed bytes are unambiguous**: under the same names the keys have one length, and of two
names none can be read out of the other. -/
structure Determined (a b : ManagedCertificate) : Prop where
  same_names : a.subject = b.subject → a.issuer = b.issuer →
    a.publicKey.length = b.publicKey.length
  other_names : a.subject ≠ b.subject ∨ a.issuer ≠ b.issuer →
    ¬ Confusable a.publicKey.length a.names b.names ∧
      ¬ Confusable b.publicKey.length b.names a.names

theorem confusable_of_append {more : List UInt8} (hnames : b.names = a.names ++ more)
    (hbody : a.body = more ++ b.body) : Confusable a.publicKey.length a.names b.names := by
  refine ⟨⟨more, hnames.symm⟩, fun flag hflag => ?_⟩
  rw [hnames, Nat.add_assoc, List.getElem?_append_right (Nat.le_add_right ..),
    Nat.add_sub_cancel_left] at hflag
  obtain ⟨hlt, hget⟩ := List.getElem?_eq_some_iff.mp hflag
  have hplace := flag_of_body a
  rw [hbody, List.getElem?_append_left hlt, hflag] at hplace
  rw [Option.some.inj hplace]
  cases a.isCa
  · exact .inl rfl
  · exact .inr rfl

/-- **Equal bytes** read the names of one certificate out of the other's. -/
theorem confusable_of_tbsBytes_eq (h : a.tbsBytes = b.tbsBytes) :
    Confusable a.publicKey.length a.names b.names ∨
      Confusable b.publicKey.length b.names a.names := by
  rw [tbsBytes_eq, tbsBytes_eq, List.append_eq_append_iff] at h
  obtain ⟨more, hnames, hbody⟩ | ⟨more, hnames, hbody⟩ := h
  · exact .inl (confusable_of_append hnames hbody)
  · exact .inr (confusable_of_append hnames hbody)

/-! ## Certificates that are read out of others

Behind the names of the one, zeros make the other's body; read behind the shorter names, they and
what is left of the longer ones make a body too. -/

/-- A text of `n` NULs. -/
def nuls (n : ℕ) : String := String.ofList (List.replicate n '\x00')

theorem asBytes_nuls (n : ℕ) : Text.asBytes (nuls n) = List.replicate n 0 := by
  rw [nuls, Text.asBytes_ofList, List.flatMap_replicate]
  exact List.flatten_replicate_singleton

/-- The certificate with zeros behind its names. -/
def blank (n : ℕ) (cert : ManagedCertificate) : ManagedCertificate :=
  { cert with
    notBefore := 0
    notAfter := 0
    publicKey := List.replicate cert.publicKey.length 0
    isCa := false
    serial := nuls n }

theorem alike_blank (n : ℕ) (cert : ManagedCertificate) : Alike cert (cert.blank n) :=
  ⟨rfl, rfl, List.length_replicate.symm⟩

theorem tbsBytes_blank (n : ℕ) (cert : ManagedCertificate) :
    (cert.blank n).tbsBytes
      = cert.names ++ List.replicate (17 + cert.publicKey.length + n) 0 := by
  have hzero : toLeBytes 0 = List.replicate 8 0 := by decide
  rw [tbsBytes_eq]
  refine congrArg (cert.names ++ ·) (List.eq_replicate_iff.mpr ⟨?_, fun x hx => ?_⟩)
  · simp [body, blank, asBytes_nuls]
    omega
  · simp only [body, blank, asBytes_nuls, hzero, List.mem_append, List.mem_replicate,
      List.mem_singleton] at hx
    tauto

/-- They are a text, up to their end. -/
theorem exists_asBytes_names (n : ℕ) (cert : ManagedCertificate) :
    ∃ t, Text.asBytes t = cert.names ++ List.replicate n 0 :=
  ⟨cert.subject ++ nuls 1 ++ cert.issuer ++ nuls 1 ++ nuls n, by
    simp only [Text.asBytes_append, asBytes_nuls]
    rfl⟩

/-- Enough bytes have the parts of a body, up to the flag. -/
theorem exists_parts {k : ℕ} {l : List UInt8} (h : 17 + k ≤ l.length) :
    ∃ notBefore notAfter publicKey flag rest, publicKey.length = k ∧
      l = toLeBytes notBefore ++ toLeBytes notAfter ++ publicKey ++ flag :: rest := by
  obtain ⟨notBefore, hbefore⟩ := exists_toLeBytes (l := l.take 8) (by simp; omega)
  obtain ⟨notAfter, hafter⟩ := exists_toLeBytes (l := (l.drop 8).take 8) (by simp; omega)
  have hplace : 16 + k < l.length := by omega
  refine ⟨notBefore, notAfter, (l.drop 16).take k, l[16 + k], l.drop (16 + k + 1), ?_, ?_⟩
  · simp
    omega
  · rw [hbefore, hafter, ← List.drop_eq_getElem_cons hplace, ← List.take_add, ← List.take_add,
      List.take_append_drop]

/-- **Confusable names** are those of two certificates with the same bytes. -/
theorem exists_tbsBytes_eq (h : Confusable a.publicKey.length a.names b.names) :
    ∃ a' b', Alike a a' ∧ Alike b b' ∧ a'.tbsBytes = b'.tbsBytes := by
  obtain ⟨⟨more, hmore⟩, hflag⟩ := h
  let n := 17 + a.publicKey.length
  obtain ⟨notBefore, notAfter, publicKey, flag, rest, hkey, hparts⟩ := exists_parts
    (k := a.publicKey.length) (l := more ++ List.replicate (17 + b.publicKey.length + n) 0)
    (by simp; omega)
  have hbytes : b.names ++ List.replicate (17 + b.publicKey.length + n) 0
      = a.names ++ (toLeBytes notBefore ++ toLeBytes notAfter ++ publicKey) ++ flag :: rest := by
    rw [← hmore, List.append_assoc, hparts, List.append_assoc a.names]
  -- the flag is one of the names' bytes, or a zero behind them
  have hbit : flag = 0 ∨ flag = 1 := by
    have hlen : (a.names ++ (toLeBytes notBefore ++ toLeBytes notAfter ++ publicKey)).length
        = a.names.length + 16 + a.publicKey.length := by
      simp only [List.length_append, length_toLeBytes, hkey]
      omega
    have hplace : (b.names ++ List.replicate (17 + b.publicKey.length + n) 0)[a.names.length + 16
        + a.publicKey.length]? = some flag := by
      rw [hbytes, ← hlen, List.getElem?_append_right le_rfl, Nat.sub_self]
      rfl
    by_cases hin : a.names.length + 16 + a.publicKey.length < b.names.length
    · rw [List.getElem?_append_left hin] at hplace
      exact hflag flag hplace
    · rw [List.getElem?_append_right (Nat.not_lt.mp hin)] at hplace
      exact .inl (List.eq_of_mem_replicate (List.mem_of_getElem? hplace))
  obtain ⟨isCa, rfl⟩ : ∃ isCa : Bool, flag = isCa.toUInt8 :=
    hbit.elim (fun h => ⟨false, h⟩) fun h => ⟨true, h⟩
  obtain ⟨text, htext⟩ := exists_asBytes_names (17 + b.publicKey.length + n) b
  have hascii : isCa.toUInt8 < 128 := by cases isCa <;> decide
  obtain ⟨serial, hserial⟩ := Text.exists_asBytes_after (htext.trans hbytes) hascii
  refine ⟨{ a with notBefore, notAfter, publicKey, isCa, serial }, b.blank n, ⟨rfl, rfl, hkey.symm⟩,
    alike_blank n b, ?_⟩
  rw [tbsBytes_blank, hbytes, tbsBytes_eq, body, hserial]
  simp only [List.append_assoc, List.singleton_append]
  rfl

/-- **The signed bytes determine the fields** among the certificates with the names and the key
lengths of these two exactly when they are unambiguous. -/
theorem tbsBytes_determine_iff (a b : ManagedCertificate) :
    (∀ a' b', Alike a a' → Alike b b' → a'.tbsBytes = b'.tbsBytes → SameSigned a' b') ↔
      Determined a b := by
  constructor
  · intro h
    refine ⟨fun hsubject hissuer => ?_, fun hother => ⟨fun hconf => ?_, fun hconf => ?_⟩⟩
    · have hnames : a.names = b.names := by rw [names, names, hsubject, hissuer]
      have hconf : Confusable a.publicKey.length a.names b.names := by
        refine ⟨hnames ▸ List.prefix_rfl, fun flag hflag => ?_⟩
        rw [← hnames, List.getElem?_eq_none (by omega)] at hflag
        cases hflag
      obtain ⟨a', b', ha, hb, hbytes⟩ := exists_tbsBytes_eq hconf
      exact (ha.keyLength.trans (congrArg List.length (h a' b' ha hb hbytes).publicKey)).trans
        hb.keyLength.symm
    · obtain ⟨a', b', ha, hb, hbytes⟩ := exists_tbsBytes_eq hconf
      have hsame := h a' b' ha hb hbytes
      exact hother.elim (fun hne => hne ((ha.subject.trans hsame.subject).trans hb.subject.symm))
        fun hne => hne ((ha.issuer.trans hsame.issuer).trans hb.issuer.symm)
    · obtain ⟨b', a', hb, ha, hbytes⟩ := exists_tbsBytes_eq hconf
      have hsame := h a' b' ha hb hbytes.symm
      exact hother.elim (fun hne => hne ((ha.subject.trans hsame.subject).trans hb.subject.symm))
        fun hne => hne ((ha.issuer.trans hsame.issuer).trans hb.issuer.symm)
  · intro h a' b' ha hb hbytes
    have hnames : a.names = a'.names ∧ b.names = b'.names := by
      rw [names, names, names, names, ha.subject, ha.issuer, hb.subject, hb.issuer]
      exact ⟨rfl, rfl⟩
    by_cases hsame : a.subject = b.subject ∧ a.issuer = b.issuer
    · refine Alike.sameSigned ⟨?_, ?_, ?_⟩ hbytes
      · rw [← ha.subject, ← hb.subject, hsame.1]
      · rw [← ha.issuer, ← hb.issuer, hsame.2]
      · rw [← ha.keyLength, ← hb.keyLength, h.same_names hsame.1 hsame.2]
    · have hother := h.other_names (not_and_or.mp hsame)
      rw [hnames.1, hnames.2, ha.keyLength, hb.keyLength] at hother
      exact absurd (confusable_of_tbsBytes_eq hbytes) (not_or.mpr hother)

/-! ## Where that is so -/

/-- What comes before a first byte of its kind is told apart from what comes after. -/
theorem append_cons_inj {x : UInt8} {l l' r r' : List UInt8} (hl : x ∉ l) (hl' : x ∉ l')
    (h : l ++ x :: r = l' ++ x :: r') : l = l' ∧ r = r' := by
  have hnil : ∀ {l l' m r r' : List UInt8}, x ∉ l' → l' = l ++ m → x :: r = m ++ x :: r' →
      l = l' ∧ r = r' := by
    rintro l _ m r r' hl' rfl h
    cases m with
    | nil => exact ⟨(List.append_nil l).symm, (List.cons.inj h).2⟩
    | cons y m =>
      obtain ⟨rfl, -⟩ := List.cons.inj h
      exact absurd (List.mem_append_right l List.mem_cons_self) hl'
  obtain ⟨m, hm, hr⟩ | ⟨m, hm, hr⟩ := List.append_eq_append_iff.mp h
  · exact hnil hl' hm hr
  · exact (hnil hl hm hr).imp Eq.symm Eq.symm

/-- Names without NUL begin no other names without NUL. -/
theorem names_eq_of_prefix (hb : (0 : UInt8) ∉ Text.asBytes b.subject)
    (hb' : (0 : UInt8) ∉ Text.asBytes b.issuer) (ha : (0 : UInt8) ∉ Text.asBytes a.subject)
    (ha' : (0 : UInt8) ∉ Text.asBytes a.issuer) (h : a.names <+: b.names) :
    a.subject = b.subject ∧ a.issuer = b.issuer := by
  obtain ⟨more, h⟩ := h
  simp only [names, List.append_assoc, List.cons_append, List.nil_append] at h
  obtain ⟨hsubject, h⟩ := append_cons_inj ha hb h
  obtain ⟨hissuer, -⟩ := append_cons_inj ha' hb' h
  exact ⟨Text.asBytes_injective hsubject, Text.asBytes_injective hissuer⟩

/-- **Names without NUL**, of any lengths, leave no doubt if the keys have one length. -/
theorem determined_of_noNul
    (ha : (0 : UInt8) ∉ Text.asBytes a.subject ∧ (0 : UInt8) ∉ Text.asBytes a.issuer)
    (hb : (0 : UInt8) ∉ Text.asBytes b.subject ∧ (0 : UInt8) ∉ Text.asBytes b.issuer)
    (hkey : a.publicKey.length = b.publicKey.length) : Determined a b := by
  refine ⟨fun _ _ => hkey, fun hother => ⟨fun hconf => ?_, fun hconf => ?_⟩⟩
  · obtain ⟨hsubject, hissuer⟩ := names_eq_of_prefix hb.1 hb.2 ha.1 ha.2 hconf.1
    exact hother.elim (absurd hsubject) (absurd hissuer)
  · obtain ⟨hsubject, hissuer⟩ := names_eq_of_prefix ha.1 ha.2 hb.1 hb.2 hconf.1
    exact hother.elim (absurd hsubject.symm) (absurd hissuer.symm)

/-- Nor do fields of the same lengths. -/
theorem determined_of_lengths
    (hsubject : (Text.asBytes a.subject).length = (Text.asBytes b.subject).length)
    (hissuer : (Text.asBytes a.issuer).length = (Text.asBytes b.issuer).length)
    (hkey : a.publicKey.length = b.publicKey.length) : Determined a b := by
  have hlen : a.names.length = b.names.length := by simp [names, hsubject, hissuer]
  have hsame : a.names = b.names → ¬ (a.subject ≠ b.subject ∨ a.issuer ≠ b.issuer) := by
    intro hnames hother
    rw [names, names] at hnames
    obtain ⟨h, -⟩ := List.append_inj hnames (by simp [hsubject, hissuer])
    obtain ⟨h, hissuers⟩ := List.append_inj h (by simp [hsubject])
    obtain ⟨hsubjects, -⟩ := List.append_inj h hsubject
    exact hother.elim (absurd (Text.asBytes_injective hsubjects))
      (absurd (Text.asBytes_injective hissuers))
  refine ⟨fun _ _ => hkey, fun hother => ⟨fun hconf => ?_, fun hconf => ?_⟩⟩
  · exact hsame (hconf.1.eq_of_length hlen) hother
  · exact hsame (hconf.1.eq_of_length hlen.symm).symm hother

end ManagedCertificate

/-! ## A transplanted signature -/

/-- A certificate that is not a certificate authority's, with a key that ends in 1. -/
def leafCert : ManagedCertificate where
  subject := "leaf"
  issuer := "Root CA"
  algorithm := .mlDsa65
  publicKey := [7, 1]
  signature := []
  issuerAlgorithm := .mlDsa65
  notBefore := 0
  notAfter := 1000
  isCa := false
  fingerprint := ""
  serial := "ab"

/-- The last byte of the key read as the CA flag, and the CA flag as part of the serial. -/
def promotedCert : ManagedCertificate :=
  { leafCert with
    publicKey := [7]
    isCa := true
    serial := "\x00ab" }

/-- **Any issuer's signature on the leaf certificate is its signature on the promoted one**, which
is a certificate authority's. -/
theorem signature_transplanted :
    leafCert.tbsBytes = promotedCert.tbsBytes ∧
      ¬ ManagedCertificate.SameSigned leafCert promotedCert ∧
      ∀ (K : ChainCrates) (issuerCert : ManagedCertificate) (signature : List UInt8),
        TrustStore.signedBy K { promotedCert with signature } issuerCert
          = TrustStore.signedBy K { leafCert with signature } issuerCert := by
  have hbytes : leafCert.tbsBytes = promotedCert.tbsBytes := by decide
  refine ⟨hbytes, fun h => absurd h.isCa (by decide), fun K issuerCert signature => ?_⟩
  exact congrArg (fun tbs => verifySignature K .mlDsa65 issuerCert.publicKey tbs signature)
    hbytes.symm

end PqcGateway
