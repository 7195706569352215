import PqcGateway.Trust.KeyTrust

/-!
# Trust/ExpiryWarnings — what the warnings call expired

`validateChain` reports a certificate as expired after its last second; `checkExpiryWarnings` goes
by the whole days that are left, and takes none of them for expired.  The two agree
(`WarningsAgree`) but for the certificate's last day (`warningsAgree_iff`).

* `expired_mem_errors` — when a certificate is reported as expired, in any chain.
* `lastHour_called_expired` — in its last hour it is called expired, and is not reported as expired.
-/

namespace PqcGateway

/-! ## The warnings -/

/-- The warning that a certificate has expired. -/
def expiredWarning (cert : ManagedCertificate) : String :=
  "Certificate '" ++ cert.subject ++ "' has EXPIRED (expired at " ++
    toString cert.notAfter.toNat ++ ")"

/-- The warning that a certificate should be rotated. -/
def rotationWarning (days : ℕ) (cert : ManagedCertificate) : String :=
  "Certificate '" ++ cert.subject ++ "' expires in " ++ toString days ++
    " days — consider rotation"

/-- **The warnings agree with the validation** of every chain with the certificate: expired is what
is reported as expired, and what ends within the days set is to be rotated. -/
structure WarningsAgree (store : TrustStore) (now : UInt64) (cert : ManagedCertificate) : Prop where
  expired : ∀ K clock chain, cert ∈ chain → clock 0 = now →
    (expiredWarning cert ∈ store.checkExpiryWarnings now cert ↔
      .expiredCertificate cert.subject cert.notAfter ∈
        (store.validateChain K clock chain).errors)
  rotated : now ≤ cert.notAfter →
    cert.notAfter.toNat - now.toNat ≤ store.expiryWarningDays.toNat * 86400 →
    ∃ days, store.checkExpiryWarnings now cert = [rotationWarning days cert]

section

variable {K : ChainCrates} {store : TrustStore} {now : UInt64} {clock : ℕ → UInt64}
  {chain : List ManagedCertificate} {cert : ManagedCertificate} {subject : String}
  {expiredAt : UInt64} {days : ℕ}

theorem mem_errorIf {p : Prop} [Decidable p] {e e' : ChainValidationError} :
    e' ∈ errorIf p e ↔ p ∧ e' = e := by
  unfold errorIf
  split <;> simp [*]

/-! ## What the validation reports

Of the checks of a chain only the one of a certificate by itself looks at its dates. -/

theorem expired_mem_certErrors :
    .expiredCertificate subject expiredAt ∈ store.certErrors now cert ↔
      now > cert.notAfter ∧ subject = cert.subject ∧ expiredAt = cert.notAfter := by
  simp [TrustStore.certErrors, mem_errorIf]

theorem expired_notMem_linkErrors {issuerCert : ManagedCertificate} :
    .expiredCertificate subject expiredAt ∉ TrustStore.linkErrors K cert issuerCert := by
  simp [TrustStore.linkErrors, mem_errorIf]

theorem expired_notMem_rootErrors :
    .expiredCertificate subject expiredAt ∉ store.rootErrors K cert := by
  unfold TrustStore.rootErrors
  split <;> simp [mem_errorIf]

theorem expired_mem_loopErrors :
    .expiredCertificate subject expiredAt ∈ TrustStore.loopErrors K store now chain ↔
      ∃ cert ∈ chain, now > cert.notAfter ∧ subject = cert.subject ∧ expiredAt = cert.notAfter := by
  induction chain with
  | nil => simp [TrustStore.loopErrors]
  | cons cert rest ih =>
    cases rest with
    | nil => simp [TrustStore.loopErrors, expired_mem_certErrors]
    | cons issuerCert rest =>
      rw [TrustStore.loopErrors, List.mem_append, List.mem_append, expired_mem_certErrors, ih,
        or_iff_left expired_notMem_linkErrors, List.exists_mem_cons_iff (a := cert)]

/-- **A certificate is reported as expired** after its last second. -/
theorem expired_mem_errors (hcert : cert ∈ chain) :
    .expiredCertificate cert.subject cert.notAfter ∈ (store.validateChain K clock chain).errors ↔
      cert.notAfter < clock 0 := by
  unfold TrustStore.validateChain
  cases hlast : chain.getLast? with
  | none =>
    rw [List.getLast?_eq_none_iff] at hlast
    simp [hlast] at hcert
  | some root =>
    rw [List.mem_append, or_iff_left expired_notMem_rootErrors, expired_mem_loopErrors]
    constructor
    · rintro ⟨cert', -, hlate, -, hat⟩
      rwa [hat]
    · intro hlate
      exact ⟨cert, hcert, hlate, rfl, rfl⟩

/-! ## What the warnings say -/

/-- The two warnings differ behind the subject. -/
theorem expiredWarning_ne : expiredWarning cert ≠ rotationWarning days cert := by
  intro h
  have hchars := congrArg String.toList h
  unfold expiredWarning rotationWarning at hchars
  simp only [String.toList_append, List.append_assoc, List.append_cancel_left_eq] at hchars
  -- The third character is that of "has" or of "expires".
  have hthird : some 'h' = some 'e' := congrArg (fun cs => cs[2]?) hchars
  exact absurd hthird (by decide)

theorem daysUntilExpiry_eq_zero :
    cert.daysUntilExpiry now = 0 ↔ cert.notAfter.toNat < now.toNat + 86400 := by
  unfold ManagedCertificate.daysUntilExpiry
  rw [← UInt64.toNat_inj]
  split
  · next h =>
    rw [ge_iff_le, UInt64.le_iff_toNat_le] at h
    simp only [UInt64.toNat_zero, true_iff]
    omega
  · next h =>
    rw [ge_iff_le, UInt64.not_le, UInt64.lt_iff_toNat_lt] at h
    rw [UInt64.toNat_div, UInt64.toNat_sub_of_le _ _ (UInt64.le_iff_toNat_le.mpr h.le)]
    simp only [UInt64.reduceToNat]
    omega

/-- **The warning that it has expired** is given from the last day on. -/
theorem expiredWarning_mem : expiredWarning cert ∈ store.checkExpiryWarnings now cert ↔
    cert.notAfter.toNat < now.toNat + 86400 := by
  rw [← daysUntilExpiry_eq_zero, TrustStore.checkExpiryWarnings]
  by_cases hdays : cert.daysUntilExpiry now = 0
  · rw [if_pos hdays]
    exact iff_of_true (List.mem_singleton.mpr rfl) hdays
  · rw [if_neg hdays]
    refine iff_of_false (fun hmem => ?_) hdays
    split_ifs at hmem
    · exact expiredWarning_ne (List.mem_singleton.mp hmem)
    · exact absurd hmem List.not_mem_nil

/-- **Before its last day** a certificate that ends within the days set is to be rotated. -/
theorem rotation_of_le (hday : now.toNat + 86400 ≤ cert.notAfter.toNat)
    (hsoon : cert.notAfter.toNat - now.toNat ≤ store.expiryWarningDays.toNat * 86400) :
    ∃ days, store.checkExpiryWarnings now cert = [rotationWarning days cert] := by
  have hdays : ¬ cert.daysUntilExpiry now = 0 := by
    rw [daysUntilExpiry_eq_zero]
    omega
  have hle : cert.daysUntilExpiry now ≤ store.expiryWarningDays.toUInt64 := by
    have hlt : ¬ now ≥ cert.notAfter := by
      rw [ge_iff_le, UInt64.le_iff_toNat_le]
      omega
    rw [ManagedCertificate.daysUntilExpiry, if_neg hlt, UInt64.le_iff_toNat_le, UInt64.toNat_div,
      UInt64.toNat_sub_of_le _ _ (UInt64.le_iff_toNat_le.mpr (by omega)), UInt32.toNat_toUInt64]
    simp only [UInt64.reduceToNat]
    omega
  refine ⟨(cert.daysUntilExpiry now).toNat, ?_⟩
  rw [TrustStore.checkExpiryWarnings, if_neg hdays, if_pos hle]
  rfl

end

/-- **The warnings agree with the validation** exactly before the certificate's last day and after
its last second. -/
theorem warningsAgree_iff (store : TrustStore) (now : UInt64) (cert : ManagedCertificate) :
    WarningsAgree store now cert ↔
      cert.notAfter < now ∨ now.toNat + 86400 ≤ cert.notAfter.toNat := by
  constructor
  · intro h
    have hagree := h.expired plainCrates (fun _ => now) [cert] (List.mem_singleton.mpr rfl) rfl
    rw [expiredWarning_mem, expired_mem_errors (List.mem_singleton.mpr rfl)] at hagree
    by_cases hlast : cert.notAfter.toNat < now.toNat + 86400
    · exact .inl (hagree.mp hlast)
    · exact .inr (not_lt.mp hlast)
  · intro h
    constructor
    · rintro K clock chain hcert rfl
      rw [expiredWarning_mem, expired_mem_errors hcert, UInt64.lt_iff_toNat_lt]
      rw [UInt64.lt_iff_toNat_lt] at h
      omega
    · intro hnow hsoon
      obtain hlate | hday := h
      · exact absurd hlate (UInt64.not_lt.mpr hnow)
      · exact rotation_of_le hday hsoon

/-- The honest root an hour before its end. -/
def lastHourRoot : ManagedCertificate := { honestRoot with notAfter := 4100 }

/-- **A certificate in its last hour** is called expired and is not reported as expired. -/
theorem lastHour_called_expired :
    (TrustStore.new 30).checkExpiryWarnings 500 lastHourRoot = [expiredWarning lastHourRoot] ∧
      .expiredCertificate lastHourRoot.subject lastHourRoot.notAfter ∉
        ((TrustStore.new 30).validateChain plainCrates (fun _ => 500) [lastHourRoot]).errors ∧
      ¬ WarningsAgree (TrustStore.new 30) 500 lastHourRoot := by
  have hself : lastHourRoot ∈ [lastHourRoot] := List.mem_singleton.mpr rfl
  have hwarned : (TrustStore.new 30).checkExpiryWarnings 500 lastHourRoot
      = [expiredWarning lastHourRoot] := rfl
  have hreported : ¬ .expiredCertificate lastHourRoot.subject lastHourRoot.notAfter ∈
      ((TrustStore.new 30).validateChain plainCrates (fun _ => 500) [lastHourRoot]).errors := by
    rw [expired_mem_errors hself]
    decide
  refine ⟨hwarned, hreported, fun h => hreported ?_⟩
  have hagree := h.expired plainCrates (fun _ => 500) [lastHourRoot] hself rfl
  exact hagree.mp (hwarned ▸ List.mem_singleton.mpr rfl)

end PqcGateway
