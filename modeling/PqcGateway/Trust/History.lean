import PqcGateway.Machinery.Runs
import PqcGateway.Trust.KeyTrust

/-!
# Trust/History — what a store accepts after its calls

A trust store is driven by six calls, which record trusted roots, revoked serials and pins.  What
the store holds after any run is what the calls have left on (`recorded_run`): a root added and not
since removed, a serial last revoked, a pin not since taken away.  With `valid_iff` that says which
chains are accepted in terms of the calls alone (`valid_iff_of_run`).

* `recorded_run` — the store holds what the calls have left on.
-/

namespace PqcGateway

/-- The calls that change a trust store. -/
inductive StoreCall
  | addTrustedRoot (cert : ManagedCertificate)
  | removeTrustedRoot (fingerprint : String)
  | revokeCertificate (serial : String)
  | unrevokeCertificate (serial : String)
  | pinCertificate (subject fingerprint : String)
  | unpinCertificate (subject fingerprint : String)
deriving DecidableEq, Repr

/-- What a call returns. -/
inductive StoreAnswer
  | done
  | removed (existed : Bool)
deriving DecidableEq, Repr

/-- The trust store, driven by its calls. -/
def storeMachine : Machine TrustStore StoreCall StoreAnswer where
  step store call := match call with
    | .addTrustedRoot cert => .ok (store.addTrustedRoot cert, .done)
    | .removeTrustedRoot fingerprint =>
      let (store, existed) := store.removeTrustedRoot fingerprint
      .ok (store, .removed existed)
    | .revokeCertificate serial => .ok (store.revokeCertificate serial, .done)
    | .unrevokeCertificate serial => .ok (store.unrevokeCertificate serial, .done)
    | .pinCertificate subject fingerprint => .ok (store.pinCertificate subject fingerprint, .done)
    | .unpinCertificate subject fingerprint =>
      .ok (store.unpinCertificate subject fingerprint, .done)

/-! ## What the calls have left on -/

/-- A root with this fingerprint was added and not since removed. -/
def Trusted (calls : List StoreCall) (fingerprint : String) : Prop :=
  LeftOn (fun call => ∃ cert, call = .addTrustedRoot cert ∧ cert.fingerprint = fingerprint)
    (· = .removeTrustedRoot fingerprint) calls

/-- The serial was revoked, and not unrevoked since. -/
def Revoked (calls : List StoreCall) (serial : String) : Prop :=
  LeftOn (· = .revokeCertificate serial) (· = .unrevokeCertificate serial) calls

/-- The fingerprint was pinned for the subject, and not unpinned since. -/
def Pinned (calls : List StoreCall) (subject fingerprint : String) : Prop :=
  LeftOn (· = .pinCertificate subject fingerprint) (· = .unpinCertificate subject fingerprint) calls

/-! ## What each call does to the store

A subject that loses its last pin is dropped: with an empty list of pins it would be refused every
certificate. -/

namespace TrustStore

variable {store : TrustStore} {subject fingerprint : String} {pins : Finset String}

/-- The store has the pin. -/
def HasPin (store : TrustStore) (subject fingerprint : String) : Prop :=
  ∃ pins, store.pinnedFingerprints.get subject = some pins ∧ fingerprint ∈ pins

theorem get_pinCertificate_self :
    (store.pinCertificate subject fingerprint).pinnedFingerprints.get subject
      = some (insert fingerprint ((store.pinnedFingerprints.get subject).getD ∅)) :=
  EntryMap.get_insert_self _ _ _

theorem get_pinCertificate_of_ne {subject' : String} (h : subject' ≠ subject) :
    (store.pinCertificate subject fingerprint).pinnedFingerprints.get subject'
      = store.pinnedFingerprints.get subject' :=
  EntryMap.get_insert_of_ne _ h _

theorem unpinCertificate_of_none (h : store.pinnedFingerprints.get subject = none) :
    store.unpinCertificate subject fingerprint = store := by
  rw [unpinCertificate, h]

theorem unpinCertificate_of_some (h : store.pinnedFingerprints.get subject = some pins) :
    store.unpinCertificate subject fingerprint
      = { store with
          pinnedFingerprints :=
            if pins.erase fingerprint = ∅ then store.pinnedFingerprints.remove subject
            else store.pinnedFingerprints.insert subject (pins.erase fingerprint) } := by
  rw [unpinCertificate, h]

@[simp] theorem trustedRoots_unpinCertificate :
    (store.unpinCertificate subject fingerprint).trustedRoots = store.trustedRoots := by
  unfold unpinCertificate
  split <;> rfl

@[simp] theorem revokedSerials_unpinCertificate :
    (store.unpinCertificate subject fingerprint).revokedSerials = store.revokedSerials := by
  unfold unpinCertificate
  split <;> rfl

theorem get_unpinCertificate_self (h : store.pinnedFingerprints.get subject = some pins) :
    (store.unpinCertificate subject fingerprint).pinnedFingerprints.get subject
      = if pins.erase fingerprint = ∅ then none else some (pins.erase fingerprint) := by
  rw [unpinCertificate_of_some h]
  by_cases hempty : pins.erase fingerprint = ∅
  · simp only [if_pos hempty, EntryMap.get_remove_self]
  · simp only [if_neg hempty, EntryMap.get_insert_self]

theorem get_unpinCertificate_of_ne {subject' : String} (h : subject' ≠ subject) :
    (store.unpinCertificate subject fingerprint).pinnedFingerprints.get subject'
      = store.pinnedFingerprints.get subject' := by
  cases hget : store.pinnedFingerprints.get subject with
  | none => rw [unpinCertificate_of_none hget]
  | some pins =>
    rw [unpinCertificate_of_some hget]
    by_cases hempty : pins.erase fingerprint = ∅
    · simp only [if_pos hempty, EntryMap.get_remove_of_ne _ h]
    · simp only [if_neg hempty, EntryMap.get_insert_of_ne _ h]

/-- **Pinning adds one pin.** -/
theorem hasPin_pinCertificate {subject' fingerprint' : String} :
    (store.pinCertificate subject fingerprint).HasPin subject' fingerprint' ↔
      (subject = subject' ∧ fingerprint = fingerprint') ∨ store.HasPin subject' fingerprint' := by
  unfold HasPin
  by_cases hsubject : subject' = subject
  · subst hsubject
    rw [get_pinCertificate_self]
    cases store.pinnedFingerprints.get subject' <;> simp [eq_comm]
  · rw [get_pinCertificate_of_ne hsubject]
    simp [Ne.symm hsubject]

/-- **Unpinning takes one pin away.** -/
theorem hasPin_unpinCertificate {subject' fingerprint' : String} :
    (store.unpinCertificate subject fingerprint).HasPin subject' fingerprint' ↔
      ¬ (subject = subject' ∧ fingerprint = fingerprint') ∧
        store.HasPin subject' fingerprint' := by
  unfold HasPin
  by_cases hsubject : subject' = subject
  · subst hsubject
    cases hget : store.pinnedFingerprints.get subject' with
    | none => simp [unpinCertificate_of_none hget, hget]
    | some pins =>
      have hmem : (∃ left, (if pins.erase fingerprint = ∅ then none
          else some (pins.erase fingerprint)) = some left ∧ fingerprint' ∈ left) ↔
          fingerprint' ∈ pins.erase fingerprint := by
        by_cases hempty : pins.erase fingerprint = ∅ <;> simp [hempty]
      rw [get_unpinCertificate_self hget, hmem, Finset.mem_erase]
      simp [eq_comm]
  · rw [get_unpinCertificate_of_ne hsubject]
    simp [Ne.symm hsubject]

/-- No subject is kept without a pin. -/
def NoEmptyPins (store : TrustStore) : Prop :=
  ∀ subject, store.pinnedFingerprints.get subject ≠ some ∅

theorem noEmptyPins_pinCertificate (h : store.NoEmptyPins) :
    (store.pinCertificate subject fingerprint).NoEmptyPins := by
  intro subject'
  by_cases hsubject : subject' = subject
  · subst hsubject
    rw [get_pinCertificate_self]
    simp
  · rw [get_pinCertificate_of_ne hsubject]
    exact h subject'

theorem noEmptyPins_unpinCertificate (h : store.NoEmptyPins) :
    (store.unpinCertificate subject fingerprint).NoEmptyPins := by
  intro subject'
  by_cases hsubject : subject' = subject
  · subst hsubject
    cases hget : store.pinnedFingerprints.get subject' with
    | none =>
      rw [unpinCertificate_of_none hget]
      exact h subject'
    | some pins =>
      rw [get_unpinCertificate_self hget]
      split <;> simp_all
  · rw [get_unpinCertificate_of_ne hsubject]
    exact h subject'

end TrustStore

/-! ## The store after a run -/

/-- The store holds what the calls have left on. -/
structure Recorded (calls : List StoreCall) (store : TrustStore) : Prop where
  roots : ∀ fingerprint, store.trustedRoots.get fingerprint ≠ none ↔ Trusted calls fingerprint
  revoked : ∀ serial, serial ∈ store.revokedSerials ↔ Revoked calls serial
  pins : ∀ subject fingerprint, store.HasPin subject fingerprint ↔ Pinned calls subject fingerprint
  no_empty : store.NoEmptyPins

section

variable {calls : List StoreCall} {call : StoreCall} {store store' : TrustStore}
  {answer : StoreAnswer}

theorem roots_step (h : Recorded calls store)
    (hstep : storeMachine.step store call = .ok (store', answer)) (fingerprint : String) :
    store'.trustedRoots.get fingerprint ≠ none ↔ Trusted (calls ++ [call]) fingerprint := by
  rw [Trusted, leftOn_concat, ← Trusted, ← h.roots]
  rcases call with cert | gone | _ | _ | _ | _ <;>
    obtain ⟨rfl, -⟩ := Prod.mk.inj (Except.ok.inj hstep)
  · by_cases hcert : fingerprint = cert.fingerprint
    · simp [TrustStore.addTrustedRoot, hcert]
    · simp [TrustStore.addTrustedRoot, EntryMap.get_insert_of_ne _ hcert, Ne.symm hcert]
  · by_cases hgone : fingerprint = gone
    · simp [hgone]
    · simp [EntryMap.get_remove_of_ne _ hgone, Ne.symm hgone]
  · simp [TrustStore.revokeCertificate]
  · simp [TrustStore.unrevokeCertificate]
  · simp [TrustStore.pinCertificate]
  · simp

theorem revoked_step (h : Recorded calls store)
    (hstep : storeMachine.step store call = .ok (store', answer)) (serial : String) :
    serial ∈ store'.revokedSerials ↔ Revoked (calls ++ [call]) serial := by
  rw [Revoked, leftOn_concat, ← Revoked, ← h.revoked]
  rcases call with _ | _ | serial' | serial' | _ | _ <;>
    obtain ⟨rfl, -⟩ := Prod.mk.inj (Except.ok.inj hstep)
  · simp [TrustStore.addTrustedRoot]
  · simp
  · simp [TrustStore.revokeCertificate, eq_comm]
  · simp [TrustStore.unrevokeCertificate, eq_comm]
  · simp [TrustStore.pinCertificate]
  · simp

theorem pins_step (h : Recorded calls store)
    (hstep : storeMachine.step store call = .ok (store', answer)) (subject fingerprint : String) :
    store'.HasPin subject fingerprint ↔ Pinned (calls ++ [call]) subject fingerprint := by
  rw [Pinned, leftOn_concat, ← Pinned, ← h.pins]
  rcases call with _ | _ | _ | _ | ⟨subject', pin⟩ | ⟨subject', pin⟩ <;>
    obtain ⟨rfl, -⟩ := Prod.mk.inj (Except.ok.inj hstep)
  · simp [TrustStore.addTrustedRoot, TrustStore.HasPin]
  · simp [TrustStore.HasPin]
  · simp [TrustStore.revokeCertificate, TrustStore.HasPin]
  · simp [TrustStore.unrevokeCertificate, TrustStore.HasPin]
  · simp [TrustStore.hasPin_pinCertificate]
  · simp [TrustStore.hasPin_unpinCertificate]

theorem no_empty_step (h : Recorded calls store)
    (hstep : storeMachine.step store call = .ok (store', answer)) : store'.NoEmptyPins := by
  rcases call with _ | _ | _ | _ | _ | _ <;>
    obtain ⟨rfl, -⟩ := Prod.mk.inj (Except.ok.inj hstep)
  · exact h.no_empty
  · exact h.no_empty
  · exact h.no_empty
  · exact h.no_empty
  · exact TrustStore.noEmptyPins_pinCertificate h.no_empty
  · exact TrustStore.noEmptyPins_unpinCertificate h.no_empty

theorem recorded_new (expiryWarningDays : UInt32) : Recorded [] (.new expiryWarningDays) where
  roots _ := iff_of_false (fun h => h rfl) not_leftOn_nil
  revoked _ := iff_of_false (Finset.notMem_empty _) not_leftOn_nil
  pins _ _ := by
    refine iff_of_false ?_ not_leftOn_nil
    rintro ⟨pins, hget, -⟩
    exact Option.some_ne_none pins hget.symm
  no_empty _ := (Option.some_ne_none _).symm

/-- **The store holds what the calls have left on**, after every run from the empty store. -/
theorem recorded_run {expiryWarningDays : UInt32} {answers : List StoreAnswer}
    (hrun : storeMachine.run (.new expiryWarningDays) calls = .ok (store, answers)) :
    Recorded calls store := by
  have hstep := fun calls store call store' answer (h : Recorded calls store)
      (hstep : storeMachine.step store call = .ok (store', answer)) =>
    (⟨roots_step h hstep, revoked_step h hstep, pins_step h hstep, no_empty_step h hstep⟩ :
      Recorded (calls ++ [call]) store')
  exact storeMachine.run_history hstep (recorded_new expiryWarningDays) hrun

end

/-! ## Acceptance -/

/-- What acceptance asks of a chain with the last certificate `root`, in terms of the calls. -/
structure AcceptedAfter (K : ChainCrates) (calls : List StoreCall) (now : UInt64)
    (chain : List ManagedCertificate) (root : ManagedCertificate) : Prop where
  last : chain.getLast? = some root
  in_date : ∀ cert ∈ chain, cert.notBefore ≤ now ∧ now ≤ cert.notAfter
  not_revoked : ∀ cert ∈ chain, ¬ Revoked calls cert.serial
  pinned : ∀ cert ∈ chain, (∃ fingerprint, Pinned calls cert.subject fingerprint) →
    Pinned calls cert.subject cert.fingerprint
  issued : chain.IsChain (IssuedBy K)
  self_signed : root.subject = root.issuer → TrustStore.signedBy K root root = true
  trusted : Trusted calls root.fingerprint

/-- The pins of a subject are asked for when it has one. -/
theorem pin_label_iff {calls : List StoreCall} {store : TrustStore} (h : Recorded calls store)
    {cert : ManagedCertificate} :
    (∀ pins, store.pinnedFingerprints.get cert.subject = some pins → cert.fingerprint ∈ pins) ↔
      ((∃ fingerprint, Pinned calls cert.subject fingerprint) →
        Pinned calls cert.subject cert.fingerprint) := by
  simp only [← h.pins]
  constructor
  · rintro hlabel ⟨fingerprint, pins, hget, -⟩
    exact ⟨pins, hget, hlabel pins hget⟩
  · intro hpinned pins hget
    have hne : pins ≠ ∅ := fun hempty => h.no_empty cert.subject (hempty ▸ hget)
    obtain ⟨fingerprint, hmem⟩ := Finset.nonempty_iff_ne_empty.mpr hne
    obtain ⟨pins', hget', hmem'⟩ := hpinned ⟨fingerprint, pins, hget, hmem⟩
    exact Option.some.inj (hget'.symm.trans hget) ▸ hmem'

/-- **Exact acceptance over store histories.** -/
theorem valid_iff_of_run (K : ChainCrates) {expiryWarningDays : UInt32} {calls : List StoreCall}
    {store : TrustStore} {answers : List StoreAnswer}
    (hrun : storeMachine.run (.new expiryWarningDays) calls = .ok (store, answers))
    (clock : ℕ → UInt64) (chain : List ManagedCertificate) :
    (store.validateChain K clock chain).valid = true ↔
      ∃ root, AcceptedAfter K calls (clock 0) chain root := by
  have hstore := recorded_run hrun
  rw [valid_iff]
  refine exists_congr fun root => ?_
  constructor
  · rintro ⟨hlast, ⟨hforce, hissued, hself⟩, hroot, hpins⟩
    exact {
      last := hlast
      in_date := fun cert hcert => ⟨(hforce cert hcert).begun, (hforce cert hcert).not_over⟩
      not_revoked := fun cert hcert hrevoked =>
        (hforce cert hcert).not_revoked ((hstore.revoked cert.serial).mpr hrevoked)
      pinned := fun cert hcert => (pin_label_iff hstore).mp (hpins cert hcert)
      issued := hissued
      self_signed := fun h => hself (beq_iff_eq.mpr h)
      trusted := (hstore.roots root.fingerprint).mp hroot }
  · intro h
    refine ⟨h.last, ⟨fun cert hcert => ⟨(h.in_date cert hcert).1, (h.in_date cert hcert).2, ?_⟩,
      h.issued, fun hself => h.self_signed (beq_iff_eq.mp hself)⟩,
      (hstore.roots root.fingerprint).mpr h.trusted, fun cert hcert => ?_⟩
    · exact fun hrevoked => h.not_revoked cert hcert ((hstore.revoked cert.serial).mp hrevoked)
    · exact (pin_label_iff hstore).mpr (h.pinned cert hcert)

/-- A root is added and the server pinned, revoked and unrevoked. -/
def unrevokedHistory : List StoreCall :=
  [.addTrustedRoot signedRoot, .pinCertificate "a.test" signedLeaf.fingerprint,
    .revokeCertificate "03", .unrevokeCertificate "03"]

/-- The server's chain is accepted after that. -/
theorem valid_iff_of_unrevoked :
    ∃ store answers, storeMachine.run (.new 30) unrevokedHistory = .ok (store, answers) ∧
      (store.validateChain plainCrates (fun _ => 500) [signedLeaf, signedRoot]).valid = true ∧
      ∃ root, AcceptedAfter plainCrates unrevokedHistory 500 [signedLeaf, signedRoot] root := by
  obtain ⟨store, answers, hrun, hroots, hpins, hrevoked⟩ : ∃ store answers,
      storeMachine.run (.new 30) unrevokedHistory = .ok (store, answers) ∧
      store.trustedRoots.Holds [(signedRoot.fingerprint, signedRoot)] ∧
      store.pinnedFingerprints.Holds [("a.test", {signedLeaf.fingerprint})] ∧
      store.revokedSerials = ∅ :=
    ⟨_, _, rfl, EntryMap.holds_new.insert _ _, EntryMap.holds_new.insert _ _, by decide⟩
  have hvalid : (store.validateChain plainCrates (fun _ => 500) [signedLeaf, signedRoot]).valid
      = true := by
    refine signedChain_valid (by simp [hrevoked]) ⟨?_, fun cert hcert pins hget => ?_⟩
    · exact Option.ne_none_iff_exists'.mpr
        ⟨signedRoot, hroots.get_eq_some.mpr List.mem_cons_self⟩
    · obtain ⟨hsubject, rfl⟩ := Prod.mk.inj (List.mem_singleton.mp (hpins.get_eq_some.mp hget))
      obtain rfl | rfl := List.mem_pair.mp hcert
      · exact Finset.mem_singleton_self _
      · exact absurd hsubject (by decide)
  exact ⟨store, answers, hrun, hvalid,
    (valid_iff_of_run plainCrates hrun (fun _ => 500) [signedLeaf, signedRoot]).mp hvalid⟩

end PqcGateway
