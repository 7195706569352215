import PqcGateway.Batch.Timestamp
import PqcGateway.Batch.Verify
import PqcGateway.Machinery.Build
import PqcGateway.Machinery.Intern
import Mathlib.Algebra.Order.BigOperators.Group.List
import Mathlib.Data.List.Perm.Subperm

/-!
# Batch/Aggregate — signatures stored with their keys shared

A `SignatureAggregator` keeps a signature and the hash of its message for each call of `add`, and
its public key once: the entry has the key's place in a table (`Machinery/Intern`).  Nothing is lost
by that (`Aggregates`): verifying the aggregate against the messages is verifying the signatures
that were added (`aggregation_lossless`).
-/

namespace PqcGateway

structure AggregateEntry where
  messageHash : String
  signature : List UInt8
deriving DecidableEq, Repr

/-- An aggregated collection of signatures for compact storage/transmission. -/
structure AggregatedSignatures where
  entries : List AggregateEntry
  publicKeys : List (List UInt8)
  keyIndices : List ℕ
  uncompressedSize : UInt64
  compressedSize : UInt64
deriving DecidableEq, Repr

/-- Builder for aggregating signatures. -/
structure SignatureAggregator where
  entries : List AggregateEntry
  publicKeys : List (List UInt8)
  keyIndices : List ℕ
  totalSigSize : UInt64
deriving DecidableEq, Repr

section

variable (build : Build) (D : MlDsa) (H : Sha256)

namespace SignatureAggregator

def new : SignatureAggregator where
  entries := []
  publicKeys := []
  keyIndices := []
  totalSigSize := 0

/-- Add a signature to the aggregation. -/
def add (publicKey message signature : List UInt8) (agg : SignatureAggregator) :
    Checked SignatureAggregator := do
  -- Deduplicate public keys
  let (publicKeys, keyIdx) := intern publicKey agg.publicKeys
  let messageHash := messageDigest H message
  let size ← build.add (.ofNat signature.length) (.ofNat publicKey.length)
  let totalSigSize ← build.add agg.totalSigSize size
  pure
    { entries := agg.entries ++ [⟨messageHash, signature⟩]
      publicKeys
      keyIndices := agg.keyIndices ++ [keyIdx]
      totalSigSize }

/-- Finalize the aggregation. -/
def finalize (agg : SignatureAggregator) : Checked AggregatedSignatures := do
  let keySize ← build.sum (agg.publicKeys.map fun k => .ofNat k.length)
  let sigSize ← build.sum (agg.entries.map fun e => .ofNat e.signature.length)
  let size ← build.add keySize sigSize
  let indexSize ← build.mul (.ofNat agg.keyIndices.length) 2
  let compressedSize ← build.add size indexSize
  pure
    { entries := agg.entries
      publicKeys := agg.publicKeys
      keyIndices := agg.keyIndices
      uncompressedSize := agg.totalSigSize
      compressedSize }

/-- A sequence of calls of `add`. -/
def addAll (calls : List SignatureEntry) (agg : SignatureAggregator) :
    Checked SignatureAggregator :=
  calls.foldlM (fun agg call => agg.add build H call.publicKey call.message call.signature) agg

/-- The aggregate of the calls: added one after the other, and finalized. -/
def aggregate (calls : List SignatureEntry) : Checked AggregatedSignatures := do
  let agg ← new.addAll build H calls
  agg.finalize build

end SignatureAggregator

namespace AggregatedSignatures

/-- One turn of the loop of `verify_all`. -/
def verifyStep (agg : AggregatedSignatures) (tally : Tally)
    (item : (AggregateEntry × List UInt8) × ℕ) : Checked Tally := do
  let ((entry, msg), i) := item
  let keyIdx ← Checked.index agg.keyIndices i
  let publicKey ← Checked.index agg.publicKeys keyIdx
  -- Verify message hash
  if messageDigest H msg ≠ entry.messageHash then
    pure { tally with failed := tally.failed + 1, failedIndices := tally.failedIndices ++ [i] }
  else pure (tally.record D (⟨msg, entry.signature, publicKey⟩, i))

/-- Verify all signatures in the aggregate.  `durationMs` is what the clock measures. -/
def verifyAll (agg : AggregatedSignatures) (messages : List (List UInt8)) (durationMs : ℕ) :
    Checked BatchVerificationResult := do
  Checked.assert (messages.length = agg.entries.length) "Message count must match entry count"
  let tally ← (agg.entries.zip messages).zipIdx.foldlM (agg.verifyStep D H) .zero
  pure (tally.report agg.entries.length durationMs)

end AggregatedSignatures

end

/-! ## The tables

Whatever `add` was called with, the tables are those of its calls. -/

/-- What is stored of a call. -/
def aggregateEntry (H : Sha256) (call : SignatureEntry) : AggregateEntry :=
  ⟨messageDigest H call.message, call.signature⟩

/-- The entries, keys and indices are those of the calls: an entry for each, their keys without
repetition, and an index for each that selects its key. -/
structure Aggregates (H : Sha256) (calls : List SignatureEntry) (entries : List AggregateEntry)
    (publicKeys : List (List UInt8)) (keyIndices : List ℕ) : Prop where
  entries_eq : entries = calls.map (aggregateEntry H)
  keys_nodup : publicKeys.Nodup
  keys_subset : publicKeys ⊆ calls.map (·.publicKey)
  keys_eq : keyIndices.map (publicKeys[·]?) = calls.map fun call => some call.publicKey

section

variable {build : Build} {D : MlDsa} {H : Sha256} {calls done : List SignatureEntry}
  {agg agg' : SignatureAggregator} {entries : List AggregateEntry}
  {publicKeys : List (List UInt8)} {keyIndices : List ℕ}

/-- Each call's index is in range and selects its key. -/
theorem Aggregates.selects (h : Aggregates H calls entries publicKeys keyIndices) {i : ℕ}
    {call : SignatureEntry} (hcall : calls[i]? = some call) :
    ∃ idx, keyIndices[i]? = some idx ∧ publicKeys[idx]? = some call.publicKey := by
  have hkey := congrArg (·[i]?) h.keys_eq
  simp only [List.getElem?_map, hcall, Option.map_some] at hkey
  exact Option.map_eq_some_iff.mp hkey

theorem Aggregates.length_keyIndices (h : Aggregates H calls entries publicKeys keyIndices) :
    keyIndices.length = calls.length := by
  simpa using congrArg List.length h.keys_eq

/-- The entry that a call adds. -/
theorem aggregates_step (h : Aggregates H done entries publicKeys keyIndices)
    (call : SignatureEntry) :
    Aggregates H (done ++ [call])
      (entries ++ [aggregateEntry H call])
      (intern call.publicKey publicKeys).1
      (keyIndices ++ [(intern call.publicKey publicKeys).2]) := by
  refine ⟨?_, intern_nodup _ h.keys_nodup, fun key hkey => ?_, ?_⟩
  · rw [h.entries_eq, List.map_append, List.map_singleton]
  · rw [List.map_append, List.map_singleton, List.mem_append, List.mem_singleton]
    exact (mem_intern hkey).imp_left (h.keys_subset ·)
  · -- the indices given before keep their keys
    have hkept : keyIndices.map ((intern call.publicKey publicKeys).1[·]?)
        = keyIndices.map (publicKeys[·]?) := by
      refine List.map_congr_left fun idx hidx => ?_
      have hsome : publicKeys[idx]? ∈ done.map fun call => some call.publicKey :=
        h.keys_eq ▸ List.mem_map_of_mem hidx
      obtain ⟨call', -, hkey⟩ := List.mem_map.mp hsome
      rw [← hkey]
      exact getElem?_intern_of_some _ hkey.symm
    rw [List.map_append, List.map_append, hkept, h.keys_eq, List.map_singleton, List.map_singleton,
      getElem?_intern]

/-- **A call adds its entry**, whatever the sizes come to. -/
theorem aggregates_add {call : SignatureEntry}
    (h : Aggregates H done agg.entries agg.publicKeys agg.keyIndices)
    (hadd : agg.add build H call.publicKey call.message call.signature = .ok agg') :
    Aggregates H (done ++ [call]) agg'.entries agg'.publicKeys agg'.keyIndices := by
  obtain ⟨size, -, hadd⟩ := Checked.bind_eq_ok.mp hadd
  obtain ⟨totalSigSize, -, hadd⟩ := Checked.bind_eq_ok.mp hadd
  obtain rfl := Except.ok.inj hadd
  exact aggregates_step h call

/-- **All calls add their entries.** -/
theorem aggregates_addAll (h : Aggregates H done agg.entries agg.publicKeys agg.keyIndices)
    (hrun : agg.addAll build H calls = .ok agg') :
    Aggregates H (done ++ calls) agg'.entries agg'.publicKeys agg'.keyIndices := by
  induction calls generalizing done agg with
  | nil =>
    obtain rfl := Except.ok.inj hrun
    rwa [List.append_nil]
  | cons call calls ih =>
    rw [SignatureAggregator.addAll, List.foldlM_cons] at hrun
    obtain ⟨next, hadd, hrun⟩ := Checked.bind_eq_ok.mp hrun
    rw [List.append_cons]
    exact ih (aggregates_add h hadd) hrun

theorem aggregates_new : Aggregates H [] SignatureAggregator.new.entries
    SignatureAggregator.new.publicKeys SignatureAggregator.new.keyIndices :=
  ⟨rfl, List.nodup_nil, List.nil_subset _, rfl⟩

theorem aggregates_aggregate {aggregated : AggregatedSignatures}
    (h : SignatureAggregator.aggregate build H calls = .ok aggregated) :
    Aggregates H calls aggregated.entries aggregated.publicKeys aggregated.keyIndices := by
  obtain ⟨agg, hadd, hfinal⟩ := Checked.bind_eq_ok.mp h
  have hall := aggregates_addAll aggregates_new hadd
  obtain ⟨keySize, -, hfinal⟩ := Checked.bind_eq_ok.mp hfinal
  obtain ⟨sigSize, -, hfinal⟩ := Checked.bind_eq_ok.mp hfinal
  obtain ⟨size, -, hfinal⟩ := Checked.bind_eq_ok.mp hfinal
  obtain ⟨indexSize, -, hfinal⟩ := Checked.bind_eq_ok.mp hfinal
  obtain ⟨compressedSize, -, hfinal⟩ := Checked.bind_eq_ok.mp hfinal
  obtain rfl := Except.ok.inj hfinal
  exact hall

/-! ## The sizes

Sums of sizes matter only in a build with overflow checks. -/

/-- What the calls pass, with two bytes for each index. -/
def callBytes (calls : List SignatureEntry) : ℕ :=
  (calls.map fun c => c.signature.length + c.publicKey.length + 2).sum

theorem add_returns (call : SignatureEntry) {t : ℕ} (htotal : agg.totalSigSize = .ofNat t)
    (hfits : build.Fits (t + (call.signature.length + call.publicKey.length))) :
    ∃ agg', agg.add build H call.publicKey call.message call.signature = .ok agg' ∧
      agg'.totalSigSize = .ofNat (t + (call.signature.length + call.publicKey.length)) := by
  have hsize : build.Fits (call.signature.length + call.publicKey.length) :=
    hfits.mono (Nat.le_add_left _ _)
  rw [SignatureAggregator.add]
  generalize intern call.publicKey agg.publicKeys = interned
  simp only [Build.add_ofNat hsize, Checked.ok_bind, htotal, Build.add_ofNat hfits]
  exact ⟨_, rfl, rfl⟩

theorem addAll_returns (agg : SignatureAggregator) {t : ℕ} (htotal : agg.totalSigSize = .ofNat t)
    (hfits : build.Fits (t + callBytes calls)) :
    ∃ agg', agg.addAll build H calls = .ok agg' := by
  induction calls generalizing agg t with
  | nil => exact ⟨agg, rfl⟩
  | cons call calls ih =>
    rw [callBytes, List.map_cons, List.sum_cons] at hfits
    obtain ⟨next, hadd, hnext⟩ := add_returns call htotal (hfits.mono (by omega))
    rw [SignatureAggregator.addAll, List.foldlM_cons, hadd, Checked.ok_bind]
    exact ih next hnext (hfits.mono (by rw [callBytes]; omega))

/-- Each key is stored once, and passed at least once. -/
theorem Aggregates.sum_keys_le (h : Aggregates H calls entries publicKeys keyIndices) :
    (publicKeys.map List.length).sum ≤ (calls.map fun c => c.publicKey.length).sum := by
  obtain ⟨used, hperm, hsub⟩ := h.keys_nodup.subperm h.keys_subset
  have hle := (hsub.map List.length).sum_le_sum fun _ _ => Nat.zero_le _
  rw [List.map_map] at hle
  exact (hperm.map List.length).sum_eq ▸ hle

theorem finalize_returns (h : Aggregates H calls agg.entries agg.publicKeys agg.keyIndices)
    (hfits : build.Fits (callBytes calls)) : ∃ aggregated, agg.finalize build = .ok aggregated := by
  have hkeys := h.sum_keys_le
  have hsigs : (agg.entries.map fun e => e.signature.length).sum
      = (calls.map fun c => c.signature.length).sum := by
    rw [h.entries_eq, List.map_map]
    rfl
  have hbytes : callBytes calls = (calls.map fun c => c.signature.length).sum
      + (calls.map fun c => c.publicKey.length).sum + calls.length * 2 := by
    simp [callBytes, List.sum_map_add]
  have hindices := h.length_keyIndices
  have htwo : (2 : UInt64) = .ofNat 2 := rfl
  simp (disch := exact hfits.mono (by omega)) only [SignatureAggregator.finalize, Build.sum_ofNat,
    Build.add_ofNat, Build.mul_ofNat, Checked.ok_bind, htwo]
  exact ⟨_, rfl⟩

theorem aggregate_returns (hfits : build.Fits (callBytes calls)) :
    ∃ aggregated, SignatureAggregator.aggregate build H calls = .ok aggregated := by
  obtain ⟨agg, hadd⟩ := addAll_returns (H := H) SignatureAggregator.new (t := 0) rfl
    (hfits.mono (Nat.zero_add _).le)
  obtain ⟨aggregated, hfinal⟩ := finalize_returns (aggregates_addAll aggregates_new hadd) hfits
  exact ⟨aggregated, Checked.bind_eq_ok.mpr ⟨agg, hadd, hfinal⟩⟩

/-! ## Verification

An entry is verified under the key its index selects, which is the one its call passed. -/

/-- The message is the one of the call, to the hash, and the call's signature verifies for it. -/
def accepted (D : MlDsa) (H : Sha256) (item : SignatureEntry × List UInt8) : Bool :=
  messageDigest H item.2 == messageDigest H item.1.message &&
    SignatureEntry.verifies D ⟨item.2, item.1.signature, item.1.publicKey⟩

/-- A turn of the loop notes what its call comes to. -/
theorem verifyStep_eq {aggregated : AggregatedSignatures}
    (h : Aggregates H calls aggregated.entries aggregated.publicKeys aggregated.keyIndices)
    {call : SignatureEntry} {message : List UInt8} {i : ℕ} (hcall : calls[i]? = some call)
    (tally : Tally) :
    aggregated.verifyStep D H tally ((aggregateEntry H call, message), i)
      = .ok (tally.note (accepted D H (call, message), i)) := by
  obtain ⟨idx, hidx, hkey⟩ := h.selects hcall
  rw [AggregatedSignatures.verifyStep, Checked.index_of_getElem? hidx, Checked.ok_bind,
    Checked.index_of_getElem? hkey, Checked.ok_bind]
  by_cases hhash : messageDigest H message = messageDigest H call.message
  · simp [aggregateEntry, accepted, hhash, Tally.note, Tally.record, pure, Except.pure]
    rfl
  · simp [aggregateEntry, accepted, hhash, Tally.note, pure, Except.pure]

/-- **The aggregate is verified call by call.** -/
theorem verifyAll_eq {aggregated : AggregatedSignatures}
    (h : Aggregates H calls aggregated.entries aggregated.publicKeys aggregated.keyIndices)
    {messages : List (List UInt8)} (hlength : messages.length = calls.length) (durationMs : ℕ) :
    aggregated.verifyAll D H messages durationMs
      = .ok ((Tally.ofOutcomes ((calls.zip messages).map (accepted D H))).report calls.length
          durationMs) := by
  have hentries : aggregated.entries.length = calls.length := by
    rw [h.entries_eq, List.length_map]
  have hturn : ∀ item ∈ (calls.zip messages).zipIdx, ∀ tally : Tally,
      aggregated.verifyStep D H tally
        (Prod.map (Prod.map (aggregateEntry H) id) id item)
        = pure (tally.note (accepted D H item.1, item.2)) := by
    rintro ⟨⟨call, message⟩, i⟩ hitem
    have hcall := List.getElem?_zip_eq_some.mp (List.mk_mem_zipIdx_iff_getElem?.mp hitem)
    exact verifyStep_eq h hcall.1
  rw [AggregatedSignatures.verifyAll, Checked.assert_of (hlength.trans hentries.symm),
    Checked.ok_bind, hentries, h.entries_eq, List.zip_map_left, List.zipIdx_map, List.foldlM_map]
  rw [List.foldlM_eq_pure hturn, Tally.ofOutcomes, List.zipIdx_map, List.foldl_map]
  rfl

/-- What is stored stands for the calls: each key once, an index for each call that selects its
key, the sequential report on the messages of the calls, and on other messages a report of exactly
those whose hash differs or whose signature fails. -/
structure Lossless (D : MlDsa) (H : Sha256) (calls : List SignatureEntry)
    (aggregated : AggregatedSignatures) : Prop where
  keys_nodup : aggregated.publicKeys.Nodup
  one_index_each : aggregated.keyIndices.length = calls.length
  selects : ∀ (i : ℕ) call, calls[i]? = some call →
    ∃ idx, aggregated.keyIndices[i]? = some idx ∧
      aggregated.publicKeys[idx]? = some call.publicKey
  same_messages : ∀ durationMs durationMs', ∃ report,
    aggregated.verifyAll D H (calls.map (·.message)) durationMs = .ok report ∧
      SameReport report (batchVerify D calls durationMs')
  other_messages : ∀ messages durationMs, messages.length = calls.length → ∃ report,
    aggregated.verifyAll D H messages durationMs = .ok report ∧
      report.total = calls.length ∧ report.verified + report.failed = report.total ∧
      report.failedIndices.Pairwise (· < ·) ∧
      ∀ index, index ∈ report.failedIndices ↔ ∃ call message,
        calls[index]? = some call ∧ messages[index]? = some message ∧
          (messageDigest H message ≠ messageDigest H call.message ∨
            SignatureEntry.verifies D ⟨message, call.signature, call.publicKey⟩ = false)

theorem accepted_eq_false {call : SignatureEntry} {message : List UInt8} :
    accepted D H (call, message) = false ↔
      messageDigest H message ≠ messageDigest H call.message ∨
        SignatureEntry.verifies D ⟨message, call.signature, call.publicKey⟩ = false := by
  rw [accepted, Bool.and_eq_false_iff, beq_eq_false_iff_ne]

/-- On the messages of the calls, what is left to ask is whether the signatures verify. -/
theorem map_accepted_own : (calls.zip (calls.map (·.message))).map (accepted D H)
    = calls.map (SignatureEntry.verifies D) := by
  rw [← List.map_prod_left_eq_zip, List.map_map]
  refine List.map_congr_left fun call _ => ?_
  rw [Function.comp_apply, accepted, beq_self_eq_true, Bool.true_and]

theorem lossless_of_aggregates {aggregated : AggregatedSignatures}
    (h : Aggregates H calls aggregated.entries aggregated.publicKeys aggregated.keyIndices) :
    Lossless D H calls aggregated where
  keys_nodup := h.keys_nodup
  one_index_each := h.length_keyIndices
  selects _ _ := h.selects
  same_messages durationMs durationMs' := by
    refine ⟨_, verifyAll_eq h (List.length_map _) durationMs, ?_⟩
    rw [map_accepted_own, batchVerify_eq]
    exact ⟨rfl, rfl, rfl, rfl⟩
  other_messages messages durationMs hlength := by
    have hexact := Tally.exact_ofOutcomes ((calls.zip messages).map (accepted D H))
    refine ⟨_, verifyAll_eq h hlength durationMs, rfl, ?_, hexact.increasing, fun index => ?_⟩
    · refine hexact.adds_up.trans ?_
      rw [List.length_map, List.length_zip, hlength, min_self]
      rfl
    · refine (hexact.failed_iff index).trans ?_
      rw [List.getElem?_map, Option.map_eq_some_iff, Prod.exists]
      simp only [List.getElem?_zip_eq_some, accepted_eq_false, and_assoc]

/-- **Aggregation is lossless**, in every build: a release build aggregates any calls, a debug build
those whose sizes fit in a word, and what there is of an aggregate stands for its calls. -/
theorem aggregation_lossless (build : Build) (D : MlDsa) (H : Sha256)
    (calls : List SignatureEntry) :
    (build.Fits (callBytes calls) →
        ∃ aggregated, SignatureAggregator.aggregate build H calls = .ok aggregated) ∧
      ∀ aggregated, SignatureAggregator.aggregate build H calls = .ok aggregated →
        Lossless D H calls aggregated :=
  ⟨aggregate_returns, fun _ h => lossless_of_aggregates (aggregates_aggregate h)⟩

end

end PqcGateway
