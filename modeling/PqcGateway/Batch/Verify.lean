import PqcGateway.Crypto.Primitives
import PqcGateway.Machinery.EntryMap
import PqcGateway.Machinery.ForkJoin

/-!
# Batch/Verify — many signatures, one after the other or in parallel

`batchVerify` counts the signatures that verify and lists the places of those that do not.
`batchVerifyParallel` cuts the entries into chunks, one for each worker; the workers share two
counters and a list under a lock, so their updates come in any order.  Where it starts, every
schedule comes to the sequential answer.  It does not start on an empty list; nor, in a build with
overflow checks, where the number of entries and of threads together do not fit in a word.

* `exactReport_batchVerify` — what the sequential verification reports.
* `sameReport_of_perm` — updates in any order come to the sequential report.
* `parallel_matches_iff` — when the parallel verification starts, and that it then agrees.
-/

namespace PqcGateway

/-- A single entry for batch verification. -/
structure SignatureEntry where
  message : List UInt8
  signature : List UInt8
  publicKey : List UInt8
deriving DecidableEq, Repr

/-- Result of batch verification. -/
structure BatchVerificationResult where
  total : ℕ
  verified : ℕ
  failed : ℕ
  failedIndices : List ℕ
  durationMs : ℕ
deriving DecidableEq, Repr

section

variable (D : MlDsa)

/-- `ml_dsa_verify` answers `Ok(true)`. -/
def SignatureEntry.verifies (entry : SignatureEntry) : Bool :=
  match mlDsaVerify D entry.publicKey entry.message entry.signature with
  | .ok true => true
  | _ => false

/-- The counters and the list, which stay within the number of entries. -/
structure Tally where
  verified : ℕ
  failed : ℕ
  failedIndices : List ℕ
deriving DecidableEq, Repr

def Tally.zero : Tally := ⟨0, 0, []⟩

/-- One more outcome. -/
def Tally.note (tally : Tally) (outcome : Bool × ℕ) : Tally :=
  if outcome.1 then { tally with verified := tally.verified + 1 }
  else
    { tally with
      failed := tally.failed + 1
      failedIndices := tally.failedIndices ++ [outcome.2] }

/-- The outcomes, tallied in order. -/
def Tally.ofOutcomes (outcomes : List Bool) : Tally := outcomes.zipIdx.foldl Tally.note .zero

/-- The tally as a result. -/
def Tally.report (tally : Tally) (total durationMs : ℕ) : BatchVerificationResult where
  total
  verified := tally.verified
  failed := tally.failed
  failedIndices := tally.failedIndices
  durationMs

/-! ## In sequence -/

/-- One turn of the loop of `batch_verify`. -/
def Tally.record (tally : Tally) (entry : SignatureEntry × ℕ) : Tally :=
  if entry.1.verifies D then { tally with verified := tally.verified + 1 }
  else
    { tally with
      failed := tally.failed + 1
      failedIndices := tally.failedIndices ++ [entry.2] }

/-- Verify a batch of ML-DSA-65 signatures sequentially.  `durationMs` is what the clock
measures. -/
def batchVerify (entries : List SignatureEntry) (durationMs : ℕ) : BatchVerificationResult :=
  let tally := entries.zipIdx.foldl (Tally.record D) .zero
  { total := entries.length
    verified := tally.verified
    failed := tally.failed
    failedIndices := tally.failedIndices
    durationMs }

/-! ## In parallel -/

/-- An atomic update of the shared counters and list. -/
inductive TallyUpdate
  | countVerified
  | countFailed
  | pushFailed (index : ℕ)
deriving DecidableEq, Repr

/-- `fetch_add` on a counter, or `push` under the lock. -/
def Tally.update (tally : Tally) : TallyUpdate → Tally
  | .countVerified => { tally with verified := tally.verified + 1 }
  | .countFailed => { tally with failed := tally.failed + 1 }
  | .pushFailed index => { tally with failedIndices := tally.failedIndices ++ [index] }

/-- What a worker does for the entry at this place. -/
def entryUpdates (entry : SignatureEntry) (index : ℕ) : List TallyUpdate :=
  if entry.verifies D then [.countVerified] else [.countFailed, .pushFailed index]

/-- A worker: the entries of its chunk in order, numbered from `baseIdx` on. -/
def workerUpdates (baseIdx : ℕ) (chunk : List SignatureEntry) : List TallyUpdate :=
  chunk.zipIdx.flatMap fun e => entryUpdates D e.1 (baseIdx + e.2)

/-- One worker for each chunk. -/
def workerPool (entries : List SignatureEntry) (chunkSize : ℕ) : Pool Tally TallyUpdate where
  shared := .zero
  workers := (chunks chunkSize entries).zipIdx.map fun chunk =>
    workerUpdates D (chunk.2 * chunkSize) chunk.1

/-- `batch_verify_parallel` up to where the workers run, in a build with overflow checks. -/
def spawnWorkers (entries : List SignatureEntry) (numThreads : ℕ) :
    Checked (Pool Tally TallyUpdate) := do
  let effectiveThreads := max numThreads 1
  let sum ← Checked.checkedAdd 64 entries.length effectiveThreads
  let sum ← Checked.checkedSub sum 1
  let chunkSize := sum / effectiveThreads
  Checked.assert (chunkSize ≠ 0) "chunk size must be non-zero"
  pure (workerPool D entries chunkSize)

/-- `batch_verify_parallel` after the workers have joined. -/
def collectResult (entries : List SignatureEntry) (durationMs : ℕ) (tally : Tally) :
    BatchVerificationResult where
  total := entries.length
  verified := tally.verified
  failed := tally.failed
  failedIndices := tally.failedIndices.mergeSort
  durationMs

end

/-! ## Tallies of outcomes -/

namespace Tally

theorem foldl_note (l : List (Bool × ℕ)) (tally : Tally) :
    l.foldl Tally.note tally =
      { verified := tally.verified + l.countP (·.1)
        failed := tally.failed + l.countP (!·.1)
        failedIndices := tally.failedIndices ++ (l.filter (!·.1)).map Prod.snd } := by
  induction l generalizing tally with
  | nil => simp
  | cons o l ih =>
    rw [List.foldl_cons, ih, Tally.note]
    by_cases ho : o.1 = true
    · simp [ho, Nat.add_assoc, Nat.add_comm 1]
    · simp [ho, Nat.add_assoc, Nat.add_comm 1]

/-- The tally adds up, and lists exactly the places of the failures, in increasing order. -/
structure Exact (outcomes : List Bool) (tally : Tally) : Prop where
  adds_up : tally.verified + tally.failed = outcomes.length
  increasing : tally.failedIndices.Pairwise (· < ·)
  failed_iff : ∀ index, index ∈ tally.failedIndices ↔ outcomes[index]? = some false

/-- **Outcomes are tallied exactly.** -/
theorem exact_ofOutcomes (outcomes : List Bool) : Exact outcomes (ofOutcomes outcomes) := by
  rw [ofOutcomes, foldl_note]
  refine ⟨?_, ?_, fun index => ?_⟩
  · have hsplit := List.length_eq_countP_add_countP (fun o : Bool × ℕ => o.1) (l := outcomes.zipIdx)
    simp only [List.length_zipIdx, Bool.not_eq_true, Bool.decide_eq_false] at hsplit
    simp only [Tally.zero, Nat.zero_add]
    exact hsplit.symm
  · have hplaces : (outcomes.zipIdx.map Prod.snd).Pairwise (· < ·) := by
      rw [List.zipIdx_map_snd]
      exact List.pairwise_lt_range'
    exact hplaces.sublist (List.filter_sublist.map Prod.snd)
  · simp [Tally.zero, List.mk_mem_zipIdx_iff_getElem?]

end Tally

/-! ## What the updates come to

Counting and pushing commute, but for the order of the list. -/

section

variable {D : MlDsa} {entries : List SignatureEntry} {numThreads : ℕ}

/-- The place an update pushes. -/
def TallyUpdate.pushed : TallyUpdate → Option ℕ
  | .pushFailed index => some index
  | _ => none

theorem foldl_update (trace : List TallyUpdate) (tally : Tally) :
    trace.foldl Tally.update tally =
      { verified := tally.verified + trace.count .countVerified
        failed := tally.failed + trace.count .countFailed
        failedIndices := tally.failedIndices ++ trace.filterMap TallyUpdate.pushed } := by
  induction trace generalizing tally with
  | nil => simp
  | cons op trace ih =>
    rw [List.foldl_cons, ih]
    cases op with
    | countVerified =>
      simp [Tally.update, TallyUpdate.pushed, List.filterMap_cons, Nat.add_assoc, Nat.add_comm 1]
    | countFailed =>
      simp [Tally.update, TallyUpdate.pushed, List.filterMap_cons, Nat.add_assoc, Nat.add_comm 1]
    | pushFailed index => simp [Tally.update, TallyUpdate.pushed]

/-- The updates of all entries, in order. -/
def allUpdates (D : MlDsa) (entries : List SignatureEntry) : List TallyUpdate :=
  entries.zipIdx.flatMap fun e => entryUpdates D e.1 e.2

/-- A turn of the sequential loop makes the updates of its entry. -/
theorem record_eq_foldl (tally : Tally) (e : SignatureEntry × ℕ) :
    tally.record D e = (entryUpdates D e.1 e.2).foldl Tally.update tally := by
  unfold Tally.record entryUpdates
  split <;> rfl

/-- The sequential loop makes all the updates, in order. -/
theorem foldl_record_eq (tally : Tally) :
    entries.zipIdx.foldl (Tally.record D) tally
      = (allUpdates D entries).foldl Tally.update tally := by
  rw [allUpdates, List.foldl_flatMap]
  exact congrArg (fun turn => entries.zipIdx.foldl turn tally) (funext₂ record_eq_foldl)

/-! ## The sequential report -/

/-- The report lists, in increasing order, exactly the places whose signature does not verify, and
its numbers add up. -/
structure ExactReport (D : MlDsa) (entries : List SignatureEntry)
    (report : BatchVerificationResult) : Prop where
  total : report.total = entries.length
  adds_up : report.verified + report.failed = report.total
  increasing : report.failedIndices.Pairwise (· < ·)
  failed_iff : ∀ index, index ∈ report.failedIndices ↔
    ∃ entry, entries[index]? = some entry ∧ entry.verifies D = false

/-- The sequential loop tallies what each entry's verification comes to. -/
theorem foldl_record (tally : Tally) :
    entries.zipIdx.foldl (Tally.record D) tally
      = (entries.map (SignatureEntry.verifies D)).zipIdx.foldl Tally.note tally := by
  rw [List.zipIdx_map, List.foldl_map]
  rfl

theorem batchVerify_eq (durationMs : ℕ) :
    batchVerify D entries durationMs
      = (Tally.ofOutcomes (entries.map (SignatureEntry.verifies D))).report entries.length
          durationMs := by
  rw [batchVerify, foldl_record]
  rfl

theorem increasing_batchVerify {durationMs : ℕ} :
    (batchVerify D entries durationMs).failedIndices.Pairwise (· < ·) := by
  rw [batchVerify_eq]
  exact (Tally.exact_ofOutcomes _).increasing

/-- **The sequential report is exact.** -/
theorem exactReport_batchVerify (durationMs : ℕ) :
    ExactReport D entries (batchVerify D entries durationMs) := by
  have h := Tally.exact_ofOutcomes (entries.map (SignatureEntry.verifies D))
  rw [batchVerify_eq]
  refine ⟨rfl, h.adds_up.trans (List.length_map _), h.increasing, fun index => ?_⟩
  rw [Tally.report, h.failed_iff, List.getElem?_map, Option.map_eq_some_iff]

/-! ## The parallel report

Places are sorted when the workers have joined. -/

/-- The two reports agree, but for the time they took. -/
structure SameReport (a b : BatchVerificationResult) : Prop where
  total : a.total = b.total
  verified : a.verified = b.verified
  failed : a.failed = b.failed
  failedIndices : a.failedIndices = b.failedIndices

/-- The workers are spawned without a panic, every schedule of them comes to an end, and what they
leave at the join is the sequential report. -/
def ParallelMatches (D : MlDsa) (entries : List SignatureEntry) (numThreads : ℕ) : Prop :=
  ∃ pool, spawnWorkers D entries numThreads = .ok pool ∧
    Acc (fun q p => Pool.Step Tally.update p q) pool ∧
    ∀ q, Pool.Reaches Tally.update pool q →
      (q.Joined ∨ ∃ q', Pool.Step Tally.update q q') ∧
      (q.Joined → ∀ durationMs durationMs',
        SameReport (collectResult entries durationMs q.shared) (batchVerify D entries durationMs'))

/-- A chunk has room for an entry, if there is one. -/
theorem chunkSize_pos (hne : entries ≠ []) :
    0 < (entries.length + max numThreads 1 - 1) / max numThreads 1 := by
  have hlength := List.length_pos_iff_ne_nil.mpr hne
  exact Nat.div_pos (by omega) (by omega)

/-- **The workers are spawned** unless there is nothing to do or the chunk size overflows. -/
theorem spawnWorkers_eq_ok {pool : Pool Tally TallyUpdate} :
    spawnWorkers D entries numThreads = .ok pool ↔
      (entries ≠ [] ∧ entries.length + max numThreads 1 < 2 ^ 64) ∧
        pool = workerPool D entries
          ((entries.length + max numThreads 1 - 1) / max numThreads 1) := by
  have hchunk : (entries.length + max numThreads 1 - 1) / max numThreads 1 ≠ 0 ↔ entries ≠ [] := by
    refine ⟨?_, fun hne => (chunkSize_pos hne).ne'⟩
    rintro h rfl
    refine h (Nat.div_eq_of_lt ?_)
    rw [List.length_nil]
    omega
  constructor
  · intro h
    obtain ⟨sum, hadd, h⟩ := Checked.bind_eq_ok.mp h
    obtain ⟨hfits, rfl⟩ := Checked.checkedAdd_eq_ok.mp hadd
    rw [Checked.checkedSub_of_le (by omega), Checked.ok_bind] at h
    obtain ⟨_, hassert, hpool⟩ := Checked.bind_eq_ok.mp h
    exact ⟨⟨hchunk.mp (Checked.assert_eq_ok.mp hassert), hfits⟩, (Except.ok.inj hpool).symm⟩
  · rintro ⟨⟨hne, hfits⟩, rfl⟩
    rw [spawnWorkers, Checked.checkedAdd_of_lt hfits, Checked.ok_bind,
      Checked.checkedSub_of_le (by omega), Checked.ok_bind]
    exact Checked.bind_eq_ok.mpr ⟨(), Checked.assert_of (hchunk.mpr hne) _, rfl⟩

/-- The workers together have all the updates to make. -/
theorem left_workerPool {chunkSize : ℕ} (h : 0 < chunkSize) :
    (workerPool D entries chunkSize).left = allUpdates D entries := by
  rw [allUpdates, ← flatMap_chunks h entries (entryUpdates D)]
  rfl

/-- **Updates in any order** come to the sequential report. -/
theorem sameReport_of_perm {trace : List TallyUpdate} (h : trace.Perm (allUpdates D entries))
    (durationMs durationMs' : ℕ) :
    SameReport (collectResult entries durationMs (trace.foldl Tally.update .zero))
      (batchVerify D entries durationMs') := by
  have hpushed : (batchVerify D entries durationMs').failedIndices
      = (allUpdates D entries).filterMap TallyUpdate.pushed := by
    rw [batchVerify, foldl_record_eq, foldl_update]
    rfl
  have hincreasing := hpushed ▸ increasing_batchVerify (D := D)
  rw [batchVerify, foldl_record_eq, foldl_update, foldl_update, collectResult]
  exact {
    total := rfl
    verified := congrArg (0 + ·) (h.count_eq _)
    failed := congrArg (0 + ·) (h.count_eq _)
    failedIndices := List.mergeSort_eq_of_perm hincreasing (h.filterMap _) }

/-- **Parallel verification equals sequential**, in a build with overflow checks, exactly when there
is something to verify and the numbers of entries and threads fit in a word together. -/
theorem parallel_matches_iff (D : MlDsa) (entries : List SignatureEntry) (numThreads : ℕ) :
    (ParallelMatches D entries numThreads ∧
        ∀ durationMs, ExactReport D entries (batchVerify D entries durationMs)) ↔
      entries ≠ [] ∧ entries.length + max numThreads 1 < 2 ^ 64 := by
  constructor
  · rintro ⟨⟨pool, hspawn, -⟩, -⟩
    exact (spawnWorkers_eq_ok.mp hspawn).1
  · intro h
    refine ⟨⟨_, spawnWorkers_eq_ok.mpr ⟨h, rfl⟩, Pool.acc_step _, fun q hq => ⟨?_, ?_⟩⟩,
      exactReport_batchVerify⟩
    · exact or_iff_not_imp_left.mpr Pool.exists_step
    · intro hjoined
      obtain ⟨trace, hperm, hshared⟩ := Pool.exists_trace_of_joined hq hjoined
      rw [left_workerPool (chunkSize_pos h.1)] at hperm
      rw [hshared]
      exact sameReport_of_perm hperm

/-- **An empty batch panics in parallel**, where the sequential verification reports nothing. -/
theorem empty_batch_panics :
    spawnWorkers plainDsa [] 4 = Checked.panicWith "chunk size must be non-zero" ∧
      batchVerify plainDsa [] 0 = ⟨0, 0, 0, [], 0⟩ ∧ ¬ ParallelMatches plainDsa [] 4 := by
  have hpanic : spawnWorkers plainDsa [] 4 = Checked.panicWith "chunk size must be non-zero" := rfl
  refine ⟨hpanic, rfl, ?_⟩
  rintro ⟨pool, hspawn, -⟩
  rw [hpanic] at hspawn
  cases hspawn

end

end PqcGateway
