import Mathlib.Data.List.Perm.Basic
import Mathlib.Data.List.Flatten
import Mathlib.Logic.Relation
import Mathlib.Order.WellFounded
import Mathlib.Tactic.Common

/-!
# Machinery/ForkJoin — workers that update a shared state, and are joined

Each worker of a `Pool` has a list of atomic updates to make.  A schedule picks, at every step, a
worker that has one left; that all workers are there from the start allows every order in which they
could be spawned.

* `acc_step`, `exists_step` — no schedule goes on for ever, and none is stuck before the join.
* `exists_trace_of_joined` — what a schedule leaves behind is the updates in some order.
* `flatMap_chunks` — work cut into chunks is the work.
-/

/-- A shared state, and the updates each worker has left to make. -/
structure Pool (σ ο : Type) where
  shared : σ
  workers : List (List ο)

namespace Pool

variable {σ ο : Type} (update : σ → ο → σ)

/-- Some worker makes its next update. -/
inductive Step : Pool σ ο → Pool σ ο → Prop
  | work (s : σ) (before after : List (List ο)) (op : ο) (ops : List ο) :
    Step ⟨s, before ++ (op :: ops) :: after⟩ ⟨update s op, before ++ ops :: after⟩

/-- A schedule leads from one pool to the other. -/
def Reaches : Pool σ ο → Pool σ ο → Prop := Relation.ReflTransGen (Step update)

/-- Every worker has made all its updates. -/
def Joined (p : Pool σ ο) : Prop := ∀ ops ∈ p.workers, ops = []

/-- The updates left to make. -/
def left (p : Pool σ ο) : List ο := p.workers.flatten

variable {update} {p q : Pool σ ο}

theorem joined_iff : p.Joined ↔ p.left = [] := List.flatten_eq_nil_iff.symm

/-- **A step makes one of the updates left.** -/
theorem Step.exists_op (h : Step update p q) :
    ∃ op, p.left.Perm (op :: q.left) ∧ q.shared = update p.shared op := by
  obtain ⟨s, before, after, op, ops⟩ := h
  refine ⟨op, ?_, rfl⟩
  simp only [left, List.flatten_append, List.flatten_cons, List.cons_append]
  exact List.perm_middle

/-- **Every schedule ends**: there is no infinite one. -/
theorem acc_step (p : Pool σ ο) : Acc (fun q p => Step update p q) p := by
  induction hn : p.left.length generalizing p with
  | zero =>
    refine ⟨p, fun q hq => ?_⟩
    obtain ⟨op, hperm, -⟩ := hq.exists_op
    have := hperm.length_eq
    simp [hn] at this
  | succ n ih =>
    refine ⟨p, fun q hq => ih q ?_⟩
    obtain ⟨op, hperm, -⟩ := hq.exists_op
    have := hperm.length_eq
    rw [hn, List.length_cons] at this
    omega

/-- **No schedule is stuck** before every worker is done. -/
theorem exists_step (h : ¬ p.Joined) : ∃ q, Step update p q := by
  obtain ⟨s, workers⟩ := p
  simp only [Joined, not_forall] at h
  obtain ⟨worker, hmem, hne⟩ := h
  obtain ⟨before, after, rfl⟩ := List.append_of_mem hmem
  obtain ⟨op, ops, rfl⟩ := List.exists_cons_of_ne_nil hne
  exact ⟨_, .work s before after op ops⟩

/-- What a schedule has done so far, and what it has left, is what there was to do. -/
theorem exists_trace (h : Reaches update p q) :
    ∃ trace : List ο, (trace ++ q.left).Perm p.left ∧ q.shared = trace.foldl update p.shared := by
  induction h with
  | refl => exact ⟨[], .refl _, rfl⟩
  | tail _ hstep ih =>
    obtain ⟨trace, hperm, hshared⟩ := ih
    obtain ⟨op, hop, hupdate⟩ := hstep.exists_op
    refine ⟨trace ++ [op], ?_, ?_⟩
    · rw [List.append_assoc, List.singleton_append]
      exact (hop.symm.append_left trace).trans hperm
    · rw [hupdate, hshared, List.foldl_append, List.foldl_cons, List.foldl_nil]

/-- **At the join all updates are made, in some order.** -/
theorem exists_trace_of_joined (h : Reaches update p q) (hjoined : q.Joined) :
    ∃ trace : List ο, trace.Perm p.left ∧ q.shared = trace.foldl update p.shared := by
  obtain ⟨trace, hperm, hshared⟩ := exists_trace h
  rw [joined_iff.mp hjoined, List.append_nil] at hperm
  exact ⟨trace, hperm, hshared⟩

end Pool

/-! ## Chunks

Consecutive pieces of a list, all of the same length but the last. -/

section

variable {α β : Type}

/-- `slice.chunks(n)`, for `0 < n`: `n` elements at a time, the last chunk being what is left. -/
def chunks (n : ℕ) (l : List α) : List (List α) :=
  (List.range ((l.length + n - 1) / n)).map fun k => (l.drop (k * n)).take n

theorem zipIdx_map_range (g : ℕ → β) (m : ℕ) :
    ((List.range m).map g).zipIdx = (List.range m).map fun k => (g k, k) := by
  induction m with
  | zero => rfl
  | succ m ih =>
    rw [List.range_succ, List.map_append, List.zipIdx_append, ih, List.map_append, List.length_map,
      List.length_range, Nat.zero_add]
    rfl

/-- The first `m` chunks, element by element. -/
theorem flatMap_range_chunk (n m : ℕ) (l : List α) (f : α → ℕ → List β) :
    (List.range m).flatMap (fun k => ((l.drop (k * n)).take n).zipIdx.flatMap fun e =>
      f e.1 (k * n + e.2)) = (l.take (m * n)).zipIdx.flatMap fun e => f e.1 e.2 := by
  induction m with
  | zero => simp
  | succ m ih =>
    rw [List.range_succ, List.flatMap_append, ih, List.flatMap_singleton, Nat.succ_mul,
      List.take_add, List.zipIdx_append, List.flatMap_append, Nat.zero_add, List.length_take]
    congr 1
    -- past the end of the list the last chunk is empty
    rcases Nat.le_total (m * n) l.length with hm | hm
    · rw [Nat.min_eq_left hm, List.zipIdx_eq_map_add (i := m * n), List.flatMap_map]
    · rw [List.drop_eq_nil_of_le hm, List.take_nil]
      rfl

/-- **Work cut into chunks**, each element numbered from where its chunk starts, is the work. -/
theorem flatMap_chunks {n : ℕ} (hn : 0 < n) (l : List α) (f : α → ℕ → List β) :
    (chunks n l).zipIdx.flatMap (fun chunk => chunk.1.zipIdx.flatMap fun e =>
      f e.1 (chunk.2 * n + e.2)) = l.zipIdx.flatMap fun e => f e.1 e.2 := by
  have hall : l.length ≤ (l.length + n - 1) / n * n := by
    have hmod := Nat.div_add_mod' (l.length + n - 1) n
    have hlt := Nat.mod_lt (l.length + n - 1) hn
    omega
  rw [chunks, zipIdx_map_range, List.flatMap_map, flatMap_range_chunk, List.take_of_length_le hall]

end
