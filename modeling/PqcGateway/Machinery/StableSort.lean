import Mathlib.Data.List.Sort
import Mathlib.Tactic.Common

/-!
# Machinery/StableSort — the first match in a sorted list

A stable sort keeps elements that compare equal in their order, so searching the sorted list for a
property is choosing, of the elements that have it, a least one, and the first of these in the list
as it was (`find?_mergeSort_eq_some`).

* `find?_mergeSort` — the first match is least, and first among the least.
* `find?_mergeSort_isSome` — there is one if any element matches.
-/

open List.MergeSort.Internal

namespace List

variable {α : Type} {le : α → α → Bool} {p : α → Bool} {l : List α} {a : α}

/-- Searching the sorted list is searching its elements sorted with their places. -/
theorem find?_mergeSort : (l.mergeSort le).find? p
    = ((l.zipIdx.mergeSort (zipIdxLE le)).find? fun e => p e.1).map Prod.fst := by
  rw [← mergeSort_zipIdx, find?_map]
  rfl

/-- **The match found is the first of the least.** -/
theorem find?_mergeSort_eq_some (htrans : ∀ a b c, le a b → le b c → le a c)
    (htotal : ∀ a b, le a b || le b a) (h : (l.mergeSort le).find? p = some a) :
    ∃ i : ℕ, l[i]? = some a ∧ p a = true ∧
      ∀ (j : ℕ) b, l[j]? = some b → p b = true → le a b = true ∧ (le b a = true → i ≤ j) := by
  rw [find?_mergeSort, Option.map_eq_some_iff] at h
  obtain ⟨⟨a, i⟩, hfind, rfl⟩ := h
  obtain ⟨hp, before, after, hsplit, hbefore⟩ := find?_eq_some_iff_append.mp hfind
  have hmem : ∀ (b : α) (j : ℕ), (b, j) ∈ before ++ (a, i) :: after ↔ l[j]? = some b :=
    fun b j => by rw [← hsplit, mem_mergeSort, mem_zipIdx_iff_getElem?]
  have hsorted := pairwise_mergeSort (zipIdxLE_trans htrans) (zipIdxLE_total htotal) l.zipIdx
  rw [hsplit] at hsorted
  have hafter := (pairwise_cons.mp (pairwise_append.mp hsorted).2.1).1
  refine ⟨i, (hmem a i).mp (mem_append_right _ mem_cons_self), hp, fun j b hb hpb => ?_⟩
  rcases mem_append.mp ((hmem b j).mpr hb) with hj | hj
  · have hnot := hbefore (b, j) hj
    rw [hpb] at hnot
    cases hnot
  rcases mem_cons.mp hj with hj | hj
  · obtain ⟨rfl, rfl⟩ := Prod.mk.inj hj
    exact ⟨by simpa using htotal b b, fun _ => le_rfl⟩
  · have hle := hafter (b, j) hj
    rw [zipIdxLE] at hle
    split_ifs at hle with hab hba
    · exact ⟨hab, fun _ => of_decide_eq_true hle⟩
    · exact ⟨hab, fun h => absurd h hba⟩

/-- There is a match in the sorted list iff there is one. -/
theorem find?_mergeSort_isSome :
    (∃ a, (l.mergeSort le).find? p = some a) ↔ ∃ a ∈ l, p a = true := by
  rw [← Option.isSome_iff_exists, find?_isSome]
  simp only [mem_mergeSort]

end List
