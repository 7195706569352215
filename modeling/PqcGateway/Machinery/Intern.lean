import Mathlib.Data.List.Nodup

/-!
# Machinery/Intern — a table of different keys

`intern` gives a key its place in a table, at the end if it is not there yet.

* `getElem?_intern` — the place has the key.
* `intern_nodup` — the keys stay different.
* `getElem?_intern_of_some` — the places given earlier keep their keys.
-/

variable {α : Type} [DecidableEq α]

/-- The table with the key in it, and the key's place there. -/
def intern (key : α) (table : List α) : List α × ℕ :=
  match table.findIdx? fun k => k = key with
  | some idx => (table, idx)
  | none =>
    let table := table ++ [key]
    (table, table.length - 1)

/-- A key is found, or appended. -/
theorem intern_cases (key : α) (table : List α) :
    (∃ idx, table[idx]? = some key ∧ intern key table = (table, idx)) ∨
      key ∉ table ∧ intern key table = (table ++ [key], table.length) := by
  rcases hfind : table.findIdx? fun k => k = key with _ | idx
  · refine .inr ⟨fun hmem => ?_, by simp [intern, hfind]⟩
    simpa using List.findIdx?_eq_none_iff.mp hfind key hmem
  · obtain ⟨hlt, hkey, -⟩ := List.findIdx?_eq_some_iff_getElem.mp hfind
    refine .inl ⟨idx, ?_, by simp [intern, hfind]⟩
    rw [List.getElem?_eq_getElem hlt, of_decide_eq_true hkey]

theorem getElem?_intern (key : α) (table : List α) :
    (intern key table).1[(intern key table).2]? = some key := by
  obtain ⟨idx, hkey, h⟩ | ⟨-, h⟩ := intern_cases key table
  · rw [h, hkey]
  · rw [h, List.getElem?_concat_length]

theorem intern_nodup (key : α) {table : List α} (h : table.Nodup) :
    (intern key table).1.Nodup := by
  obtain ⟨idx, -, heq⟩ | ⟨hkey, heq⟩ := intern_cases key table
  · rwa [heq]
  · rw [heq, ← List.concat_eq_append]
    exact h.concat hkey

/-- A place given earlier keeps its key. -/
theorem getElem?_intern_of_some (key : α) {key' : α} {table : List α} {idx : ℕ}
    (h : table[idx]? = some key') : (intern key table).1[idx]? = some key' := by
  obtain ⟨idx, -, heq⟩ | ⟨-, heq⟩ := intern_cases key table
  · rwa [heq]
  · rw [heq, List.getElem?_append_left (List.getElem?_eq_some_iff.mp h).1, h]

theorem mem_intern {key key' : α} {table : List α} (h : key' ∈ (intern key table).1) :
    key' ∈ table ∨ key' = key := by
  obtain ⟨idx, -, heq⟩ | ⟨-, heq⟩ := intern_cases key table
  · rw [heq] at h
    exact .inl h
  · rw [heq, List.mem_append, List.mem_singleton] at h
    exact h
