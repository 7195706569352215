import Mathlib.Data.List.AList
import Mathlib.Data.List.Perm.Basic
import Mathlib.Data.List.Sort

/-!
# Machinery/EntryMap — hash maps and their entries

A hash map is an association list without repeated keys.  Its order means nothing: a walk over the
map sees the entries in whatever order the walk brings (`WalkOrder`), and `Holds` says which entries
there are without saying in which order.  Each operation has one rule for `Holds`.

* `Holds.get_eq_some`, `Holds.iter` — a lookup and a walk find what the map holds.
* `Holds.insert`, `Holds.remove` — how the operations change that.
-/

/-- A hash map from `κ` to `ν`. -/
abbrev EntryMap (κ ν : Type) : Type := AList fun _ : κ => ν

/-- The order one walk over a hash map takes its entries in: any rearrangement. -/
structure WalkOrder (κ ν : Type) where
  arrange : List (κ × ν) → List (κ × ν)
  perm : ∀ l, (arrange l).Perm l

/-- A walk in the order of the list. -/
def WalkOrder.listed (κ ν : Type) : WalkOrder κ ν := ⟨id, fun _ => .refl _⟩

namespace EntryMap

variable {κ ν : Type}

/-- The entries, in some order. -/
def pairs (m : EntryMap κ ν) : List (κ × ν) := m.entries.map fun e => (e.1, e.2)

/-- `iter()`. -/
def iter (order : WalkOrder κ ν) (m : EntryMap κ ν) : List (κ × ν) := order.arrange m.pairs

/-- `len()`. -/
def len (m : EntryMap κ ν) : ℕ := m.entries.length

/-- `HashMap::new()`. -/
def new : EntryMap κ ν := ∅

/-- `retain(f)`: the entries that `f` keeps. -/
def retain (f : κ → ν → Bool) (m : EntryMap κ ν) : EntryMap κ ν where
  entries := m.entries.filter fun e => f e.1 e.2
  nodupKeys := m.nodupKeys.sublist List.filter_sublist

section

variable [DecidableEq κ]

/-- `get(k)`. -/
def get (m : EntryMap κ ν) (k : κ) : Option ν := AList.lookup k m

/-- `insert(k, v)`. -/
def insert (m : EntryMap κ ν) (k : κ) (v : ν) : EntryMap κ ν := AList.insert k v m

/-- `remove(k)`. -/
def remove (m : EntryMap κ ν) (k : κ) : EntryMap κ ν := AList.erase k m

end

/-- The entries of the map are those of the list. -/
def Holds (m : EntryMap κ ν) (l : List (κ × ν)) : Prop := m.pairs.Perm l

@[simp] theorem get_insert_self [DecidableEq κ] (m : EntryMap κ ν) (k : κ) (v : ν) :
    (m.insert k v).get k = some v := AList.lookup_insert m

theorem get_insert_of_ne [DecidableEq κ] (m : EntryMap κ ν) {k k' : κ} (hk : k' ≠ k) (v : ν) :
    (m.insert k v).get k' = m.get k' := AList.lookup_insert_ne hk

theorem mem_pairs {m : EntryMap κ ν} {k : κ} {v : ν} : (k, v) ∈ m.pairs ↔ ⟨k, v⟩ ∈ m.entries := by
  simp [pairs]

@[simp] theorem get_remove_self [DecidableEq κ] (m : EntryMap κ ν) (k : κ) :
    (m.remove k).get k = none := AList.lookup_erase k m

theorem get_remove_of_ne [DecidableEq κ] (m : EntryMap κ ν) {k k' : κ} (hk : k' ≠ k) :
    (m.remove k).get k' = m.get k' := AList.lookup_erase_ne hk

theorem get_retain [DecidableEq κ] (f : κ → ν → Bool) (m : EntryMap κ ν) (k : κ) :
    (m.retain f).get k = (m.get k).filter (f k) := by
  ext v
  rw [Option.filter_eq_some_iff]
  refine AList.mem_lookup_iff.trans ?_
  rw [retain, List.mem_filter]
  exact and_congr_left fun _ => AList.mem_lookup_iff.symm

theorem nodup_map_fst_pairs (m : EntryMap κ ν) : (m.pairs.map Prod.fst).Nodup := by
  rw [pairs, List.map_map]
  exact m.keys_nodup

theorem map_kerase [DecidableEq κ] (k : κ) {entries : List (Σ _ : κ, ν)}
    (hnodup : entries.NodupKeys) :
    (entries.kerase k).map (fun e => (e.1, e.2))
      = (entries.map fun e => (e.1, e.2)).filter fun e => e.1 ≠ k := by
  induction entries with
  | nil => rfl
  | cons e entries ih =>
    obtain ⟨hfst, hrest⟩ := List.nodupKeys_cons.mp hnodup
    by_cases he : k = e.1
    · have hne : ∀ p ∈ entries.map fun e => (e.1, e.2), p.1 ≠ k := by
        intro p hp hpk
        obtain ⟨d, hd, rfl⟩ := List.mem_map.mp hp
        exact hfst ((hpk.trans he) ▸ List.mem_keys_of_mem hd)
      rw [List.kerase_cons_eq he, List.map_cons, List.filter_cons_of_neg (by simp [he]),
        List.filter_eq_self.mpr (by simpa using hne)]
    · rw [List.kerase_cons_ne he, List.map_cons, ih hrest, List.map_cons,
        List.filter_cons_of_pos (by simpa using Ne.symm he)]

theorem holds_new : (new : EntryMap κ ν).Holds [] := .refl _

namespace Holds

variable {m : EntryMap κ ν} {l l' : List (κ × ν)} {k : κ} {v : ν}

theorem nodup (h : m.Holds l) : (l.map Prod.fst).Nodup :=
  (h.map Prod.fst).nodup_iff.mp m.nodup_map_fst_pairs

theorem perm (h : m.Holds l) (hl : l.Perm l') : m.Holds l' := h.trans hl

theorem len (h : m.Holds l) : m.len = l.length := by
  rw [← h.length_eq, pairs, List.length_map]
  rfl

theorem iter (h : m.Holds l) (order : WalkOrder κ ν) : (m.iter order).Perm l :=
  (order.perm _).trans h

variable [DecidableEq κ]

theorem get_eq_some (h : m.Holds l) : m.get k = some v ↔ (k, v) ∈ l := by
  rw [← h.mem_iff, mem_pairs]
  exact AList.mem_lookup_iff

theorem get_eq_none (h : m.Holds l) : m.get k = none ↔ k ∉ l.map Prod.fst := by
  rw [EntryMap.get, AList.lookup_eq_none, ← (h.map Prod.fst).mem_iff, pairs, List.map_map]
  exact AList.mem_keys.not

/-- Removing a key keeps the other entries. -/
theorem remove (h : m.Holds l) (k : κ) : (m.remove k).Holds (l.filter fun e => e.1 ≠ k) :=
  .trans (.of_eq (map_kerase k m.nodupKeys)) (h.filter _)

/-- Inserting a key replaces its entry. -/
theorem insert (h : m.Holds l) (k : κ) (v : ν) :
    (m.insert k v).Holds ((k, v) :: l.filter fun e => e.1 ≠ k) := by
  rw [Holds, pairs, EntryMap.insert, AList.entries_insert, List.map_cons]
  exact (h.remove k).cons (k, v)

/-- Dropping the entries of a key that has none changes nothing. -/
theorem filter_ne_of_notMem (hk : k ∉ l.map Prod.fst) : (l.filter fun e => e.1 ≠ k) = l :=
  List.filter_eq_self.mpr fun e he => by
    simpa using fun hek : e.1 = k => hk (hek ▸ List.mem_map_of_mem he)

theorem insert_of_notMem (h : m.Holds l) (hk : k ∉ l.map Prod.fst) (v : ν) :
    (m.insert k v).Holds ((k, v) :: l) :=
  filter_ne_of_notMem hk ▸ h.insert k v

theorem filter_cons_self (h : m.Holds ((k, v) :: l)) :
    (((k, v) :: l).filter fun e => e.1 ≠ k) = l := by
  rw [List.filter_cons_of_neg (by simp)]
  exact filter_ne_of_notMem (List.nodup_cons.mp h.nodup).1

theorem insert_cons (h : m.Holds ((k, v) :: l)) (w : ν) : (m.insert k w).Holds ((k, w) :: l) := by
  have := h.insert k w
  rwa [h.filter_cons_self] at this

theorem remove_cons (h : m.Holds ((k, v) :: l)) : (m.remove k).Holds l := by
  have := h.remove k
  rwa [h.filter_cons_self] at this

end Holds

/-! ## Insertions, one after the other

Keys that repeat overwrite one another: of the pairs to insert, the last of each key is kept. -/

section

variable [DecidableEq κ]

/-- The entries whose key does not come again. -/
def kept : List (κ × ν) → List (κ × ν)
  | [] => []
  | e :: l => if e.1 ∈ l.map Prod.fst then kept l else e :: kept l

/-- The entries whose key comes again. -/
def overwritten : List (κ × ν) → List (κ × ν)
  | [] => []
  | e :: l => if e.1 ∈ l.map Prod.fst then e :: overwritten l else overwritten l

theorem kept_append_overwritten_perm (l : List (κ × ν)) : (kept l ++ overwritten l).Perm l := by
  induction l with
  | nil => exact .refl _
  | cons e l ih =>
    rw [kept, overwritten]
    split_ifs
    · exact List.perm_middle.trans (ih.cons e)
    · exact ih.cons e

theorem overwritten_eq_nil_iff {l : List (κ × ν)} :
    overwritten l = [] ↔ (l.map Prod.fst).Nodup := by
  induction l with
  | nil => simp [overwritten]
  | cons e l ih =>
    rw [overwritten, List.map_cons, List.nodup_cons]
    split_ifs with hmem
    · simp [hmem]
    · simp [hmem, ih]

theorem overwritten_map {μ : Type} (g : ν → μ) (l : List (κ × ν)) :
    overwritten (l.map (Prod.map id g)) = (overwritten l).map (Prod.map id g) := by
  induction l with
  | nil => rfl
  | cons e l ih =>
    have hkeys : (l.map (Prod.map id g)).map Prod.fst = l.map Prod.fst := by
      rw [List.map_map]
      rfl
    rw [List.map_cons, overwritten, hkeys, ih, overwritten, Prod.map_fst, id_eq]
    split_ifs <;> rfl

/-- **Of entries inserted one after the other** the last one of each key is kept. -/
theorem Holds.foldl_insert {m : EntryMap κ ν} {l₀ : List (κ × ν)} (h : m.Holds l₀)
    (l : List (κ × ν)) :
    (l.foldl (fun m e => m.insert e.1 e.2) m).Holds
      ((l₀.filter fun e => e.1 ∉ l.map Prod.fst) ++ kept l) := by
  induction l generalizing m l₀ with
  | nil => simpa [kept] using h
  | cons e l ih =>
    refine (ih (h.insert e.1 e.2)).perm ?_
    have hrest : ((l₀.filter fun d => d.1 ≠ e.1).filter fun d => d.1 ∉ l.map Prod.fst)
        = l₀.filter fun d => d.1 ∉ (e :: l).map Prod.fst := by
      rw [List.filter_filter]
      refine List.filter_congr fun d _ => ?_
      rw [List.map_cons, ← Bool.decide_and, decide_eq_decide, List.mem_cons, not_or, and_comm]
    rw [List.filter_cons, hrest, kept]
    by_cases hmem : e.1 ∈ l.map Prod.fst
    · rw [if_neg (by simpa using hmem), if_pos hmem]
    · rw [if_pos (by simpa using hmem), if_neg hmem]
      exact List.perm_middle.symm

end

end EntryMap

/-- **A sort by distinct numbers forgets the order it was given.** -/
theorem List.mergeSort_eq_of_perm {α : Type} {f : α → ℕ} {l l' : List α}
    (hl : l.Pairwise fun a b => f a < f b) (h : l'.Perm l) :
    l'.mergeSort (fun a b => f a ≤ f b) = l := by
  have hnodup : (l.map f).Nodup := List.pairwise_map.mpr (hl.imp ne_of_lt)
  have hsort : (l'.mergeSort fun a b => f a ≤ f b).Perm l := (List.mergeSort_perm l' _).trans h
  have hsorted : (l'.mergeSort fun a b => f a ≤ f b).Pairwise fun a b => f a ≤ f b := by
    have htrans : ∀ a b c, decide (f a ≤ f b) → decide (f b ≤ f c) → decide (f a ≤ f c) := by
      simp only [decide_eq_true_eq]
      exact fun a b c => le_trans
    have htotal : ∀ a b, decide (f a ≤ f b) || decide (f b ≤ f a) := by
      simp only [Bool.or_eq_true, decide_eq_true_eq]
      exact fun a b => le_total _ _
    simpa only [decide_eq_true_eq] using List.pairwise_mergeSort htrans htotal l'
  refine hsort.eq_of_pairwise (fun a b ha hb hab hba => ?_) hsorted (hl.imp le_of_lt)
  exact List.inj_on_of_nodup_map hnodup (hsort.mem_iff.mp ha) hb (le_antisymm hab hba)
