import PqcGateway.Machinery.Runs
import Mathlib.Data.List.Nodup
import Mathlib.Data.List.Perm.Basic
import Mathlib.Logic.Function.Basic

/-!
# Machinery/Swap — a value and what is built from it, in two cells

A writer loads the value, makes another of it, and stores first what is built from the new value and
then the value itself.  A reader loads the value and then the built one.  Each load and store is one
step, and the steps of other writers and readers may come between.

* `read_consistent_iff` — what a reader loads belongs together unless a writer was half done.
* `quiescent_consistent_iff` — when no writer is at work the two cells agree, unless one writer's
  stores came around another's.
* `serializable` — the value is what the writers' requests make of it, one after the other, if each
  stores what it would make of the value it replaces.
-/

namespace Swap

variable {ρ κ μ : Type}

/-- Where a writer stands. -/
inductive Write (ρ κ : Type)
  | idle
  | drafted (request : ρ) (new : κ)
  | swapped (request : ρ) (new : κ)
  | done

/-- The writer has begun and not finished. -/
def Write.InProgress : Write ρ κ → Prop
  | .drafted _ _ => True
  | .swapped _ _ => True
  | _ => False

/-- Where a reader stands. -/
inductive Read (κ : Type)
  | idle
  | holding (value : κ)
  | done

/-- The two cells, and where their writers and readers stand. -/
structure Cells (ρ κ μ : Type) where
  value : κ
  derived : μ
  writes : ℕ → Write ρ κ
  reads : ℕ → Read κ

/-- One load or store: `id` names the writer, or the reader, that makes it. -/
inductive Act (ρ : Type)
  | draft (id : ℕ) (request : ρ)
  | swap (id : ℕ)
  | store (id : ℕ)
  | load (id : ℕ)
  | loadDerived (id : ℕ)

/-- What the step did. -/
inductive Report (ρ κ μ : Type)
  | drafted (id : ℕ) (request : ρ)
  | swapped (id : ℕ) (new : κ)
  | stored (id : ℕ) (request : ρ)
  | loaded (id : ℕ) (value : κ)
  | read (id : ℕ) (value : κ) (derived : μ)
  | nothing

/-- The step was a writer's. -/
def Report.isWrite : Report ρ κ μ → Bool
  | .drafted _ _ => true
  | .swapped _ _ => true
  | .stored _ _ => true
  | _ => false

variable (effect : ρ → κ → κ) (build : κ → μ)

/-- Nobody at work, and the cells in agreement. -/
def start (value : κ) : Cells ρ κ μ where
  value
  derived := build value
  writes _ := .idle
  reads _ := .idle

/-- **The two cells**, one load or store at a time.  A step that is not its writer's or reader's
next does nothing. -/
def machine : Machine (Cells ρ κ μ) (Act ρ) (Report ρ κ μ) where
  step s
    | .draft id request =>
      match s.writes id with
      | .idle => pure ({ s with
          writes := Function.update s.writes id (.drafted request (effect request s.value)) },
            .drafted id request)
      | _ => pure (s, .nothing)
    | .swap id =>
      match s.writes id with
      | .drafted request new => pure ({ s with
          derived := build new
          writes := Function.update s.writes id (.swapped request new) }, .swapped id new)
      | _ => pure (s, .nothing)
    | .store id =>
      match s.writes id with
      | .swapped request new => pure ({ s with
          value := new
          writes := Function.update s.writes id .done }, .stored id request)
      | _ => pure (s, .nothing)
    | .load id =>
      match s.reads id with
      | .idle => pure ({ s with
          reads := Function.update s.reads id (.holding s.value) }, .loaded id s.value)
      | _ => pure (s, .nothing)
    | .loadDerived id =>
      match s.reads id with
      | .holding value => pure ({ s with
          reads := Function.update s.reads id .done }, .read id value s.derived)
      | _ => pure (s, .nothing)

variable {effect build}

section Step

variable {s s' : Cells ρ κ μ} {act : Act ρ} {report : Report ρ κ μ}

/-- **A step** drafts a new value, makes one of the two stores of a writer or one of the two loads
of a reader, or does nothing. -/
theorem step_cases (h : (machine effect build).step s act = .ok (s', report)) :
    (∃ id request, act = .draft id request ∧ s.writes id = .idle ∧ report = .drafted id request ∧
      s' = { s with
        writes := Function.update s.writes id (.drafted request (effect request s.value)) }) ∨
    (∃ id request new, act = .swap id ∧ s.writes id = .drafted request new ∧
      report = .swapped id new ∧ s' = { s with
        derived := build new
        writes := Function.update s.writes id (.swapped request new) }) ∨
    (∃ id request new, act = .store id ∧ s.writes id = .swapped request new ∧
      report = .stored id request ∧ s' = { s with
        value := new
        writes := Function.update s.writes id .done }) ∨
    (∃ id, act = .load id ∧ s.reads id = .idle ∧ report = .loaded id s.value ∧ s' = { s with
      reads := Function.update s.reads id (.holding s.value) }) ∨
    (∃ id value, act = .loadDerived id ∧ s.reads id = .holding value ∧
      report = .read id value s.derived ∧ s' = { s with
        reads := Function.update s.reads id .done }) ∨
    (report = .nothing ∧ s' = s) := by
  cases act with
  | draft id request =>
    simp only [machine] at h
    split at h <;> obtain ⟨rfl, rfl⟩ := Prod.mk.inj (Except.ok.inj h)
    · exact .inl ⟨id, request, rfl, ‹_›, rfl, rfl⟩
    · exact .inr (.inr (.inr (.inr (.inr ⟨rfl, rfl⟩))))
  | swap id =>
    simp only [machine] at h
    split at h <;> obtain ⟨rfl, rfl⟩ := Prod.mk.inj (Except.ok.inj h)
    · exact .inr (.inl ⟨id, _, _, rfl, ‹_›, rfl, rfl⟩)
    · exact .inr (.inr (.inr (.inr (.inr ⟨rfl, rfl⟩))))
  | store id =>
    simp only [machine] at h
    split at h <;> obtain ⟨rfl, rfl⟩ := Prod.mk.inj (Except.ok.inj h)
    · exact .inr (.inr (.inl ⟨id, _, _, rfl, ‹_›, rfl, rfl⟩))
    · exact .inr (.inr (.inr (.inr (.inr ⟨rfl, rfl⟩))))
  | load id =>
    simp only [machine] at h
    split at h <;> obtain ⟨rfl, rfl⟩ := Prod.mk.inj (Except.ok.inj h)
    · exact .inr (.inr (.inr (.inl ⟨id, rfl, ‹_›, rfl, rfl⟩)))
    · exact .inr (.inr (.inr (.inr (.inr ⟨rfl, rfl⟩))))
  | loadDerived id =>
    simp only [machine] at h
    split at h <;> obtain ⟨rfl, rfl⟩ := Prod.mk.inj (Except.ok.inj h)
    · exact .inr (.inr (.inr (.inr (.inl ⟨id, _, rfl, ‹_›, rfl, rfl⟩))))
    · exact .inr (.inr (.inr (.inr (.inr ⟨rfl, rfl⟩))))

/-- **What a step does to the writers and the cells**: a load does nothing to them. -/
theorem step_write_cases (h : (machine effect build).step s act = .ok (s', report)) :
    (∃ id request, act = .draft id request ∧ s.writes id = .idle ∧ report = .drafted id request ∧
      s' = { s with
        writes := Function.update s.writes id (.drafted request (effect request s.value)) }) ∨
    (∃ id request new, act = .swap id ∧ s.writes id = .drafted request new ∧
      report = .swapped id new ∧ s' = { s with
        derived := build new
        writes := Function.update s.writes id (.swapped request new) }) ∨
    (∃ id request new, act = .store id ∧ s.writes id = .swapped request new ∧
      report = .stored id request ∧ s' = { s with
        value := new
        writes := Function.update s.writes id .done }) ∨
    (report.isWrite = false ∧ ∃ reads, s' = { s with reads }) := by
  obtain h | h | h | ⟨_, -, -, rfl, rfl⟩ | ⟨_, _, -, -, rfl, rfl⟩ | ⟨rfl, rfl⟩ := step_cases h
  · exact .inl h
  · exact .inr (.inl h)
  · exact .inr (.inr (.inl h))
  · exact .inr (.inr (.inr ⟨rfl, _, rfl⟩))
  · exact .inr (.inr (.inr ⟨rfl, _, rfl⟩))
  · exact .inr (.inr (.inr ⟨rfl, s'.reads, rfl⟩))

end Step

/-- **A writer alone** applies its request, and rebuilds the derived value. -/
theorem run_alone {s : Cells ρ κ μ} {id : ℕ} (hidle : s.writes id = .idle) (request : ρ) :
    (machine effect build).run s [.draft id request, .swap id, .store id] = .ok
      ({ s with
          value := effect request s.value
          derived := build (effect request s.value)
          writes := Function.update s.writes id .done },
        [.drafted id request, .swapped id (effect request s.value), .stored id request]) := by
  simp only [Machine.run, machine, hidle, Function.update_self, Function.update_idem, pure_bind]
  rfl

/-! ## What the reports say

The requests begun and stored, and the last value that was built from. -/

/-- The requests begun, each with its writer. -/
def drafts (reports : List (Report ρ κ μ)) : List (ℕ × ρ) :=
  reports.filterMap fun
    | .drafted id request => some (id, request)
    | _ => none

/-- The requests whose values were stored, in the order of the stores. -/
def stores (reports : List (Report ρ κ μ)) : List (ℕ × ρ) :=
  reports.filterMap fun
    | .stored id request => some (id, request)
    | _ => none

/-- A step that is no writer's adds nothing to them. -/
theorem history_concat_of_read (reports : List (Report ρ κ μ)) {report : Report ρ κ μ}
    (h : report.isWrite = false) :
    drafts (reports ++ [report]) = drafts reports ∧
      stores (reports ++ [report]) = stores reports := by
  rw [drafts, drafts, stores, stores, List.filterMap_append, List.filterMap_append]
  cases report with
  | drafted id request => cases h
  | swapped id new => cases h
  | stored id request => cases h
  | loaded id value => exact ⟨List.append_nil _, List.append_nil _⟩
  | read id value derived => exact ⟨List.append_nil _, List.append_nil _⟩
  | nothing => exact ⟨List.append_nil _, List.append_nil _⟩

/-- The last store of a derived value: its writer, and the value it was built from. -/
def lastSwap (reports : List (Report ρ κ μ)) : Option (ℕ × κ) :=
  (reports.filterMap fun
    | .swapped id new => some (id, new)
    | _ => none).getLast?

theorem lastSwap_append (reports reports' : List (Report ρ κ μ)) :
    lastSwap (reports ++ reports') = (lastSwap reports').or (lastSwap reports) := by
  rw [lastSwap, List.filterMap_append, List.getLast?_append]
  rfl

/-- A step reports a swap as the last one, or leaves the last one. -/
theorem lastSwap_concat (reports : List (Report ρ κ μ)) (report : Report ρ κ μ) :
    lastSwap (reports ++ [report]) = (match report with
      | .swapped id new => some (id, new)
      | _ => lastSwap reports) := by
  rw [lastSwap_append]
  cases report <;> rfl

theorem mem_of_lastSwap {reports : List (Report ρ κ μ)} {id : ℕ} {new : κ}
    (h : lastSwap reports = some (id, new)) : .swapped id new ∈ reports := by
  obtain ⟨report, hreport, hsome⟩ := List.mem_filterMap.mp (List.mem_of_getLast? h)
  cases report with
  | swapped id' new' =>
    obtain ⟨rfl, rfl⟩ := Prod.mk.inj (Option.some.inj hsome)
    exact hreport
  | _ => cases hsome

theorem notMem_of_lastSwap_none {reports : List (Report ρ κ μ)} {id : ℕ} {new : κ}
    (h : lastSwap reports = none) : .swapped id new ∉ reports := fun hmem => by
  rw [lastSwap, List.getLast?_eq_none_iff, List.filterMap_eq_nil_iff] at h
  cases h _ hmem

theorem lastSwap_concat_of_read (reports : List (Report ρ κ μ)) {report : Report ρ κ μ}
    (h : report.isWrite = false) : lastSwap (reports ++ [report]) = lastSwap reports := by
  rw [lastSwap_concat]
  cases report with
  | swapped id new => cases h
  | _ => rfl

/-! ## When no writer is at work

The derived cell holds what was built last, and the value cell what was stored last. -/

/-- No writer has begun and not finished. -/
def Quiescent (s : Cells ρ κ μ) : Prop := ∀ id, ¬ (s.writes id).InProgress

/-- The derived cell holds what is built from the value. -/
def Consistent (build : κ → μ) (s : Cells ρ κ μ) : Prop := s.derived = build s.value

/-- Storing the value ends the work of that writer alone. -/
theorem inProgress_update_done {writes : ℕ → Write ρ κ} {id id' : ℕ} :
    (Function.update writes id .done id').InProgress ↔ id' ≠ id ∧ (writes id').InProgress := by
  by_cases hid : id' = id
  · rw [hid, Function.update_self]
    simp [Write.InProgress]
  · rw [Function.update_of_ne hid]
    simp [hid]

/-- **The last two stores belong together**: one writer made them, or what it built the derived
value from and what the other stored give the same. -/
def Paired (build : κ → μ) (reports : List (Report ρ κ μ)) : Prop :=
  ∀ id new id' request new', lastSwap reports = some (id, new) →
    (stores reports).getLast? = some (id', request) → .swapped id' new' ∈ reports →
    id = id' ∨ build new = build new'

/-- What the reports say of the cells and of the writers between their two stores. -/
structure Recorded (build : κ → μ) (value : κ) (reports : List (Report ρ κ μ))
    (s : Cells ρ κ μ) : Prop where
  derived : s.derived = build ((lastSwap reports).elim value Prod.snd)
  value_of_none : stores reports = [] → s.value = value
  value_of_last : ∀ e, (stores reports).getLast? = some e → .swapped e.1 s.value ∈ reports
  half : ∀ id request new, s.writes id = .swapped request new → .swapped id new ∈ reports
  swapped : ∀ id new, .swapped id new ∈ reports →
    (∃ request, s.writes id = .swapped request new) ∨
      s.writes id = .done ∧ ∃ request, (id, request) ∈ stores reports
  once : ∀ id new new', .swapped id new ∈ reports → .swapped id new' ∈ reports → new = new'

namespace Recorded

variable {value : κ} {reports : List (Report ρ κ μ)} {s s' : Cells ρ κ μ} {act : Act ρ}
  {report : Report ρ κ μ} {id : ℕ} {request : ρ} {new : κ}

theorem start : Recorded build value [] (start build value : Cells ρ κ μ) where
  derived := rfl
  value_of_none _ := rfl
  value_of_last _ h := by cases h
  half _ _ _ h := by cases h
  swapped _ _ h := absurd h List.not_mem_nil
  once _ _ _ h := absurd h List.not_mem_nil

/-- A writer that has not swapped is in no report of a swap. -/
theorem notMem (h : Recorded build value reports s)
    (hwrite : ∀ request new, s.writes id ≠ .swapped request new) (hdone : s.writes id ≠ .done) :
    .swapped id new ∉ reports := fun hmem => by
  obtain ⟨request, hswapped⟩ | ⟨hdone', -⟩ := h.swapped id new hmem
  · exact hwrite request new hswapped
  · exact hdone hdone'

theorem draft (h : Recorded build value reports s) (hidle : s.writes id = .idle) :
    Recorded build value (reports ++ [.drafted id request]) { s with
      writes := Function.update s.writes id (.drafted request new) } := by
  have hnone : ∀ new, .swapped id new ∉ reports := fun new =>
    h.notMem (by simp [hidle]) (by simp [hidle])
  have hstores : stores (reports ++ [.drafted id request]) = stores reports := by simp [stores]
  refine ⟨by rw [lastSwap_concat]; exact h.derived, hstores ▸ h.value_of_none, fun e he => ?_,
    fun id' r new' hwrite' => ?_, fun id' new' hmem => ?_, fun id' n n' hn hn' => ?_⟩
  · exact List.mem_append_left _ (h.value_of_last e (hstores ▸ he))
  · by_cases hid : id' = id
    · rw [hid] at hwrite'
      simp at hwrite'
    · dsimp only at hwrite'
      rw [Function.update_of_ne hid] at hwrite'
      exact List.mem_append_left _ (h.half id' r new' hwrite')
  · rw [List.mem_append, or_iff_left (by simp)] at hmem
    have hid : id' ≠ id := fun hid => hnone new' (hid ▸ hmem)
    dsimp only
    rw [Function.update_of_ne hid, hstores]
    exact h.swapped id' new' hmem
  · rw [List.mem_append, or_iff_left (by simp)] at hn hn'
    exact h.once id' n n' hn hn'

theorem swap (h : Recorded build value reports s) (hwrite : s.writes id = .drafted request new) :
    Recorded build value (reports ++ [.swapped id new]) { s with
      derived := build new
      writes := Function.update s.writes id (.swapped request new) } := by
  have hnone : ∀ new, .swapped id new ∉ reports := fun new =>
    h.notMem (by simp [hwrite]) (by simp [hwrite])
  have hstores : stores (reports ++ [.swapped id new]) = stores reports := by simp [stores]
  have hmem_iff : ∀ id' new', .swapped id' new' ∈ reports ++ [.swapped id new] ↔
      .swapped id' new' ∈ reports ∨ id' = id ∧ new' = new := by simp
  refine ⟨by rw [lastSwap_concat]; rfl, hstores ▸ h.value_of_none, fun e he => ?_,
    fun id' r new' hwrite' => ?_, fun id' new' hmem => ?_, fun id' n n' hn hn' => ?_⟩
  · exact List.mem_append_left _ (h.value_of_last e (hstores ▸ he))
  · rw [hmem_iff]
    by_cases hid : id' = id
    · rw [hid] at hwrite'
      simp only [Function.update_self, Write.swapped.injEq] at hwrite'
      exact .inr ⟨hid, hwrite'.2.symm⟩
    · dsimp only at hwrite'
      rw [Function.update_of_ne hid] at hwrite'
      exact .inl (h.half id' r new' hwrite')
  · dsimp only
    obtain hmem | ⟨rfl, rfl⟩ := (hmem_iff id' new').mp hmem
    · have hid : id' ≠ id := fun hid => hnone new' (hid ▸ hmem)
      rw [Function.update_of_ne hid, hstores]
      exact h.swapped id' new' hmem
    · exact .inl ⟨request, Function.update_self ..⟩
  · obtain hn | ⟨hid, hn⟩ := (hmem_iff id' n).mp hn <;>
      obtain hn' | ⟨hid', hn'⟩ := (hmem_iff id' n').mp hn'
    · exact h.once id' n n' hn hn'
    · exact absurd (hid' ▸ hn) (hnone n)
    · exact absurd (hid ▸ hn') (hnone n')
    · exact hn.trans hn'.symm

theorem store (h : Recorded build value reports s) (hwrite : s.writes id = .swapped request new) :
    Recorded build value (reports ++ [.stored id request]) { s with
      value := new
      writes := Function.update s.writes id .done } := by
  have hstores : stores (reports ++ [.stored id request]) = stores reports ++ [(id, request)] := by
    simp [stores]
  refine ⟨by rw [lastSwap_concat]; exact h.derived, fun hnil => ?_, fun e he => ?_,
    fun id' r new' hwrite' => ?_, fun id' new' hmem => ?_, fun id' n n' hn hn' => ?_⟩
  · rw [hstores] at hnil
    exact absurd hnil (List.append_ne_nil_of_right_ne_nil _ (List.cons_ne_nil _ _))
  · rw [hstores, List.getLast?_concat] at he
    obtain rfl := Option.some.inj he
    exact List.mem_append_left _ (h.half id request new hwrite)
  · by_cases hid : id' = id
    · rw [hid] at hwrite'
      simp at hwrite'
    · dsimp only at hwrite'
      rw [Function.update_of_ne hid] at hwrite'
      exact List.mem_append_left _ (h.half id' r new' hwrite')
  · rw [List.mem_append, or_iff_left (by simp)] at hmem
    dsimp only
    rw [hstores]
    by_cases hid : id' = id
    · rw [hid, Function.update_self]
      exact .inr ⟨rfl, request, List.mem_append_right _ (List.mem_singleton_self _)⟩
    · rw [Function.update_of_ne hid]
      exact (h.swapped id' new' hmem).imp_right fun hdone =>
        ⟨hdone.1, hdone.2.imp fun r hr => List.mem_append_left _ hr⟩
  · rw [List.mem_append, or_iff_left (by simp)] at hn hn'
    exact h.once id' n n' hn hn'

theorem step (h : Recorded build value reports s)
    (hstep : (machine effect build).step s act = .ok (s', report)) :
    Recorded build value (reports ++ [report]) s' := by
  obtain ⟨id, request, -, hidle, rfl, rfl⟩ | ⟨id, request, new, -, hwrite, rfl, rfl⟩ |
    ⟨id, request, new, -, hwrite, rfl, rfl⟩ | ⟨hreport, _, rfl⟩ := step_write_cases hstep
  · exact h.draft hidle
  · exact h.swap hwrite
  · exact h.store hwrite
  · have hlast := lastSwap_concat_of_read reports hreport
    have hstores := (history_concat_of_read reports hreport).2
    have hmem_iff : ∀ id new, .swapped id new ∈ reports ++ [report] ↔
        .swapped id new ∈ reports := fun id new => by
      rw [List.mem_append, List.mem_singleton, or_iff_left]
      rintro rfl
      cases hreport
    exact ⟨hlast ▸ h.derived, hstores ▸ h.value_of_none,
      fun e he => (hmem_iff _ _).mpr (h.value_of_last e (hstores ▸ he)),
      fun id request new hwrite => (hmem_iff _ _).mpr (h.half id request new hwrite),
      fun id new hmem => hstores ▸ h.swapped id new ((hmem_iff id new).mp hmem),
      fun id n n' hn hn' => h.once id n n' ((hmem_iff id n).mp hn) ((hmem_iff id n').mp hn')⟩

end Recorded

/-- **When no writer is at work the cells agree** exactly if the last two stores belong together. -/
theorem quiescent_consistent_iff {value : κ} {acts : List (Act ρ)} {s : Cells ρ κ μ}
    {reports : List (Report ρ κ μ)}
    (hrun : (machine effect build).run (start build value) acts = .ok (s, reports))
    (hquiet : Quiescent s) : Consistent build s ↔ Paired build reports := by
  have hrecorded : Recorded build value reports s :=
    (machine effect build).run_along_answers (P := fun _ _ => True)
      (I := fun reports s => Recorded build value reports s) (fun _ _ _ _ _ h _ => h.step) .start
      ((machine effect build).along_of_forall_mem (fun _ _ _ => trivial) _) hrun
  rw [Consistent, hrecorded.derived]
  cases hlast : lastSwap reports with
  | none =>
    have hnone : stores reports = [] := by
      by_contra hstored
      have hmem := hrecorded.value_of_last _ (List.getLast?_eq_some_getLast hstored)
      exact notMem_of_lastSwap_none hlast hmem
    rw [hrecorded.value_of_none hnone, Paired, hlast]
    exact iff_of_true rfl fun _ _ _ _ _ h => by cases h
  | some e =>
    obtain ⟨id, new⟩ := e
    have hswap := mem_of_lastSwap hlast
    obtain ⟨request, hswapped⟩ | ⟨-, request, hstored⟩ := hrecorded.swapped id new hswap
    · exact absurd (hswapped ▸ trivial) (hquiet id)
    · obtain ⟨last, hlastStore⟩ : ∃ last, (stores reports).getLast? = some last :=
        ⟨_, List.getLast?_eq_some_getLast (List.ne_nil_of_mem hstored)⟩
      have hvalue := hrecorded.value_of_last last hlastStore
      constructor
      · intro hsame id₁ new₁ id₂ request₂ new₂ h₁ h₂ hmem
        obtain ⟨rfl, rfl⟩ := Prod.mk.inj (Option.some.inj (hlast.symm.trans h₁))
        obtain rfl := Option.some.inj (hlastStore.symm.trans h₂)
        rw [hrecorded.once _ _ _ hmem hvalue]
        exact .inr hsame
      · intro hpaired
        obtain rfl | hsame := hpaired id new last.1 last.2 s.value hlast hlastStore hvalue
        · exact congrArg build (hrecorded.once _ _ _ hswap hvalue)
        · exact hsame

/-! ## One request after the other

A store that is not stale appends its request to a series that made the value. -/

/-- The request of a writer at work. -/
def Write.request : Write ρ κ → Option ρ
  | .drafted request _ => some request
  | .swapped request _ => some request
  | _ => none

theorem Write.inProgress_of_request {write : Write ρ κ} {request : ρ}
    (h : write.request = some request) : write.InProgress := by
  cases write with
  | drafted _ _ => trivial
  | swapped _ _ => trivial
  | idle => cases h
  | done => cases h

/-- What a writer at work would store is made by its request, of some value. -/
def Write.Made (effect : ρ → κ → κ) : Write ρ κ → Prop
  | .drafted request new => ∃ value, new = effect request value
  | .swapped request new => ∃ value, new = effect request value
  | _ => True

theorem made_update {writes : ℕ → Write ρ κ} {write : Write ρ κ} (hnew : write.Made effect)
    (hmade : ∀ id, (writes id).Made effect) (id : ℕ) :
    ∀ id', (Function.update writes id write id').Made effect :=
  (Function.forall_update_iff writes fun _ (w : Write ρ κ) => w.Made effect).mpr
    ⟨hnew, fun id' _ => hmade id'⟩

theorem step_made {s s' : Cells ρ κ μ} {act : Act ρ} {report : Report ρ κ μ}
    (hmade : ∀ id, (s.writes id).Made effect)
    (hstep : (machine effect build).step s act = .ok (s', report)) :
    ∀ id, (s'.writes id).Made effect := by
  obtain ⟨id, request, -, -, -, rfl⟩ | ⟨id, request, new, -, hwrite, -, rfl⟩ |
    ⟨id, request, new, -, -, -, rfl⟩ | ⟨-, _, rfl⟩ := step_write_cases hstep
  · have hnew : (Write.drafted request (effect request s.value)).Made effect := ⟨s.value, rfl⟩
    exact made_update hnew hmade id
  · have hnew : (Write.swapped request new).Made effect := by
      have hdrafted := hmade id
      rwa [hwrite] at hdrafted
    exact made_update hnew hmade id
  · have hdone : (Write.done : Write ρ κ).Made effect := trivial
    exact made_update hdone hmade id
  · exact hmade

/-- Each of the requests applied to what the one before it left. -/
def applyAll (effect : ρ → κ → κ) (requests : List (ℕ × ρ)) (value : κ) : κ :=
  requests.foldl (fun v e => effect e.2 v) value

/-- The store is of a value made of another than the one it replaces. -/
def Stale (effect : ρ → κ → κ) (s : Cells ρ κ μ) (act : Act ρ) : Prop :=
  ∃ id request new, act = .store id ∧ s.writes id = .swapped request new ∧
    effect request s.value ≠ new

/-- The requests stored so far made the value; those begun are these and the pending ones. -/
structure Ledger (effect : ρ → κ → κ) (value : κ) (pending : List (ℕ × ρ))
    (reports : List (Report ρ κ μ)) (s : Cells ρ κ μ) : Prop where
  value : s.value = applyAll effect (stores reports) value
  perm : (drafts reports).Perm (stores reports ++ pending)
  nodup : pending.Nodup
  mem_iff : ∀ id request, (id, request) ∈ pending ↔ (s.writes id).request = some request

namespace Ledger

variable {value : κ} {pending : List (ℕ × ρ)} {reports : List (Report ρ κ μ)}
  {s s' : Cells ρ κ μ} {act : Act ρ} {report : Report ρ κ μ} {id : ℕ} {request : ρ} {new : κ}

/-- A request begun is pending. -/
theorem draft (h : Ledger effect value pending reports s) (hidle : s.writes id = .idle) :
    Ledger effect value (pending ++ [(id, request)]) (reports ++ [.drafted id request]) { s with
      writes := Function.update s.writes id (.drafted request new) } := by
  have hnew : ∀ r, (id, r) ∉ pending := fun r hr => by
    have hrequest := (h.mem_iff id r).mp hr
    rw [hidle] at hrequest
    cases hrequest
  refine ⟨?_, ?_, ?_, fun id' r => ?_⟩
  · simpa [stores] using h.value
  · simpa [drafts, stores] using h.perm.append_right [(id, request)]
  · exact List.nodup_append.mpr ⟨h.nodup, List.nodup_singleton _, fun e he d hd hed => by
      rw [List.mem_singleton.mp hd] at hed
      exact hnew request (hed ▸ he)⟩
  · dsimp only
    by_cases hid : id' = id
    · rw [hid, Function.update_self]
      simp [hnew, Write.request, eq_comm]
    · rw [Function.update_of_ne hid, ← h.mem_iff]
      simp [hid]

/-- It stays pending until its value is stored. -/
theorem swap (h : Ledger effect value pending reports s)
    (hwrite : s.writes id = .drafted request new) :
    Ledger effect value pending (reports ++ [.swapped id new]) { s with
      derived := build new
      writes := Function.update s.writes id (.swapped request new) } := by
  refine ⟨?_, ?_, h.nodup, fun id' r => ?_⟩
  · simpa [stores] using h.value
  · simpa [drafts, stores] using h.perm
  · rw [h.mem_iff]
    dsimp only
    by_cases hid : id' = id
    · rw [hid, Function.update_self, hwrite]
      rfl
    · rw [Function.update_of_ne hid]

/-- **A store that is not stale applies its request.** -/
theorem store (h : Ledger effect value pending reports s)
    (hwrite : s.writes id = .swapped request new) (happly : effect request s.value = new) :
    ∃ pending', Ledger effect value pending' (reports ++ [.stored id request]) { s with
      value := new
      writes := Function.update s.writes id .done } := by
  classical
  have hmem : (id, request) ∈ pending := (h.mem_iff id request).mpr (by rw [hwrite]; rfl)
  refine ⟨pending.erase (id, request), ?_, ?_, h.nodup.erase _, fun id' r => ?_⟩
  · rw [← happly, h.value]
    simp [stores, applyAll]
  · have hpending := (List.perm_cons_erase hmem).append_left (stores reports)
    simpa [drafts, stores] using h.perm.trans hpending
  · rw [h.nodup.mem_erase_iff, h.mem_iff]
    dsimp only
    by_cases hid : id' = id
    · rw [hid, Function.update_self, hwrite]
      simp [Write.request, eq_comm]
    · rw [Function.update_of_ne hid]
      simp [hid]

theorem step (h : Ledger effect value pending reports s) (hstale : ¬ Stale effect s act)
    (hstep : (machine effect build).step s act = .ok (s', report)) :
    ∃ pending', Ledger effect value pending' (reports ++ [report]) s' := by
  obtain ⟨id, request, -, hidle, rfl, rfl⟩ | ⟨id, request, new, -, hwrite, rfl, rfl⟩ |
    ⟨id, request, new, rfl, hwrite, rfl, rfl⟩ | ⟨hreport, _, rfl⟩ := step_write_cases hstep
  · exact ⟨_, h.draft hidle⟩
  · exact ⟨_, h.swap hwrite⟩
  · refine h.store hwrite ?_
    by_contra hne
    exact hstale ⟨id, request, new, rfl, hwrite, hne⟩
  · obtain ⟨hdrafts, hstores⟩ := history_concat_of_read reports hreport
    exact ⟨pending, hstores ▸ h.value, hdrafts ▸ hstores ▸ h.perm, h.nodup, h.mem_iff⟩

end Ledger

/-- **Serializable.**  Where no store of the run is stale, and no writer is left at work, the value
is what the requests make of the first one, one after the other in some order. -/
theorem serializable {value : κ} {acts : List (Act ρ)} {s : Cells ρ κ μ}
    {reports : List (Report ρ κ μ)}
    (hrun : (machine effect build).run (start build value) acts = .ok (s, reports))
    (hstale : (machine effect build).Along (fun s act => ¬ Stale effect s act)
      (start build value) acts)
    (hquiescent : Quiescent s) :
    ∃ order, order.Perm (drafts reports) ∧ s.value = applyAll effect order value := by
  have hstart : ∃ pending, Ledger effect value pending [] (start build value : Cells ρ κ μ) :=
    ⟨[], rfl, .refl _, List.nodup_nil, fun _ _ => by simp [start, Write.request]⟩
  obtain ⟨pending, hledger⟩ := (machine effect build).run_along_answers
    (I := fun reports s => ∃ pending, Ledger effect value pending reports s)
    (fun _ _ _ _ _ ⟨_, h⟩ hstale hstep => h.step hstale hstep) hstart hstale hrun
  rw [List.nil_append] at hledger
  have hpending : pending = [] := List.eq_nil_iff_forall_not_mem.mpr fun ⟨id, request⟩ hmem =>
    hquiescent id (Write.inProgress_of_request ((hledger.mem_iff id request).mp hmem))
  refine ⟨stores reports, ?_, hledger.value⟩
  have hperm := hledger.perm.symm
  rwa [hpending, List.append_nil] at hperm

/-! ## What a reader loads

With the writers one by one, a pair of loads is torn exactly by one writer's two stores. -/

/-- Writers run one after another: each begins when no other is at work. -/
def OneByOne (s : Cells ρ κ μ) (act : Act ρ) : Prop :=
  ∀ id request, act = .draft id request → Quiescent s

/-- One writer at work at most: half done, it made the last swap, and otherwise the value is the one
of the last swap. -/
structure Orderly (build : κ → μ) (value : κ) (reports : List (Report ρ κ μ)) (s : Cells ρ κ μ) :
    Prop where
  derived : s.derived = build ((lastSwap reports).elim value Prod.snd)
  alone : ∀ id id', (s.writes id).InProgress → (s.writes id').InProgress → id = id'
  half : ∀ id request new, s.writes id = .swapped request new → lastSwap reports = some (id, new)
  settled : (∀ id request new, s.writes id ≠ .swapped request new) →
    s.value = (lastSwap reports).elim value Prod.snd

theorem inProgress_of_swapped {s : Cells ρ κ μ} {id : ℕ} {request : ρ} {new : κ}
    (h : s.writes id = .swapped request new) : (s.writes id).InProgress := by
  rw [h]
  trivial

theorem eq_of_inProgress_update {writes : ℕ → Write ρ κ} {id : ℕ} (write : Write ρ κ)
    (hothers : ∀ id' ≠ id, ¬ (writes id').InProgress) (id' : ℕ)
    (h : (Function.update writes id write id').InProgress) : id' = id := by
  by_contra hid
  rw [Function.update_of_ne hid] at h
  exact hothers id' hid h

namespace Orderly

variable {value : κ} {reports : List (Report ρ κ μ)} {s s' : Cells ρ κ μ} {act : Act ρ}
  {report : Report ρ κ μ} {id : ℕ} {request : ρ} {new : κ}

theorem others (h : Orderly build value reports s) (hprogress : (s.writes id).InProgress) :
    ∀ id' ≠ id, ¬ (s.writes id').InProgress :=
  fun id' hid hother => hid (h.alone id' id hother hprogress)

/-- A writer begins alone. -/
theorem draft (h : Orderly build value reports s) (hquiet : Quiescent s) :
    Orderly build value (reports ++ [.drafted id request]) { s with
      writes := Function.update s.writes id (.drafted request new) } := by
  have honly := eq_of_inProgress_update (.drafted request new) fun id' (_ : id' ≠ id) => hquiet id'
  refine ⟨?_, fun id₁ id₂ h₁ h₂ => (honly id₁ h₁).trans (honly id₂ h₂).symm, ?_, ?_⟩
  · rw [lastSwap_concat]
    exact h.derived
  · intro id' r new' hwrite
    have hid := honly id' (inProgress_of_swapped hwrite)
    rw [hid] at hwrite
    simp at hwrite
  · rw [lastSwap_concat]
    exact fun _ => h.settled fun id' r new' hwrite => hquiet id' (inProgress_of_swapped hwrite)

/-- The writer at work stores what is built from its value. -/
theorem swap (h : Orderly build value reports s) (hwrite : s.writes id = .drafted request new) :
    Orderly build value (reports ++ [.swapped id new]) { s with
      derived := build new
      writes := Function.update s.writes id (.swapped request new) } := by
  have hprogress : (s.writes id).InProgress := by
    rw [hwrite]
    trivial
  have honly := eq_of_inProgress_update (.swapped request new) (h.others hprogress)
  refine ⟨?_, fun id₁ id₂ h₁ h₂ => (honly id₁ h₁).trans (honly id₂ h₂).symm, ?_, ?_⟩
  · rw [lastSwap_concat]
    rfl
  · intro id' r new' hwrite'
    have hid := honly id' (inProgress_of_swapped hwrite')
    rw [hid] at hwrite' ⊢
    simp only [Function.update_self, Write.swapped.injEq] at hwrite'
    rw [lastSwap_concat, hwrite'.2]
  · intro hnone
    exact absurd (Function.update_self ..) (hnone id request new)

/-- It stores its value, and nobody is at work. -/
theorem store (h : Orderly build value reports s) (hwrite : s.writes id = .swapped request new) :
    Orderly build value (reports ++ [.stored id request]) { s with
      value := new
      writes := Function.update s.writes id .done } := by
  have hothers : ∀ id', ¬ (Function.update s.writes id .done id').InProgress := by
    intro id' hprogress
    obtain ⟨hid, hprogress⟩ := inProgress_update_done.mp hprogress
    exact h.others (inProgress_of_swapped hwrite) id' hid hprogress
  refine ⟨?_, fun id₁ _ h₁ => absurd h₁ (hothers id₁), ?_, ?_⟩
  · rw [lastSwap_concat]
    exact h.derived
  · exact fun id' r new' hwrite' => absurd (inProgress_of_swapped hwrite') (hothers id')
  · rw [lastSwap_concat, h.half id request new hwrite]
    exact fun _ => rfl

theorem step (h : Orderly build value reports s) (hserial : OneByOne s act)
    (hstep : (machine effect build).step s act = .ok (s', report)) :
    Orderly build value (reports ++ [report]) s' := by
  obtain ⟨id, request, rfl, -, rfl, rfl⟩ | ⟨id, request, new, -, hwrite, rfl, rfl⟩ |
    ⟨id, request, new, -, hwrite, rfl, rfl⟩ | ⟨hreport, _, rfl⟩ := step_write_cases hstep
  · exact h.draft (hserial id request rfl)
  · exact h.swap hwrite
  · exact h.store hwrite
  · have hlast := lastSwap_concat_of_read reports hreport
    exact ⟨hlast ▸ h.derived, h.alone, hlast ▸ h.half, hlast ▸ h.settled⟩

end Orderly

section

variable {value : κ} {acts acts' : List (Act ρ)} {s s₁ s₂ s₃ : Cells ρ κ μ}
  {reports reports' : List (Report ρ κ μ)} {id reader : ℕ} {v v' : κ} {d : μ}

theorem orderly_start : Orderly build value [] (start build value : Cells ρ κ μ) :=
  ⟨rfl, fun _ _ h => absurd h not_false, fun _ _ _ h => (nomatch h), fun _ => rfl⟩

/-- Writers that run one after another stay in order. -/
theorem Orderly.run (h : Orderly build value reports s)
    (hserial : (machine effect build).Along OneByOne s acts)
    (hrun : (machine effect build).run s acts = .ok (s₁, reports')) :
    Orderly build value (reports ++ reports') s₁ :=
  (machine effect build).run_along_answers (I := fun reports s => Orderly build value reports s)
    (fun _ _ _ _ _ h hserial hstep => h.step hserial hstep) h hserial hrun

/-- A writer that is done stores nothing more. -/
theorem run_done (hdone : s.writes id = .done)
    (hrun : (machine effect build).run s acts = .ok (s₁, reports)) :
    ∀ new, lastSwap reports ≠ some (id, new) := by
  have hstart : s.writes id = .done ∧
      ∀ new, lastSwap ([] : List (Report ρ κ μ)) ≠ some (id, new) := ⟨hdone, fun _ h => by cases h⟩
  refine ((machine effect build).run_along_answers (P := fun _ _ => True)
    (I := fun reports s => s.writes id = .done ∧ ∀ new, lastSwap reports ≠ some (id, new))
    ?_ hstart
    ((machine effect build).along_of_forall_mem (fun _ _ _ => trivial) s) hrun).2
  rintro reports s act s' report ⟨hdone, hnever⟩ - hstep
  have hother : ∀ id', s.writes id' ≠ .done → id ≠ id' := fun id' h hid => h (hid ▸ hdone)
  obtain ⟨id', _, -, hwrite, rfl, rfl⟩ | ⟨id', _, new', -, hwrite, rfl, rfl⟩ |
    ⟨id', _, _, -, hwrite, rfl, rfl⟩ | ⟨hreport, _, rfl⟩ := step_write_cases hstep
  · have hid := hother id' (by simp [hwrite])
    exact ⟨(Function.update_of_ne hid ..).trans hdone, lastSwap_concat reports _ ▸ hnever⟩
  · have hid := hother id' (by simp [hwrite])
    refine ⟨(Function.update_of_ne hid ..).trans hdone, fun new hlast => ?_⟩
    rw [lastSwap_concat] at hlast
    exact hid (congrArg Prod.fst (Option.some.inj hlast)).symm
  · have hid := hother id' (by simp [hwrite])
    exact ⟨(Function.update_of_ne hid ..).trans hdone, lastSwap_concat reports _ ▸ hnever⟩
  · exact ⟨hdone, lastSwap_concat_of_read reports hreport ▸ hnever⟩

/-- A reader holds what it loaded until it is done. -/
theorem run_holding (hhold : s.reads reader = .holding v)
    (hrun : (machine effect build).run s acts = .ok (s₁, reports)) :
    s₁.reads reader = .holding v ∨ s₁.reads reader = .done := by
  refine (machine effect build).run_invariant
    (I := fun s => s.reads reader = .holding v ∨ s.reads reader = .done) ?_ (.inl hhold) hrun
  rintro s act s' report hheld hstep
  obtain ⟨_, _, -, -, -, rfl⟩ | ⟨_, _, _, -, -, -, rfl⟩ | ⟨_, _, _, -, -, -, rfl⟩ |
    ⟨id, -, hidle, -, rfl⟩ | ⟨id, _, -, -, -, rfl⟩ | ⟨-, rfl⟩ := step_cases hstep
  · exact hheld
  · exact hheld
  · exact hheld
  · have hid : reader ≠ id := fun hid => by
      rw [← hid] at hidle
      obtain hheld | hheld := hheld <;> rw [hheld] at hidle <;> cases hidle
    dsimp only
    rwa [Function.update_of_ne hid]
  · by_cases hid : reader = id
    · rw [hid]
      exact .inr (Function.update_self ..)
    · dsimp only
      rwa [Function.update_of_ne hid]
  · exact hheld

theorem step_loaded
    (h : (machine effect build).step s (.load reader) = .ok (s₁, .loaded reader v)) :
    s.value = v ∧ s₁ = { s with reads := Function.update s.reads reader (.holding s.value) } := by
  obtain ⟨_, _, -, -, h, -⟩ | ⟨_, _, _, -, -, h, -⟩ | ⟨_, _, _, -, -, h, -⟩ |
    ⟨_, -, -, hreport, hafter⟩ | ⟨_, _, -, -, h, -⟩ | ⟨h, -⟩ := step_cases h
  · cases h
  · cases h
  · cases h
  · obtain ⟨rfl, rfl⟩ := Report.loaded.inj hreport
    exact ⟨rfl, hafter⟩
  · cases h
  · cases h

theorem step_read
    (h : (machine effect build).step s (.loadDerived reader) = .ok (s₁, .read reader v d)) :
    s.reads reader = .holding v ∧ s.derived = d := by
  obtain ⟨_, _, -, -, h, -⟩ | ⟨_, _, _, -, -, h, -⟩ | ⟨_, _, _, -, -, h, -⟩ |
    ⟨_, -, -, h, -⟩ | ⟨_, _, -, hhold, h, -⟩ | ⟨h, -⟩ := step_cases h
  · cases h
  · cases h
  · cases h
  · cases h
  · obtain ⟨rfl, rfl, rfl⟩ := Report.read.inj h
    exact ⟨hhold, rfl⟩
  · cases h

/-- A reader's second load finds the value of its first. -/
theorem held_eq (hload : (machine effect build).step s (.load reader) = .ok (s₁, .loaded reader v))
    (hbetween : (machine effect build).run s₁ acts' = .ok (s₂, reports'))
    (hread : (machine effect build).step s₂ (.loadDerived reader) = .ok (s₃, .read reader v' d)) :
    v' = v := by
  obtain ⟨rfl, rfl⟩ := step_loaded hload
  obtain ⟨hhold, -⟩ := step_read hread
  obtain hsame | hdone := run_holding (Function.update_self ..) hbetween
  · exact Read.holding.inj (hhold.symm.trans hsame)
  · rw [hdone] at hhold
    cases hhold

/-- No swap yet, and the value is the first one. -/
theorem Orderly.value_of_none (h : Orderly build value reports s)
    (hlast : lastSwap reports = none) : s.value = value := by
  refine (h.settled fun id request new hswapped => ?_).trans (by rw [hlast]; rfl)
  have hsome := h.half id request new hswapped
  rw [hlast] at hsome
  cases hsome

/-- Once the last writer to swap is done, the value is its own. -/
theorem Orderly.value_of_done {new : κ} (h : Orderly build value reports s)
    (hlast : lastSwap reports = some (id, new)) (hdone : s.writes id = .done) : s.value = new := by
  refine (h.settled fun id' request new' hswapped => ?_).trans (by rw [hlast]; rfl)
  have hid : id' = id := congrArg Prod.fst
    (Option.some.inj ((h.half id' request new' hswapped).symm.trans hlast))
  rw [hid, hdone] at hswapped
  cases hswapped

/-- **What a reader loads belongs together** — if and only if it is not so that the last writer to
swap before the reader's second load was not done at its first, and swapped in something other than
what is built from the value loaded. -/
theorem read_consistent_iff
    (hbefore : (machine effect build).run (start build value) acts = .ok (s, reports))
    (hserial : (machine effect build).Along OneByOne (start build value) acts)
    (hload : (machine effect build).step s (.load reader) = .ok (s₁, .loaded reader v))
    (hbetween : (machine effect build).run s₁ acts' = .ok (s₂, reports'))
    (hserial' : (machine effect build).Along OneByOne s₁ acts')
    (hread : (machine effect build).step s₂ (.loadDerived reader) = .ok (s₃, .read reader v' d)) :
    d = build v' ↔ ¬ ∃ id new, lastSwap (reports ++ reports') = some (id, new) ∧
      s.writes id ≠ .done ∧ build new ≠ build v := by
  obtain rfl := held_eq hload hbetween hread
  have horder := orderly_start.run hserial hbefore
  rw [List.nil_append] at horder
  have hend : s₂.derived = build ((lastSwap (reports ++ reports')).elim value Prod.snd) := by
    have hnot : OneByOne s (.load reader : Act ρ) := fun _ _ h => by cases h
    rw [((horder.step hnot hload).run hserial' hbetween).derived, lastSwap_append, lastSwap_concat,
      lastSwap_append]
  obtain ⟨rfl, rfl⟩ := step_loaded hload
  obtain ⟨-, rfl⟩ := step_read hread
  rw [hend]
  constructor
  · rintro hsame ⟨id, new, hlast, -, hne⟩
    rw [hlast] at hsame
    exact hne hsame
  · intro htorn
    cases hlast : lastSwap (reports ++ reports') with
    | none =>
      rw [lastSwap_append, Option.or_eq_none_iff] at hlast
      exact congrArg build (horder.value_of_none hlast.2).symm
    | some e =>
      obtain ⟨id, new⟩ := e
      by_contra hne
      refine htorn ⟨id, new, hlast, fun hdone => hne ?_, hne⟩
      -- a writer done at the first load swaps no more, so the value loaded is its own
      rw [lastSwap_append, Option.or_eq_some_iff] at hlast
      obtain hlast | ⟨-, hlast⟩ := hlast
      · have hdone₁ : ({ s with
            reads := Function.update s.reads reader (.holding s.value) } : Cells ρ κ μ).writes id
              = .done := hdone
        exact absurd hlast (run_done hdone₁ hbetween new)
      · exact congrArg build (horder.value_of_done hlast hdone).symm

end

end Swap
