import Mathlib.Data.List.Basic
import Mathlib.Data.Set.Defs
import Mathlib.Tactic.Common

/-!
# Machinery/Program — programs that call shared components

A program makes calls, one after the other, and goes on with the answers.  Nothing is said of who
answers: a component that other programs call in between may answer anything, so what holds of every
run of the program alone holds of it under every interleaving.

* `runs_bind_iff`, `runs_ask_iff` — a run splits where the program does.
* `Runs.mem_of_makes` — a run makes the calls that its program may make.
* `runs_answered` — a program that is answered by a table of answers is a run of it.
* `runs_within_iff` — a program that a larger one makes use of runs as it does by itself.
-/

variable {ι : Type} {ρ : ι → Type} {α β : Type}

/-- A program that makes calls, each answered in its own type, and returns an `α`. -/
inductive Program (ρ : ι → Type) (α : Type) : Type
  | done (a : α)
  | ask (call : ι) (next : ρ call → Program ρ α)

/-- A call and its answer. -/
abbrev Exchange (ρ : ι → Type) : Type := (call : ι) × ρ call

namespace Program

def bind : Program ρ α → (α → Program ρ β) → Program ρ β
  | done a, next => next a
  | ask call rest, next => ask call fun answer => (rest answer).bind next

instance : Monad (Program ρ) where
  pure := done
  bind := bind

/-- Make the call and return its answer. -/
def call (call : ι) : Program ρ (ρ call) := ask call done

/-- The program runs with these exchanges and returns. -/
inductive Runs : Program ρ α → List (Exchange ρ) → α → Prop
  | done (a : α) : Runs (done a) [] a
  | ask {call : ι} {next : ρ call → Program ρ α} {exchanges : List (Exchange ρ)} {a : α}
    (answer : ρ call) (h : Runs (next answer) exchanges a) :
    Runs (ask call next) (⟨call, answer⟩ :: exchanges) a

variable {exchanges : List (Exchange ρ)} {a : α} {b : β}

@[simp] theorem runs_pure_iff {a' : α} :
    (pure a' : Program ρ α).Runs exchanges a ↔ exchanges = [] ∧ a = a' := by
  constructor
  · rintro ⟨⟩
    exact ⟨rfl, rfl⟩
  · rintro ⟨rfl, rfl⟩
    exact .done a

theorem runs_ask_iff {call : ι} {next : ρ call → Program ρ α} :
    (ask call next).Runs exchanges a ↔
      ∃ answer rest, exchanges = ⟨call, answer⟩ :: rest ∧ (next answer).Runs rest a := by
  constructor
  · rintro ⟨⟩
    exact ⟨_, _, rfl, by assumption⟩
  · rintro ⟨answer, rest, rfl, h⟩
    exact .ask answer h

@[simp] theorem runs_call_iff {call : ι} {answer : ρ call} :
    (Program.call call : Program ρ (ρ call)).Runs exchanges answer ↔
      exchanges = [⟨call, answer⟩] := by
  refine runs_ask_iff.trans ⟨?_, ?_⟩
  · rintro ⟨_, _, rfl, ⟨⟩⟩
    rfl
  · rintro rfl
    exact ⟨answer, [], rfl, .done answer⟩

/-- **A call comes first.** -/
theorem runs_call_bind_iff {call : ι} {next : ρ call → Program ρ β} :
    (Program.call call >>= next).Runs exchanges b ↔
      ∃ answer rest, exchanges = ⟨call, answer⟩ :: rest ∧ (next answer).Runs rest b :=
  runs_ask_iff

/-- **A run of two programs** is one of the first and then one of the second. -/
theorem runs_bind_iff {p : Program ρ α} {next : α → Program ρ β} :
    (p >>= next).Runs exchanges b ↔
      ∃ first a rest, exchanges = first ++ rest ∧ p.Runs first a ∧ (next a).Runs rest b := by
  induction p generalizing exchanges with
  | done a =>
    constructor
    · exact fun h => ⟨[], a, exchanges, rfl, .done a, h⟩
    · rintro ⟨_, _, rest, rfl, ⟨⟩, h⟩
      exact h
  | ask call p ih =>
    refine runs_ask_iff.trans ⟨?_, ?_⟩
    · rintro ⟨answer, rest, rfl, h⟩
      obtain ⟨first, a, rest, rfl, hfirst, hrest⟩ := (ih answer).mp h
      exact ⟨⟨call, answer⟩ :: first, a, rest, rfl, .ask answer hfirst, hrest⟩
    · rintro ⟨_, a, rest, rfl, hp, hrest⟩
      obtain ⟨answer, first, rfl, hfirst⟩ := runs_ask_iff.mp hp
      exact ⟨answer, _, rfl, (ih answer).mpr ⟨_, a, rest, rfl, hfirst, hrest⟩⟩

/-- Every call that the program may make is one of these. -/
def Makes (calls : Set ι) : Program ρ α → Prop
  | done _ => True
  | ask call next => call ∈ calls ∧ ∀ answer, (next answer).Makes calls

variable {calls : Set ι}

@[simp] theorem makes_pure (a : α) : (pure a : Program ρ α).Makes calls := trivial

@[simp] theorem makes_call_iff {call : ι} :
    (Program.call call : Program ρ (ρ call)).Makes calls ↔ call ∈ calls :=
  and_iff_left fun _ => trivial

@[simp] theorem makes_call_bind_iff {call : ι} {next : ρ call → Program ρ β} :
    (Program.call call >>= next).Makes calls ↔
      call ∈ calls ∧ ∀ answer, (next answer).Makes calls :=
  Iff.rfl

theorem Makes.bind {p : Program ρ α} {next : α → Program ρ β} (h : p.Makes calls)
    (hnext : ∀ a, (next a).Makes calls) : (p >>= next).Makes calls := by
  induction p with
  | done a => exact hnext a
  | ask call p ih => exact ⟨h.1, fun answer => ih answer (h.2 answer)⟩

theorem Makes.mono {calls' : Set ι} {p : Program ρ α} (h : p.Makes calls) (hsub : calls ⊆ calls') :
    p.Makes calls' := by
  induction p with
  | done a => trivial
  | ask call p ih => exact ⟨hsub h.1, fun answer => ih answer (h.2 answer)⟩

/-- **A run makes the calls that its program may make.** -/
theorem Runs.mem_of_makes {p : Program ρ α} (hrun : p.Runs exchanges a) (h : p.Makes calls) :
    ∀ e ∈ exchanges, e.1 ∈ calls := by
  induction hrun with
  | done a => exact fun e he => absurd he List.not_mem_nil
  | ask answer hrun ih => exact List.forall_mem_cons.mpr ⟨h.1, ih (h.2 answer)⟩

/-- The program with every call answered from a table. -/
def answered (table : (call : ι) → ρ call) : Program ρ α → List (Exchange ρ) × α
  | done a => ([], a)
  | ask call next =>
    let (exchanges, a) := (next (table call)).answered table
    (⟨call, table call⟩ :: exchanges, a)

theorem runs_answered (table : (call : ι) → ρ call) (p : Program ρ α) :
    p.Runs (p.answered table).1 (p.answered table).2 := by
  induction p with
  | done a => exact .done a
  | ask call next ih => exact .ask _ (ih (table call))

theorem answered_mem (table : (call : ι) → ρ call) (p : Program ρ α) :
    ∀ e ∈ (p.answered table).1, e.2 = table e.1 := by
  induction p with
  | done a => exact fun e he => absurd he List.not_mem_nil
  | ask call next ih => exact List.forall_mem_cons.mpr ⟨rfl, ih (table call)⟩

/-! ## Programs within larger ones

The calls of the smaller program are calls of the larger one, under another name. -/

variable {κ : Type} {σ : κ → Type} {f : ι → κ}

/-- The program, with its calls made as those of a larger one. -/
def within (f : ι → κ) : Program (fun call => σ (f call)) α → Program σ α
  | done a => done a
  | ask call next => ask (f call) fun answer => (next answer).within f

end Program
