import Mathlib.Algebra.Group.Nat.Defs
import Mathlib.Tactic.Common

/-!
# Machinery/Checked — computations that may panic

A Rust call either returns or panics.  `Checked α` is that alternative, so an assertion, an index
out of range and an arithmetic overflow are visible in the type and a statement that a call returns
is a statement that it does not panic.  Fixed-width counters are natural numbers whose additions
are checked against the width (`checkedAdd`).  `Fallible α` is a call that returns a `Result`
besides.

* `bind_eq_ok`, `bind_eq_pure` — a computation in two steps returns exactly if both do.
* `checkedAdd_eq_ok`, `assert_eq_ok` — when one step does.
-/

/-- A panic: the call unwinds with this message. -/
structure Panic where
  message : String
deriving DecidableEq, Repr

/-- A computation that returns a value or panics. -/
abbrev Checked : Type → Type := Except Panic

/-- A sequence of two calls returns exactly when both do. -/
theorem Except.bind_eq_ok {ε α β : Type} {x : Except ε α} {f : α → Except ε β} {b : β} :
    x >>= f = .ok b ↔ ∃ a, x = .ok a ∧ f a = .ok b := by
  cases x <;> simp [bind, Except.bind]

namespace Checked

variable {α β : Type}

/-- The call panics. -/
def panicWith (message : String) : Checked α := .error ⟨message⟩

/-- `assert!(p, message)`. -/
def assert (p : Prop) [Decidable p] (message : String) : Checked Unit :=
  if p then .ok () else panicWith message

/-- `a + b` on unsigned integers of `w` bits, overflow checked. -/
def checkedAdd (w a b : ℕ) : Checked ℕ :=
  if a + b < 2 ^ w then .ok (a + b) else panicWith "attempt to add with overflow"

/-- `a * b` on unsigned integers of `w` bits, overflow checked. -/
def checkedMul (w a b : ℕ) : Checked ℕ :=
  if a * b < 2 ^ w then .ok (a * b) else panicWith "attempt to multiply with overflow"

/-- `a - b` on unsigned integers, overflow checked. -/
def checkedSub (a b : ℕ) : Checked ℕ :=
  if b ≤ a then .ok (a - b) else panicWith "attempt to subtract with overflow"

/-- `xs[i]`. -/
def index (xs : List α) (i : ℕ) : Checked α :=
  match xs[i]? with
  | some x => .ok x
  | none => panicWith ("index out of bounds: the len is " ++ toString xs.length ++
      " but the index is " ++ toString i)

theorem bind_eq_ok {x : Checked α} {f : α → Checked β} {b : β} :
    x >>= f = .ok b ↔ ∃ a, x = .ok a ∧ f a = .ok b := Except.bind_eq_ok

@[simp] theorem ok_bind (a : α) (f : α → Checked β) : (Except.ok a : Checked α) >>= f = f a := rfl

@[simp] theorem error_bind (p : Panic) (f : α → Checked β) :
    (Except.error p : Checked α) >>= f = .error p := rfl

theorem assert_eq_ok {p : Prop} [Decidable p] {message : String} {u : Unit} :
    assert p message = .ok u ↔ p := by
  unfold assert panicWith
  split <;> simp [*]

theorem assert_of {p : Prop} [Decidable p] (h : p) (message : String) :
    assert p message = .ok () := if_pos h

theorem checkedAdd_eq_ok {w a b c : ℕ} :
    checkedAdd w a b = .ok c ↔ a + b < 2 ^ w ∧ c = a + b := by
  unfold checkedAdd panicWith
  split <;> simp [*, eq_comm]

theorem checkedAdd_of_lt {w a b : ℕ} (h : a + b < 2 ^ w) : checkedAdd w a b = .ok (a + b) :=
  if_pos h

theorem checkedMul_of_lt {w a b : ℕ} (h : a * b < 2 ^ w) : checkedMul w a b = .ok (a * b) :=
  if_pos h

theorem index_of_getElem? {xs : List α} {i : ℕ} {x : α} (h : xs[i]? = some x) :
    index xs i = .ok x := by
  simp only [index, h]

theorem checkedSub_of_le {a b : ℕ} (h : b ≤ a) : checkedSub a b = .ok (a - b) := if_pos h

theorem le_of_checkedSub_eq_ok {a b c : ℕ} (h : checkedSub a b = .ok c) : b ≤ a := by
  unfold checkedSub panicWith at h
  split at h
  · assumption
  · cases h

end Checked

/-- A loop whose every turn returns a value returns the list of values. -/
theorem List.mapM_eq_pure {m : Type → Type} [Monad m] [LawfulMonad m] {ι α : Type} {f : ι → m α}
    {g : ι → α} {l : List ι} (h : ∀ i ∈ l, f i = pure (g i)) : l.mapM f = pure (l.map g) := by
  induction l with
  | nil => exact List.mapM_nil
  | cons i l ih =>
    rw [List.mapM_cons, h i List.mem_cons_self, ih fun j hj => h j (List.mem_cons_of_mem i hj)]
    simp

/-- Calls that each return a value return the list of values. -/
theorem List.mapM_of_forall₂ {m : Type → Type} [Monad m] [LawfulMonad m] {ι α : Type} {f : ι → m α}
    {l : List ι} {as : List α} (h : List.Forall₂ (fun i a => f i = pure a) l as) :
    l.mapM f = pure as := by
  induction h with
  | nil => exact List.mapM_nil
  | cons hi _ ih =>
    rw [List.mapM_cons, hi, ih]
    simp

/-- A loop whose every turn returns. -/
theorem List.foldlM_eq_pure {m : Type → Type} [Monad m] [LawfulMonad m] {α β : Type}
    {f : β → α → m β} {g : β → α → β} {l : List α} (h : ∀ a ∈ l, ∀ b, f b a = pure (g b a))
    (b : β) : l.foldlM f b = pure (l.foldl g b) := by
  induction l generalizing b with
  | nil => rfl
  | cons a l ih =>
    rw [List.foldlM_cons, h a List.mem_cons_self, pure_bind,
      ih fun a' ha' => h a' (List.mem_cons_of_mem a ha')]
    rfl

/-- **A loop whose turns return or end by one panic** ends by it, if a turn does. -/
theorem List.foldlM_panics {α β : Type} {f : β → α → Checked β} {p : Panic} {l : List α}
    (hturn : ∀ a ∈ l, ∀ b, (∃ b', f b a = .ok b') ∨ f b a = .error p)
    (hpanic : ∃ a ∈ l, ∀ b, f b a = .error p) (b : β) : l.foldlM f b = .error p := by
  induction l generalizing b with
  | nil =>
    obtain ⟨a, ha, -⟩ := hpanic
    cases ha
  | cons a l ih =>
    rw [List.foldlM_cons]
    obtain ⟨b', hb⟩ | hb := hturn a List.mem_cons_self b
    · -- the turn that panics is still to come
      have hrest : ∃ a ∈ l, ∀ b, f b a = .error p := by
        obtain ⟨a', ha', hp⟩ := hpanic
        obtain rfl | ha' := List.mem_cons.mp ha'
        · rw [hp b] at hb
          cases hb
        · exact ⟨a', ha', hp⟩
      rw [hb, Checked.ok_bind]
      exact ih (fun a' ha' => hturn a' (List.mem_cons_of_mem a ha')) hrest b'
    · rw [hb, Checked.error_bind]

/-! ## Calls that return an error

A `Result` inside a computation that may panic.  An early return with an error is not a panic, so
three outcomes are told apart. -/

/-- A call that returns a `Result`, the error as its text, or panics. -/
abbrev Fallible : Type → Type := ExceptT String Checked

namespace Fallible

variable {α β ε : Type}

/-- A sequence of two calls returns a value exactly when both do. -/
theorem bind_eq_pure {x : Fallible α} {f : α → Fallible β} {b : β} :
    x >>= f = pure b ↔ ∃ a, x = pure a ∧ f a = pure b := by
  rcases x with p | e | a
  · exact iff_of_false (by rintro ⟨⟩) (by rintro ⟨a, ⟨⟩, -⟩)
  · exact iff_of_false (by rintro ⟨⟩) (by rintro ⟨a, ⟨⟩, -⟩)
  · constructor
    · exact fun h => ⟨a, rfl, h⟩
    · rintro ⟨a, ⟨⟩, h⟩
      exact h

/-- `map_err` and `?`: the error becomes a text and ends the call. -/
def mapErr (message : ε → String) : Except ε α → Fallible α
  | .ok a => pure a
  | .error e => throw (message e)

@[simp] theorem mapErr_ok (message : ε → String) (a : α) :
    mapErr message (.ok a) = pure a := rfl

/-- A call that cannot fail, made by one that can. -/
@[simp] theorem liftM_ok (a : α) : (liftM (Except.ok a : Checked α) : Fallible α) = pure a := rfl

theorem liftM_eq_pure {x : Checked α} {a : α} : (liftM x : Fallible α) = pure a ↔ x = .ok a := by
  rcases x with p | b
  · exact iff_of_false (by rintro ⟨⟩) (by rintro ⟨⟩)
  · exact ⟨fun h => congrArg Except.ok (Except.ok.inj (Except.ok.inj h)), fun h => h ▸ rfl⟩

/-- A call that cannot fail does not. -/
theorem liftM_ne_throw (x : Checked α) (e : String) : (liftM x : Fallible α) ≠ throw e := by
  rcases x with p | a
  · rintro ⟨⟩
  · rintro ⟨⟩

/-- The call returns, a value or an error. -/
def Returns (x : Fallible α) : Prop := ∃ result : Except String α, x.run = .ok result

theorem returns_pure (a : α) : Returns (pure a) := ⟨_, rfl⟩

theorem returns_throw (e : String) : Returns (throw e : Fallible α) := ⟨_, rfl⟩

/-- What is always followed by a call that returns, returns if it does itself. -/
theorem returns_bind_iff {x : Fallible α} {f : α → Fallible β} (hf : ∀ a, Returns (f a)) :
    Returns (x >>= f) ↔ Returns x := by
  rcases x with p | e | a
  · exact iff_of_false (by rintro ⟨_, ⟨⟩⟩) (by rintro ⟨_, ⟨⟩⟩)
  · exact iff_of_true ⟨_, rfl⟩ ⟨_, rfl⟩
  · exact iff_of_true (hf a) ⟨_, rfl⟩

theorem throw_ne_pure (e : String) (a : α) : (throw e : Fallible α) ≠ pure a := by
  rintro ⟨⟩

theorem map_eq_pure {f : α → β} {x : Fallible α} {b : β} :
    f <$> x = pure b ↔ ∃ a, x = pure a ∧ f a = b := by
  rw [map_eq_pure_bind, bind_eq_pure]
  exact exists_congr fun a => and_congr_right fun _ =>
    ⟨fun h => Except.ok.inj (Except.ok.inj h), fun h => congrArg pure h⟩

end Fallible
