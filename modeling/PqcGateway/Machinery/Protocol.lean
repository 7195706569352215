import PqcGateway.Machinery.Program

/-!
# Machinery/Protocol — what a program may do next

    phase ──exchange──▸ phase ──exchange──▸ …

A protocol is an automaton that reads exchanges: in a phase it allows some, and each leads to a
phase.  A program follows a protocol if it makes no exchange that is not allowed, whatever it is
answered, and returns only in phases where a postcondition holds (`Follows`).  What holds of the
phase then holds of the program wherever it stands, also if it never returns.

* `follows_call_bind_iff`, `Follows.bind` — the rules for a call and for two programs.
* `Follows.reaches` — a program that follows a protocol follows it from wherever it gets.
* `Protocol.Leads.countP_eq` — the phase counts the exchanges of a kind.
-/

variable {ι : Type} {ρ : ι → Type} {α β φ : Type}

/-- Which exchanges are allowed in a phase, and the phases they lead to. -/
abbrev Protocol (ρ : ι → Type) (φ : Type) : Type := φ → Exchange ρ → φ → Prop

namespace Protocol

/-- The exchanges, one after the other, lead from one phase to the other. -/
def Leads (P : Protocol ρ φ) : φ → List (Exchange ρ) → φ → Prop
  | phase, [], phase' => phase' = phase
  | phase, e :: exchanges, phase' => ∃ phase₁, P phase e phase₁ ∧ P.Leads phase₁ exchanges phase'

variable {P : Protocol ρ φ} {phase phase' : φ} {exchanges : List (Exchange ρ)}

/-- A protocol that also asks something of each exchange. -/
theorem Leads.restrict {Q : Exchange ρ → Prop} (h : P.Leads phase exchanges phase')
    (hQ : ∀ e ∈ exchanges, Q e) :
    Leads (fun phase e phase' => P phase e phase' ∧ Q e) phase exchanges phase' := by
  induction exchanges generalizing phase with
  | nil => exact h
  | cons e exchanges ih =>
    obtain ⟨phase₁, hfirst, hrest⟩ := h
    obtain ⟨he, hexchanges⟩ := List.forall_mem_cons.mp hQ
    exact ⟨phase₁, ⟨hfirst, he⟩, ih hrest hexchanges⟩

/-- **Each exchange was allowed** where it was made. -/
theorem Leads.exists_step {I : φ → Prop}
    (hP : ∀ phase e phase', I phase → P phase e phase' → I phase') (hI : I phase)
    (h : P.Leads phase exchanges phase') {e : Exchange ρ} (he : e ∈ exchanges) :
    ∃ phase₁ phase₂, I phase₁ ∧ P phase₁ e phase₂ := by
  induction exchanges generalizing phase with
  | nil => exact absurd he List.not_mem_nil
  | cons e' exchanges ih =>
    obtain ⟨phase₁, hfirst, hrest⟩ := h
    obtain rfl | he := List.mem_cons.mp he
    · exact ⟨phase, phase₁, hI, hfirst⟩
    · exact ih (hP phase e' phase₁ hI hfirst) hrest he

/-- What every allowed exchange keeps holds wherever exchanges lead. -/
theorem Leads.invariant {I : φ → Prop}
    (hP : ∀ phase e phase', I phase → P phase e phase' → I phase') (hI : I phase)
    (h : P.Leads phase exchanges phase') : I phase' := by
  induction exchanges generalizing phase with
  | nil =>
    obtain rfl : phase' = phase := h
    exact hI
  | cons e exchanges ih =>
    obtain ⟨phase₁, hfirst, hrest⟩ := h
    exact ih (hP phase e phase₁ hI hfirst) hrest

/-- **The phase counts exchanges**, if every one that is allowed is counted, where `I` holds. -/
theorem Leads.countP_eq {I : φ → Prop} {f : φ → ℕ} {k : Exchange ρ → Bool}
    (hP : ∀ phase e phase', I phase → P phase e phase' → I phase')
    (hf : ∀ phase e phase', I phase → P phase e phase' →
      f phase' = f phase + if k e then 1 else 0)
    (hI : I phase) (h : P.Leads phase exchanges phase') :
    f phase' = f phase + exchanges.countP k := by
  induction exchanges generalizing phase with
  | nil =>
    obtain rfl : phase' = phase := h
    rfl
  | cons e exchanges ih =>
    obtain ⟨phase₁, hfirst, hrest⟩ := h
    rw [ih (hP phase e phase₁ hI hfirst) hrest, hf phase e phase₁ hI hfirst, List.countP_cons]
    omega

/-- **What was done before an exchange**: the property is one of the phase and of the exchanges that
led to it. -/
theorem Leads.exists_step_after {I : List (Exchange ρ) → φ → Prop} {a : List (Exchange ρ)}
    (hP : ∀ done phase e phase', I done phase → P phase e phase' → I (done ++ [e]) phase')
    (hI : I a phase) (h : P.Leads phase exchanges phase') {e : Exchange ρ}
    (he : e ∈ exchanges) :
    ∃ before phase₁ phase₂, before <+: exchanges ∧ I (a ++ before) phase₁ ∧
      P phase₁ e phase₂ := by
  induction exchanges generalizing phase a with
  | nil => exact absurd he List.not_mem_nil
  | cons e' exchanges ih =>
    obtain ⟨phase₁, hfirst, hrest⟩ := h
    obtain rfl | he := List.mem_cons.mp he
    · exact ⟨[], phase, phase₁, List.nil_prefix, by rwa [List.append_nil], hfirst⟩
    · obtain ⟨before, phase₂, phase₃, hprefix, hbefore, hstep⟩ :=
        ih (hP a phase e' phase₁ hI hfirst) hrest he
      refine ⟨e' :: before, phase₂, phase₃, List.cons_prefix_cons.mpr ⟨rfl, hprefix⟩, ?_, hstep⟩
      rwa [List.append_cons]

/-- **A rank that each allowed exchange lowers** bounds how many there can be. -/
theorem Leads.length_add_le {f : φ → ℕ}
    (hP : ∀ phase e phase', P phase e phase' → f phase' < f phase)
    (h : P.Leads phase exchanges phase') : exchanges.length + f phase' ≤ f phase := by
  induction exchanges generalizing phase with
  | nil =>
    obtain rfl : phase' = phase := h
    simp
  | cons e exchanges ih =>
    obtain ⟨phase₁, hfirst, hrest⟩ := h
    have hlower := hP phase e phase₁ hfirst
    have hle := ih hrest
    rw [List.length_cons]
    omega

end Protocol

namespace Program

/-! ## Getting somewhere

What is left of a program after some of its exchanges. -/

/-- After these exchanges, the program is left with the other. -/
inductive Reaches : Program ρ α → List (Exchange ρ) → Program ρ α → Prop
  | refl (p : Program ρ α) : Reaches p [] p
  | ask {call : ι} {next : ρ call → Program ρ α} {exchanges : List (Exchange ρ)}
    {q : Program ρ α} (answer : ρ call) (h : Reaches (next answer) exchanges q) :
    Reaches (ask call next) (⟨call, answer⟩ :: exchanges) q

/-- One more exchange. -/
theorem Reaches.concat {p : Program ρ α} {exchanges : List (Exchange ρ)} {call : ι}
    {next : ρ call → Program ρ α} (h : p.Reaches exchanges (.ask call next)) (answer : ρ call) :
    p.Reaches (exchanges ++ [⟨call, answer⟩]) (next answer) := by
  generalize hq : Program.ask call next = q at h
  induction h with
  | refl p =>
    subst hq
    exact .ask answer (.refl _)
  | ask answer' h ih => exact .ask answer' (ih hq)

/-- **A program that has nothing left has returned.** -/
theorem reaches_done_iff {p : Program ρ α} {exchanges : List (Exchange ρ)} {a : α} :
    p.Reaches exchanges (done a) ↔ p.Runs exchanges a := by
  constructor
  · intro h
    generalize hq : done a = q at h
    induction h with
    | refl p =>
      subst hq
      exact .done a
    | ask answer h ih => exact .ask answer (ih hq)
  · intro h
    induction h with
    | done a => exact .refl _
    | ask answer h ih => exact .ask answer ih

/-! ## Following a protocol

By recursion on the program: each call is allowed, and every answer to it leads on. -/

/-- From this phase on, the program makes only exchanges that the protocol allows, and what it
returns is as `post` says. -/
def Follows (P : Protocol ρ φ) (post : φ → α → Prop) : Program ρ α → φ → Prop
  | done a, phase => post phase a
  | ask call next, phase => ∀ answer, ∃ phase', P phase ⟨call, answer⟩ phase' ∧
      (next answer).Follows P post phase'

section

variable {P : Protocol ρ φ} {post : φ → α → Prop} {phase : φ}

@[simp] theorem follows_pure_iff {a : α} :
    (pure a : Program ρ α).Follows P post phase ↔ post phase a := Iff.rfl

theorem follows_call_bind_iff {call : ι} {next : ρ call → Program ρ α} :
    (Program.call call >>= next).Follows P post phase ↔
      ∀ answer, ∃ phase', P phase ⟨call, answer⟩ phase' ∧
        (next answer).Follows P post phase' := Iff.rfl

/-- **Two programs**: what the first returns, and where, is what the second starts from. -/
theorem Follows.bind {p : Program ρ β} {next : β → Program ρ α} {mid : φ → β → Prop}
    (hp : p.Follows P mid phase)
    (hnext : ∀ phase' b, mid phase' b → (next b).Follows P post phase') :
    (p >>= next).Follows P post phase := by
  induction p generalizing phase with
  | done b => exact hnext phase b hp
  | ask call p ih =>
    intro answer
    obtain ⟨phase', hallowed, hrest⟩ := hp answer
    exact ⟨phase', hallowed, ih answer hrest⟩

/-- **Wherever the program gets**, its exchanges lead to a phase that the rest follows from. -/
theorem Follows.reaches {p q : Program ρ α} {exchanges : List (Exchange ρ)}
    (hp : p.Follows P post phase) (hreach : p.Reaches exchanges q) :
    ∃ phase', P.Leads phase exchanges phase' ∧ q.Follows P post phase' := by
  induction hreach generalizing phase with
  | refl p => exact ⟨phase, rfl, hp⟩
  | ask answer hreach ih =>
    obtain ⟨phase₁, hallowed, hrest⟩ := hp answer
    obtain ⟨phase', hleads, hq⟩ := ih hrest
    exact ⟨phase', ⟨phase₁, hallowed, hleads⟩, hq⟩

end

end Program
