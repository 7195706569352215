import PqcGateway.Machinery.Checked

/-!
# Machinery/Runs — a component driven by calls

A `Machine` answers one call at a time and moves its state; a call may panic, which ends the run.
Calls made by concurrent callers under one lock are a run of the machine, so a fact about every run
is a fact about every interleaving.  `run_along` is the one induction: a property of the state and
of the calls made so far that each call keeps holds after every run.

* `run_cons_eq_ok`, `run_append_eq_ok` — a run in parts.
* `run_project` — a part of the state that moves by itself runs by itself.
* `forall_turns_iff` — what every turn keeps, if and only if its call is of a kind.
-/

/-- A component with state `σ`, calls `α` and answers `ο`. -/
structure Machine (σ α ο : Type) where
  step : σ → α → Checked (σ × ο)

namespace Machine

variable {σ α ο : Type} (M : Machine σ α ο)

/-- The calls, one after the other, with their answers. -/
def run : σ → List α → Checked (σ × List ο)
  | s, [] => .ok (s, [])
  | s, a :: as => do
    let (s₁, o) ← M.step s a
    let (s₂, os) ← run s₁ as
    pure (s₂, o :: os)

@[simp] theorem run_nil (s : σ) : M.run s [] = .ok (s, []) := rfl

theorem run_cons_eq_ok {s t : σ} {a : α} {as : List α} {os : List ο} :
    M.run s (a :: as) = .ok (t, os) ↔
      ∃ s₁ o os', M.step s a = .ok (s₁, o) ∧ M.run s₁ as = .ok (t, os') ∧ os = o :: os' := by
  rw [run]
  simp only [Checked.bind_eq_ok, pure, Except.pure, Except.ok.injEq, Prod.mk.injEq, Prod.exists]
  constructor
  · rintro ⟨s₁, o, h₁, s₂, os', h₂, rfl, rfl⟩
    exact ⟨s₁, o, os', h₁, h₂, rfl⟩
  · rintro ⟨s₁, o, os', h₁, h₂, rfl⟩
    exact ⟨s₁, o, h₁, t, os', h₂, rfl, rfl⟩

/-- **A run splits at any call.** -/
theorem run_append_eq_ok {s t : σ} {as bs : List α} {os : List ο} :
    M.run s (as ++ bs) = .ok (t, os) ↔
      ∃ s₁ os₁ os₂, M.run s as = .ok (s₁, os₁) ∧ M.run s₁ bs = .ok (t, os₂) ∧
        os = os₁ ++ os₂ := by
  induction as generalizing s os with
  | nil => simp
  | cons a as ih =>
    simp only [List.cons_append, run_cons_eq_ok, ih]
    constructor
    · rintro ⟨s₁, o, _, h₁, ⟨s₂, os₁, os₂, h₂, h₃, rfl⟩, rfl⟩
      exact ⟨s₂, o :: os₁, os₂, ⟨s₁, o, os₁, h₁, h₂, rfl⟩, h₃, rfl⟩
    · rintro ⟨s₂, _, os₂, ⟨s₁, o, os₁, h₁, h₂, rfl⟩, h₃, rfl⟩
      exact ⟨s₁, o, os₁ ++ os₂, h₁, ⟨s₂, os₁, os₂, h₂, h₃, rfl⟩, rfl⟩

/-- A run and one more call. -/
theorem run_concat {s t u : σ} {as : List α} {os : List ο} {a : α} {o : ο}
    (h : M.run s as = .ok (t, os)) (hstep : M.step t a = .ok (u, o)) :
    M.run s (as ++ [a]) = .ok (u, os ++ [o]) :=
  M.run_append_eq_ok.mpr ⟨t, os, [o], h, M.run_cons_eq_ok.mpr ⟨u, o, [], hstep, rfl, rfl⟩, rfl⟩

/-- Every call of a run that returned is answered. -/
theorem length_answers {s t : σ} {as : List α} {os : List ο} (h : M.run s as = .ok (t, os)) :
    os.length = as.length := by
  induction as generalizing s os with
  | nil =>
    obtain ⟨-, rfl⟩ := Prod.mk.inj (Except.ok.inj h)
    rfl
  | cons a as ih =>
    obtain ⟨s₁, o, os', -, h₂, rfl⟩ := M.run_cons_eq_ok.mp h
    rw [List.length_cons, List.length_cons, ih h₂]

/-- **A part that runs by itself.**  Where the calls that `p` picks move the part `π` of the state
as `N` does, and the others leave it, a run of `M` is a run of `N` on that part. -/
theorem run_project {τ : Type} (N : Machine τ α ο) {p : α → Bool} {π : σ → τ} {I : σ → Prop}
    (hinv : ∀ s a s' o, I s → M.step s a = .ok (s', o) → I s')
    (hself : ∀ s a s' o, I s → M.step s a = .ok (s', o) → p a = true →
      N.step (π s) a = .ok (π s', o))
    (hother : ∀ s a s' o, I s → M.step s a = .ok (s', o) → p a = false → π s' = π s)
    {s t : σ} {as : List α} {os : List ο} (hI : I s) (hrun : M.run s as = .ok (t, os)) :
    N.run (π s) (((as.zip os).filter fun e => p e.1).map Prod.fst)
      = .ok (π t, ((as.zip os).filter fun e => p e.1).map Prod.snd) := by
  induction as generalizing s os with
  | nil =>
    obtain ⟨rfl, rfl⟩ := Prod.mk.inj (Except.ok.inj hrun)
    rfl
  | cons a as ih =>
    obtain ⟨s₁, o, os, hstep, hrest, rfl⟩ := M.run_cons_eq_ok.mp hrun
    have hcalls := ih (hinv s a s₁ o hI hstep) hrest
    rw [List.zip_cons_cons]
    cases hp : p a with
    | true =>
      rw [List.filter_cons_of_pos (by exact hp)]
      exact N.run_cons_eq_ok.mpr ⟨_, o, _, hself s a s₁ o hI hstep hp, hcalls, rfl⟩
    | false =>
      rw [List.filter_cons_of_neg (by simp [hp]), ← hother s a s₁ o hI hstep hp]
      exact hcalls

/-- **A machine that never panics finishes every run.** -/
theorem run_total (htotal : ∀ s a, ∃ r, M.step s a = .ok r) (s : σ) (as : List α) :
    ∃ t os, M.run s as = .ok (t, os) := by
  induction as generalizing s with
  | nil => exact ⟨s, [], rfl⟩
  | cons a as ih =>
    obtain ⟨⟨s₁, o⟩, hstep⟩ := htotal s a
    obtain ⟨t, os, hrest⟩ := ih s₁
    exact ⟨t, o :: os, M.run_cons_eq_ok.mpr ⟨s₁, o, os, hstep, hrest, rfl⟩⟩

/-- A call made in the state `before`, answered in the state `after`. -/
structure Turn (σ α ο : Type) where
  before : σ
  call : α
  answer : ο
  after : σ

/-- The turns of a run, up to a panic. -/
def turns : σ → List α → List (Turn σ α ο)
  | _, [] => []
  | s, a :: as =>
    match M.step s a with
    | .ok (s₁, o) => ⟨s, a, o, s₁⟩ :: turns s₁ as
    | .error _ => []

theorem turns_cons {s s₁ : σ} {a : α} {o : ο} (h : M.step s a = .ok (s₁, o)) (as : List α) :
    M.turns s (a :: as) = ⟨s, a, o, s₁⟩ :: M.turns s₁ as := by
  rw [turns, h]

/-- **Every turn is a step.** -/
theorem step_of_mem_turns {s : σ} {as : List α} {turn : Turn σ α ο} (h : turn ∈ M.turns s as) :
    M.step turn.before turn.call = .ok (turn.after, turn.answer) := by
  induction as generalizing s with
  | nil => cases h
  | cons a as ih =>
    cases hstep : M.step s a with
    | error p => simp [turns, hstep] at h
    | ok r =>
      rw [M.turns_cons hstep, List.mem_cons] at h
      obtain rfl | h := h
      · exact hstep
      · exact ih h

/-- Every turn is of a call of the run. -/
theorem mem_of_mem_turns {s : σ} {as : List α} {turn : Turn σ α ο} (h : turn ∈ M.turns s as) :
    turn.call ∈ as := by
  induction as generalizing s with
  | nil => cases h
  | cons a as ih =>
    cases hstep : M.step s a with
    | error p => simp [turns, hstep] at h
    | ok r =>
      rw [M.turns_cons hstep, List.mem_cons] at h
      obtain rfl | h := h
      · exact List.mem_cons_self
      · exact List.mem_cons_of_mem _ (ih h)

/-- A property that a turn keeps exactly if `P` holds of its call holds after every turn exactly if
`P` holds of every call made. -/
theorem forall_turns_iff {I : σ → Prop} {P : α → Prop}
    (hstep : ∀ s a s' o, I s → M.step s a = .ok (s', o) → (I s' ↔ P a)) {s : σ} {as : List α}
    (hI : I s) :
    (∀ turn ∈ M.turns s as, I turn.after) ↔ ∀ turn ∈ M.turns s as, P turn.call := by
  induction as generalizing s with
  | nil => exact iff_of_true (by simp [turns]) (by simp [turns])
  | cons a as ih =>
    cases hmake : M.step s a with
    | error p => exact iff_of_true (by simp [turns, hmake]) (by simp [turns, hmake])
    | ok r =>
      obtain ⟨s₁, o⟩ := r
      have hfirst := hstep s a s₁ o hI hmake
      rw [M.turns_cons hmake, List.forall_mem_cons, List.forall_mem_cons, hfirst]
      exact and_congr_right fun hP => ih (hfirst.mpr hP)

/-- One more call is one more turn. -/
theorem turns_concat {s t u : σ} {as : List α} {os : List ο} {a : α} {o : ο}
    (h : M.run s as = .ok (t, os)) (hstep : M.step t a = .ok (u, o)) :
    M.turns s (as ++ [a]) = M.turns s as ++ [⟨t, a, o, u⟩] := by
  induction as generalizing s os with
  | nil =>
    obtain ⟨rfl, -⟩ := Prod.mk.inj (Except.ok.inj h)
    rw [List.nil_append, M.turns_cons hstep]
    rfl
  | cons b as ih =>
    obtain ⟨s₁, o₁, os', h₁, h₂, -⟩ := M.run_cons_eq_ok.mp h
    rw [List.cons_append, M.turns_cons h₁, M.turns_cons h₁, ih h₂, List.cons_append]

/-- The last call of a run is its last turn. -/
theorem mem_turns_concat {s t u : σ} {as : List α} {os : List ο} {a : α} {o : ο}
    (h : M.run s as = .ok (t, os)) (hstep : M.step t a = .ok (u, o)) :
    ⟨t, a, o, u⟩ ∈ M.turns s (as ++ [a]) := by
  rw [M.turns_concat h hstep]
  exact List.mem_append_right _ List.mem_cons_self

/-- Where no call panics, every call is made. -/
theorem exists_turn_of_mem (htotal : ∀ s a, ∃ r, M.step s a = .ok r) {s : σ} {as : List α} {a : α}
    (h : a ∈ as) : ∃ turn ∈ M.turns s as, turn.call = a := by
  induction as generalizing s with
  | nil => cases h
  | cons b as ih =>
    obtain ⟨⟨s₁, o⟩, hstep⟩ := htotal s b
    rw [M.turns_cons hstep]
    obtain rfl | h := List.mem_cons.mp h
    · exact ⟨_, List.mem_cons_self, rfl⟩
    · obtain ⟨turn, hturn, hcall⟩ := ih (s := s₁) h
      exact ⟨turn, List.mem_cons_of_mem _ hturn, hcall⟩

/-- Every call of the run from `s` is made in a state where `P` holds of it. -/
def Along (P : σ → α → Prop) : σ → List α → Prop
  | _, [] => True
  | s, a :: as => P s a ∧ ∀ s' o, M.step s a = .ok (s', o) → Along P s' as

theorem along_of_forall_mem {P : σ → α → Prop} {as : List α} (hP : ∀ a ∈ as, ∀ s, P s a) (s : σ) :
    M.Along P s as := by
  induction as generalizing s with
  | nil => trivial
  | cons a as ih =>
    exact ⟨hP a List.mem_cons_self s,
      fun s' _ _ => ih (fun b hb => hP b (List.mem_cons_of_mem a hb)) s'⟩

/-- Where every call keeps `I`, a condition need only follow where `I` holds. -/
theorem along_mono {P Q : σ → α → Prop} {I : σ → Prop}
    (hinv : ∀ s a s' o, I s → M.step s a = .ok (s', o) → I s')
    (himp : ∀ s a, I s → P s a → Q s a) {s : σ} {as : List α} (hI : I s)
    (halong : M.Along P s as) : M.Along Q s as := by
  induction as generalizing s with
  | nil => trivial
  | cons a as ih =>
    exact ⟨himp s a hI halong.1, fun s' o h => ih (hinv s a s' o hI h) (halong.2 s' o h)⟩

/-- **Run induction.**  `I h s` says what the state `s` is after the calls `h`; it need only be kept
by the calls that `P` allows. -/
theorem run_along {P : σ → α → Prop} {I : List α → σ → Prop}
    (hstep : ∀ h s a s' o, I h s → P s a → M.step s a = .ok (s', o) → I (h ++ [a]) s')
    {h : List α} {s t : σ} {as : List α} {os : List ο} (hI : I h s) (halong : M.Along P s as)
    (hrun : M.run s as = .ok (t, os)) : I (h ++ as) t := by
  induction as generalizing h s os with
  | nil =>
    obtain ⟨rfl, -⟩ := Prod.mk.inj (Except.ok.inj hrun)
    rwa [List.append_nil]
  | cons a as ih =>
    obtain ⟨s₁, o, os', h₁, h₂, -⟩ := M.run_cons_eq_ok.mp hrun
    have := ih (hstep h s a s₁ o hI halong.1 h₁) (halong.2 s₁ o h₁) h₂
    rwa [List.append_assoc, List.singleton_append] at this

/-- Run induction over the answers: `I os s` says what the state `s` is after the answers `os`. -/
theorem run_along_answers {P : σ → α → Prop} {I : List ο → σ → Prop}
    (hstep : ∀ os s a s' o, I os s → P s a → M.step s a = .ok (s', o) → I (os ++ [o]) s')
    {s t : σ} {as : List α} {os os' : List ο} (hI : I os s) (halong : M.Along P s as)
    (hrun : M.run s as = .ok (t, os')) : I (os ++ os') t := by
  induction as generalizing s os os' with
  | nil =>
    obtain ⟨rfl, rfl⟩ := Prod.mk.inj (Except.ok.inj hrun)
    rwa [List.append_nil]
  | cons a as ih =>
    obtain ⟨s₁, o, os₁, h₁, h₂, rfl⟩ := M.run_cons_eq_ok.mp hrun
    have := ih (hstep os s a s₁ o hI halong.1 h₁) (halong.2 s₁ o h₁) h₂
    rwa [List.append_assoc, List.singleton_append] at this

/-- Run induction where every call is allowed. -/
theorem run_history {I : List α → σ → Prop}
    (hstep : ∀ h s a s' o, I h s → M.step s a = .ok (s', o) → I (h ++ [a]) s')
    {h : List α} {s t : σ} {as : List α} {os : List ο} (hI : I h s)
    (hrun : M.run s as = .ok (t, os)) : I (h ++ as) t :=
  M.run_along (fun h s a s' o hI _ => hstep h s a s' o hI) hI
    (M.along_of_forall_mem (fun _ _ _ => trivial) s) hrun

/-- A property of the state that every call keeps holds after every run. -/
theorem run_invariant {I : σ → Prop} (hstep : ∀ s a s' o, I s → M.step s a = .ok (s', o) → I s')
    {s t : σ} {as : List α} {os : List ο} (hI : I s) (hrun : M.run s as = .ok (t, os)) : I t :=
  M.run_history (I := fun _ s => I s) (h := []) (fun _ => hstep) hI hrun

/-- Where every call made in `I` is answered by `f`, the answers of a run are those of its calls. -/
theorem answers_eq_map {I : σ → Prop} {f : α → ο}
    (hstep : ∀ s a s' o, I s → M.step s a = .ok (s', o) → I s' ∧ o = f a)
    {s t : σ} {as : List α} {os : List ο} (hI : I s) (hrun : M.run s as = .ok (t, os)) :
    os = as.map f := by
  induction as generalizing s os with
  | nil =>
    obtain ⟨-, rfl⟩ := Prod.mk.inj (Except.ok.inj hrun)
    rfl
  | cons a as ih =>
    obtain ⟨s₁, o, os', h₁, h₂, rfl⟩ := M.run_cons_eq_ok.mp hrun
    obtain ⟨hI₁, rfl⟩ := hstep s a s₁ o hI h₁
    rw [List.map_cons, ih hI₁ h₂]

/-- **A run whose every call returns, where it is made, returns.**  `all` are the calls of the run,
so that a call may count those before and after it. -/
theorem run_returns {I : List α → σ → Prop} {all : List α}
    (hstep : ∀ h a rest s, h ++ a :: rest = all → I h s →
      ∃ s' o, M.step s a = .ok (s', o) ∧ I (h ++ [a]) s')
    {h as : List α} {s : σ} (hall : h ++ as = all) (hI : I h s) :
    ∃ t os, M.run s as = .ok (t, os) ∧ I all t := by
  induction as generalizing h s with
  | nil => exact ⟨s, [], rfl, by rwa [← hall, List.append_nil]⟩
  | cons a as ih =>
    obtain ⟨s₁, o, h₁, hI₁⟩ := hstep h a as s hall hI
    obtain ⟨t, os, h₂, hI₂⟩ := ih (by rwa [List.append_assoc, List.singleton_append]) hI₁
    exact ⟨t, o :: os, M.run_cons_eq_ok.mpr ⟨s₁, o, os, h₁, h₂, rfl⟩, hI₂⟩

end Machine

/-! ## What a history leaves on

Of calls that switch something on and off, the last one that does either decides. -/

section

variable {α : Type} {on off : α → Prop} {calls : List α} {call : α}

/-- A call of the history switched it on, and none has switched it off since. -/
def LeftOn (on off : α → Prop) (calls : List α) : Prop :=
  ∃ before call after, calls = before ++ call :: after ∧ on call ∧ ∀ later ∈ after, ¬ off later

theorem not_leftOn_nil : ¬ LeftOn on off [] := by
  rintro ⟨before, call, after, hcalls, -⟩
  exact List.append_ne_nil_of_right_ne_nil before (List.cons_ne_nil call after) hcalls.symm

/-- **The last call decides**, unless it does neither. -/
theorem leftOn_concat :
    LeftOn on off (calls ++ [call]) ↔ on call ∨ ¬ off call ∧ LeftOn on off calls := by
  constructor
  · rintro ⟨before, first, after, hcalls, hon, hoff⟩
    rcases after.eq_nil_or_concat with rfl | ⟨after, last, rfl⟩
    · obtain ⟨-, hlast⟩ := List.append_inj' hcalls rfl
      exact .inl (List.singleton_inj.mp hlast ▸ hon)
    · rw [List.concat_eq_append, ← List.cons_append, ← List.append_assoc] at hcalls
      obtain ⟨rfl, hlast⟩ := List.append_inj' hcalls rfl
      obtain rfl := List.singleton_inj.mp hlast
      rw [List.concat_eq_append] at hoff
      exact .inr ⟨hoff call (List.mem_append_right _ List.mem_cons_self), before, first, after, rfl,
        hon, fun later hlater => hoff later (List.mem_append_left _ hlater)⟩
  · rintro (hon | ⟨hoff, before, first, after, rfl, hon, hlater⟩)
    · exact ⟨calls, call, [], rfl, hon, fun _ h => absurd h List.not_mem_nil⟩
    · refine ⟨before, first, after ++ [call], by simp, hon, fun later h => ?_⟩
      rcases List.mem_append.mp h with h | h
      · exact hlater later h
      · exact List.mem_singleton.mp h ▸ hoff

end
