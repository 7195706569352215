import PqcGateway.Machinery.Protocol
import PqcGateway.Machinery.Runs
import Mathlib.Algebra.GroupWithZero.Nat

/-!
# Machinery/Jobs — programs that run at the same time

    start ──▸ exchange ──▸ exchange ──▸ … ──▸ done
                  ╰── between two of them: any other job, and whatever moves the shared state

A job runs the program of its request, one exchange at a time, against a state that all jobs
share; a job may also be dropped, and then it makes no further exchange.  What the outside delivers
at an exchange (the time, say) is an argument of the event.

* `step_cases` — all that an event can do.
* `run_stands`, `runs_of_answer` — every job stands where its exchanges lead its program to.
* `run_made` — what is counted over the jobs is what is counted over the run.
* `run_component` — a component of the shared state runs by itself.
-/

variable {κ σ δ ε ι α : Type} {ρ : ι → Type}

/-- Run induction over the calls with their answers, where each of them is known. -/
theorem Machine.run_forall {τ β ω : Type} (N : Machine τ β ω) {I : τ → Prop} {Q : β × ω → Prop}
    {all : List (β × ω)}
    (hstep : ∀ s e s', e ∈ all → I s → N.step s e.1 = .ok (s', e.2) → I s' ∧ Q e) {s t : τ}
    (hI : I s) (hrun : N.run s (all.map Prod.fst) = .ok (t, all.map Prod.snd)) :
    I t ∧ ∀ e ∈ all, Q e := by
  induction all generalizing s with
  | nil =>
    obtain ⟨rfl, -⟩ := Prod.mk.inj (Except.ok.inj hrun)
    exact ⟨hI, fun e he => absurd he List.not_mem_nil⟩
  | cons e all ih =>
    obtain ⟨s₁, o, os, hfirst, hrest, hanswers⟩ := N.run_cons_eq_ok.mp hrun
    obtain ⟨rfl, rfl⟩ := List.cons.inj hanswers
    obtain ⟨hI₁, hQ⟩ := hstep s e s₁ List.mem_cons_self hI hfirst
    obtain ⟨hI', hall⟩ := ih (fun s e s' he => hstep s e s' (List.mem_cons_of_mem _ he)) hI₁ hrest
    exact ⟨hI', List.forall_mem_cons.mpr ⟨hQ, hall⟩⟩

/-- Run induction over what has been answered. -/
theorem Machine.run_answered {τ β ω : Type} (N : Machine τ β ω) {I : List ω → τ → Prop}
    (hstep : ∀ os s a s' o, I os s → N.step s a = .ok (s', o) → I (os ++ [o]) s') {s t : τ}
    {as : List β} {os : List ω} (hI : I [] s) (hrun : N.run s as = .ok (t, os)) : I os t :=
  N.run_along_answers (P := fun _ _ => True) (fun os s a s' o hI _ => hstep os s a s' o hI) hI
    (N.along_of_forall_mem (fun _ _ _ => trivial) s) hrun

/-- **A run splits at any answer.** -/
theorem Machine.run_split {τ β ω : Type} (N : Machine τ β ω) {s t : τ} {as : List β}
    {before after : List ω} {o : ω} (hrun : N.run s as = .ok (t, before ++ o :: after)) :
    ∃ as₁ a as₂ s₁ s₂, as = as₁ ++ a :: as₂ ∧ N.run s as₁ = .ok (s₁, before) ∧
      N.step s₁ a = .ok (s₂, o) ∧ N.run s₂ as₂ = .ok (t, after) := by
  induction before generalizing s as with
  | nil =>
    cases as with
    | nil => cases hrun
    | cons a as =>
      obtain ⟨s₁, o', os, hfirst, hrest, heq⟩ := N.run_cons_eq_ok.mp hrun
      obtain ⟨rfl, rfl⟩ := List.cons.inj heq
      exact ⟨[], a, as, s, s₁, rfl, rfl, hfirst, hrest⟩
  | cons o₁ before ih =>
    cases as with
    | nil => cases hrun
    | cons a₁ as =>
      obtain ⟨s₁, o', os, hfirst, hrest, heq⟩ := N.run_cons_eq_ok.mp hrun
      obtain ⟨rfl, rfl⟩ := List.cons.inj heq
      obtain ⟨as₁, a, as₂, s₂, s₃, rfl, hbefore, hstep, hafter⟩ := ih hrest
      exact ⟨a₁ :: as₁, a, as₂, s₂, s₃, rfl,
        N.run_cons_eq_ok.mpr ⟨s₁, _, _, hfirst, hbefore, rfl⟩, hstep, hafter⟩

/-- Of two elements of a list, one comes first. -/
theorem List.split_cases {γ : Type} {a b c d : List γ} {x y : γ} (hne : x ≠ y)
    (h : a ++ x :: b = c ++ y :: d) :
    (∃ middle, b = middle ++ y :: d) ∨ ∃ middle, d = middle ++ x :: b := by
  obtain ⟨middle, -, hrest⟩ | ⟨middle, -, hrest⟩ := List.append_eq_append_iff.mp h
  · cases middle with
    | nil => exact absurd (List.cons.inj hrest).1 hne
    | cons z middle => exact .inl ⟨middle, (List.cons.inj hrest).2⟩
  · cases middle with
    | nil => exact absurd (List.cons.inj hrest).1.symm hne
    | cons z middle => exact .inr ⟨middle, (List.cons.inj hrest).2⟩

/-- The program of a request, and the state that the programs share: how it answers a call, and how
it moves by itself. -/
structure Server (κ σ δ ε : Type) {ι : Type} (ρ : ι → Type) (α : Type) where
  code : κ → Program ρ α
  serve : δ → (call : ι) → σ → Checked (σ × ρ call)
  move : ε → σ → Checked σ

/-- A job: its request, the exchanges it has made, what is left of its program, and whether it was
dropped. -/
structure Job (κ : Type) {ι : Type} (ρ : ι → Type) (α : Type) where
  request : κ
  trace : List (Exchange ρ)
  rest : Program ρ α
  dropped : Bool

/-- The shared state, and every job that was started, in that order. -/
structure Jobs (κ σ : Type) {ι : Type} (ρ : ι → Type) (α : Type) where
  shared : σ
  jobs : List (Job κ ρ α)

/-- What may happen next. -/
inductive JobEvent (κ δ ε : Type)
  | start (request : κ)
  | advance (id : ℕ) (input : δ)
  | drop (id : ℕ)
  | move (event : ε)

/-- What has happened: an exchange of a job, or a move of the shared state, or nothing that these
see. -/
inductive JobReport (δ ε : Type) {ι : Type} (ρ : ι → Type)
  | idle
  | served (id : ℕ) (input : δ) (exchange : Exchange ρ)
  | moved (event : ε)

/-- The exchange that was made, if one was. -/
def JobReport.exchange? : JobReport δ ε ρ → Option (Exchange ρ)
  | served _ _ exchange => some exchange
  | _ => none

/-- The exchange that the job at this place made, if it made one. -/
def JobReport.exchangeOf? (id : ℕ) : JobReport δ ε ρ → Option (Exchange ρ)
  | served i _ exchange => if i = id then some exchange else none
  | _ => none

/-- The event it is the report of, unless nothing has happened. -/
def JobReport.event? : JobReport δ ε ρ → Option (JobEvent κ δ ε)
  | idle => none
  | served id input _ => some (.advance id input)
  | moved event => some (.move event)

/-- The exchanges of a run, in order. -/
def served (reports : List (JobReport δ ε ρ)) : List (Exchange ρ) :=
  reports.filterMap JobReport.exchange?

@[simp] theorem served_idle : served [(.idle : JobReport δ ε ρ)] = [] := rfl

@[simp] theorem served_served (id : ℕ) (input : δ) (e : Exchange ρ) :
    served [(.served id input e : JobReport δ ε ρ)] = [e] := rfl

theorem served_append (reports reports' : List (JobReport δ ε ρ)) :
    served (reports ++ reports') = served reports ++ served reports' :=
  List.filterMap_append

/-- The event is the turn of the job at this place. -/
def JobEvent.advances (id : ℕ) : JobEvent κ δ ε → Bool
  | advance i _ => decide (i = id)
  | _ => false

/-- The event starts a job. -/
def JobEvent.starts : JobEvent κ δ ε → Bool
  | start _ => true
  | _ => false

/-- What the job has returned, if it has. -/
def Job.answer? (job : Job κ ρ α) : Option α :=
  match job.rest with
  | .done a => some a
  | .ask _ _ => none

/-- One more exchange. -/
def Job.exchanged (call : ι) (answer : ρ call) (next : ρ call → Program ρ α)
    (job : Job κ ρ α) : Job κ ρ α :=
  { job with trace := job.trace ++ [⟨call, answer⟩], rest := next answer }

namespace Server

variable (S : Server κ σ δ ε ρ α)

/-- A job of which nothing has run. -/
def job (request : κ) : Job κ ρ α where
  request
  trace := []
  rest := S.code request
  dropped := false

/-- **The jobs**, one event at a time. -/
def machine : Machine (Jobs κ σ ρ α) (JobEvent κ δ ε) (JobReport δ ε ρ) where
  step s
    | .start request => pure ({ s with jobs := s.jobs ++ [S.job request] }, .idle)
    | .advance id input =>
      match s.jobs[id]? with
      | none => pure (s, .idle)
      | some job =>
        match job.dropped, job.rest with
        | false, .ask call next => do
          let (shared, answer) ← S.serve input call s.shared
          pure ({ shared, jobs := s.jobs.set id (job.exchanged call answer next) },
            .served id input ⟨call, answer⟩)
        | _, _ => pure (s, .idle)
    | .drop id =>
      match s.jobs[id]? with
      | none => pure (s, .idle)
      | some job => pure ({ s with jobs := s.jobs.set id { job with dropped := true } }, .idle)
    | .move event => do
      let shared ← S.move event s.shared
      pure ({ s with shared }, .moved event)

/-- Nothing has been started. -/
def start (shared : σ) : Jobs κ σ ρ α := ⟨shared, []⟩

variable {S} {s s' t : Jobs κ σ ρ α} {event : JobEvent κ δ ε} {report : JobReport δ ε ρ}
  {events : List (JobEvent κ δ ε)} {reports : List (JobReport δ ε ρ)}

/-- **What an event can do.** -/
theorem step_cases (h : S.machine.step s event = .ok (s', report)) :
    (∃ request, event = .start request ∧ report = .idle ∧
      s' = { s with jobs := s.jobs ++ [S.job request] }) ∨
    (∃ id input job call next answer shared, event = .advance id input ∧
      s.jobs[id]? = some job ∧ job.dropped = false ∧ job.rest = .ask call next ∧
      S.serve input call s.shared = .ok (shared, answer) ∧
      report = .served id input ⟨call, answer⟩ ∧
      s' = { shared, jobs := s.jobs.set id (job.exchanged call answer next) }) ∨
    (∃ id job, event = .drop id ∧ s.jobs[id]? = some job ∧ report = .idle ∧
      s' = { s with jobs := s.jobs.set id { job with dropped := true } }) ∨
    (∃ moved shared, event = .move moved ∧ S.move moved s.shared = .ok shared ∧
      report = .moved moved ∧ s' = { s with shared }) ∨
    (report = .idle ∧ s' = s) := by
  cases event with
  | start request =>
    obtain ⟨rfl, rfl⟩ := Prod.mk.inj (Except.ok.inj h)
    exact .inl ⟨request, rfl, rfl, rfl⟩
  | advance id input =>
    simp only [machine] at h
    cases hjob : s.jobs[id]? with
    | none =>
      simp only [hjob] at h
      obtain ⟨rfl, rfl⟩ := Prod.mk.inj (Except.ok.inj h)
      exact .inr (.inr (.inr (.inr ⟨rfl, rfl⟩)))
    | some job =>
      simp only [hjob] at h
      split at h
      · rename_i call next hdropped hrest
        obtain ⟨⟨shared, answer⟩, hserve, h⟩ := Checked.bind_eq_ok.mp h
        obtain ⟨rfl, rfl⟩ := Prod.mk.inj (Except.ok.inj h)
        exact .inr (.inl ⟨id, input, job, call, next, answer, shared, rfl, hjob, hdropped, hrest,
          hserve, rfl, rfl⟩)
      · obtain ⟨rfl, rfl⟩ := Prod.mk.inj (Except.ok.inj h)
        exact .inr (.inr (.inr (.inr ⟨rfl, rfl⟩)))
  | drop id =>
    simp only [machine] at h
    cases hjob : s.jobs[id]? with
    | none =>
      simp only [hjob] at h
      obtain ⟨rfl, rfl⟩ := Prod.mk.inj (Except.ok.inj h)
      exact .inr (.inr (.inr (.inr ⟨rfl, rfl⟩)))
    | some job =>
      simp only [hjob] at h
      obtain ⟨rfl, rfl⟩ := Prod.mk.inj (Except.ok.inj h)
      exact .inr (.inr (.inl ⟨id, job, rfl, hjob, rfl, rfl⟩))
  | move moved =>
    obtain ⟨shared, hmove, h⟩ := Checked.bind_eq_ok.mp h
    obtain ⟨rfl, rfl⟩ := Prod.mk.inj (Except.ok.inj h)
    exact .inr (.inr (.inr (.inl ⟨moved, shared, rfl, hmove, rfl, rfl⟩)))

/-- **An exchange that is reported** was answered by the shared state. -/
theorem step_served {id : ℕ} {input : δ} {e : Exchange ρ}
    (h : S.machine.step s event = .ok (s', .served id input e)) :
    S.serve input e.1 s.shared = .ok (s'.shared, e.2) := by
  obtain ⟨_, -, hreport, -⟩ | ⟨_, _, _, _, _, _, shared, -, -, -, -, hserve, hreport, rfl⟩ |
    ⟨_, _, -, -, hreport, -⟩ | ⟨_, _, -, -, hreport, -⟩ | ⟨hreport, -⟩ := step_cases h
  on_goal 2 =>
    obtain ⟨-, rfl, rfl⟩ := JobReport.served.inj hreport
    exact hserve
  all_goals cases hreport

/-- An exchange of a job that makes the call next. -/
theorem step_advance {id : ℕ} {input : δ} {job : Job κ ρ α} {call : ι} {next : ρ call → Program ρ α}
    {answer : ρ call} {shared : σ} (hjob : s.jobs[id]? = some job) (hup : job.dropped = false)
    (hrest : job.rest = .ask call next)
    (hserve : S.serve input call s.shared = .ok (shared, answer)) :
    S.machine.step s (.advance id input)
      = .ok ({ shared, jobs := s.jobs.set id (job.exchanged call answer next) },
        .served id input ⟨call, answer⟩) := by
  simp only [machine, hjob, hup, hrest, hserve, Checked.ok_bind]
  rfl

/-! ## Where the jobs stand

A job's place is the part of its program that its own exchanges have led to; no other job moves it.
-/

/-- The job stands where its exchanges lead its program to. -/
def Stands (S : Server κ σ δ ε ρ α) (job : Job κ ρ α) : Prop :=
  (S.code job.request).Reaches job.trace job.rest

theorem step_stands (hs : ∀ job ∈ s.jobs, S.Stands job)
    (h : S.machine.step s event = .ok (s', report)) : ∀ job ∈ s'.jobs, S.Stands job := by
  obtain ⟨request, -, -, rfl⟩ | ⟨id, input, job, call, next, answer, shared, -, hjob, -, hrest, -,
    -, rfl⟩ | ⟨id, job, -, hjob, -, rfl⟩ | ⟨moved, shared, -, -, -, rfl⟩ | ⟨-, rfl⟩ := step_cases h
  · exact List.forall_mem_append.mpr ⟨hs, List.forall_mem_singleton.mpr (.refl _)⟩
  · intro job' hjob'
    obtain hold | rfl := List.mem_or_eq_of_mem_set hjob'
    · exact hs job' hold
    · have hstands := hs job (List.mem_of_getElem? hjob)
      rw [Stands, hrest] at hstands
      exact hstands.concat answer
  · intro job' hjob'
    obtain hold | rfl := List.mem_or_eq_of_mem_set hjob'
    · exact hs job' hold
    · exact hs job (List.mem_of_getElem? hjob)
  · exact hs
  · exact hs

/-- **Every job stands where its exchanges lead its program to**, after any run. -/
theorem run_stands (hs : ∀ job ∈ s.jobs, S.Stands job)
    (hrun : S.machine.run s events = .ok (t, reports)) : ∀ job ∈ t.jobs, S.Stands job :=
  S.machine.run_invariant (I := fun s => ∀ job ∈ s.jobs, S.Stands job)
    (fun _ _ _ _ => step_stands) hs hrun

/-- The calls of the exchanges, one after the other, are answered as these say. -/
def Serves (S : Server κ σ δ ε ρ α) : σ → List (δ × Exchange ρ) → σ → Prop
  | shared, [], shared' => shared' = shared
  | shared, (input, e) :: rest, shared' =>
    ∃ middle, S.serve input e.1 shared = .ok (middle, e.2) ∧ S.Serves middle rest shared'

theorem run_rest {request : κ} {a : α} {p : Program ρ α} {shared shared' : σ}
    {all : List (δ × Exchange ρ)} (trace : List (Exchange ρ))
    (hruns : p.Runs (all.map Prod.snd) a) (hserves : S.Serves shared all shared') :
    S.machine.run ⟨shared, [⟨request, trace, p, false⟩]⟩ (all.map fun e => .advance 0 e.1)
      = .ok (⟨shared', [⟨request, trace ++ all.map Prod.snd, .done a, false⟩]⟩,
        all.map fun e => .served 0 e.1 e.2) := by
  induction all generalizing p shared trace with
  | nil =>
    obtain rfl : shared' = shared := hserves
    cases hruns
    rw [List.map_nil, List.map_nil, List.append_nil]
    rfl
  | cons e all ih =>
    obtain ⟨input, call, answer⟩ := e
    obtain ⟨middle, hserve, hrest⟩ := hserves
    rw [List.map_cons] at hruns
    cases hruns with
    | ask answer hruns =>
      refine S.machine.run_cons_eq_ok.mpr ⟨_, _, _, step_advance rfl rfl rfl hserve, ?_, rfl⟩
      rw [List.map_cons, List.append_cons]
      exact ih (trace ++ [⟨call, answer⟩]) hruns hrest

/-- **A job that runs alone** runs its program to the end. -/
theorem run_alone {request : κ} {a : α} {shared shared' : σ} {all : List (δ × Exchange ρ)}
    (hruns : (S.code request).Runs (all.map Prod.snd) a) (hserves : S.Serves shared all shared') :
    S.machine.run (start shared) (.start request :: all.map fun e => .advance 0 e.1)
      = .ok (⟨shared', [⟨request, all.map Prod.snd, .done a, false⟩]⟩,
        .idle :: all.map fun e => .served 0 e.1 e.2) :=
  S.machine.run_cons_eq_ok.mpr ⟨_, _, _, rfl, run_rest [] hruns hserves, rfl⟩

/-- The job goes on as the other one. -/
structure GoesOn (job job' : Job κ ρ α) : Prop where
  request : job'.request = job.request
  trace : job.trace <+: job'.trace

theorem GoesOn.trans {job job' job'' : Job κ ρ α} (h : GoesOn job job') (h' : GoesOn job' job'') :
    GoesOn job job'' :=
  ⟨h'.request.trans h.request, h.trace.trans h'.trace⟩

/-- **What is reported was an event**, and the reports come in the order of the events. -/
theorem run_reports (hrun : S.machine.run s events = .ok (t, reports)) :
    (reports.filterMap JobReport.event?).Sublist events := by
  induction events generalizing s reports with
  | nil =>
    obtain ⟨-, rfl⟩ := Prod.mk.inj (Except.ok.inj hrun)
    exact List.nil_sublist _
  | cons event events ih =>
    obtain ⟨s₁, report, reports, hstep, hrest, rfl⟩ := S.machine.run_cons_eq_ok.mp hrun
    have hevent : (report.event? : Option (JobEvent κ δ ε)) = none ∨
        report.event? = some event := by
      obtain ⟨request, -, rfl, -⟩ | ⟨id, input, job, call, next, answer, shared, rfl, -, -, -, -,
        rfl, -⟩ | ⟨id, job, -, -, rfl, -⟩ | ⟨moved, shared, rfl, -, rfl, -⟩ | ⟨rfl, -⟩ :=
        step_cases hstep
      · exact .inl rfl
      · exact .inr rfl
      · exact .inl rfl
      · exact .inr rfl
      · exact .inl rfl
    obtain hnone | hsome := hevent
    · rw [List.filterMap_cons_none hnone]
      exact (ih hrest).cons event
    · rw [List.filterMap_cons_some hsome]
      exact (ih hrest).cons_cons event

theorem getElem?_set_cases {γ : Type} {l : List γ} {id i : ℕ} {y z : γ}
    (h : (l.set id y)[i]? = some z) : (i = id ∧ z = y) ∨ l[i]? = some z := by
  rw [List.getElem?_set] at h
  split_ifs at h with hid hlt
  · exact .inl ⟨hid.symm, (Option.some.inj h).symm⟩
  · exact .inr h

/-- What a job has, it had or was served since. -/
theorem run_trace (hrun : S.machine.run s events = .ok (t, reports)) :
    s.jobs.length ≤ t.jobs.length ∧ ∀ (id : ℕ) (job : Job κ ρ α), t.jobs[id]? = some job → ∃ since,
      (∀ e ∈ since, e ∈ served reports) ∧
      job.trace = (s.jobs[id]?.map Job.trace).getD [] ++ since := by
  refine S.machine.run_answered (I := fun reports t => s.jobs.length ≤ t.jobs.length ∧
    ∀ (id : ℕ) (job : Job κ ρ α), t.jobs[id]? = some job → ∃ since,
      (∀ e ∈ since, e ∈ served reports) ∧
      job.trace = (s.jobs[id]?.map Job.trace).getD [] ++ since) ?_ ?_ hrun
  · rintro reports s₁ event s₂ report ⟨hlength, hjobs⟩ hstep
    have hmono : ∀ e ∈ served reports, e ∈ served (reports ++ [report]) := fun e he => by
      rw [served_append]
      exact List.mem_append_left _ he
    have hold : ∀ (id : ℕ) (job : Job κ ρ α), s₁.jobs[id]? = some job → ∃ since,
        (∀ e ∈ since, e ∈ served (reports ++ [report])) ∧
        job.trace = (s.jobs[id]?.map Job.trace).getD [] ++ since := fun id job hjob => by
      obtain ⟨since, hsince, htrace⟩ := hjobs id job hjob
      exact ⟨since, fun e he => hmono e (hsince e he), htrace⟩
    obtain ⟨request, -, -, rfl⟩ | ⟨id, input, job, call, next, answer, shared, -, hjob, -, -, -,
      rfl, rfl⟩ | ⟨id, job, -, hjob, -, rfl⟩ | ⟨moved, shared, -, -, -, rfl⟩ | ⟨-, rfl⟩ :=
      step_cases hstep
    · refine ⟨by simp only [List.length_append]; omega, fun i job' hjob' => ?_⟩
      rw [List.getElem?_append] at hjob'
      split at hjob'
      · exact hold i job' hjob'
      · rename_i hlt
        obtain rfl := List.mem_singleton.mp (List.mem_of_getElem? hjob')
        have hnone : s.jobs[i]? = none := List.getElem?_eq_none (by omega)
        exact ⟨[], fun e he => absurd he List.not_mem_nil, by rw [hnone]; rfl⟩
    · refine ⟨by rwa [List.length_set], fun i job' hjob' => ?_⟩
      obtain ⟨rfl, rfl⟩ | hjob' := getElem?_set_cases hjob'
      · obtain ⟨since, hsince, htrace⟩ := hjobs i job hjob
        refine ⟨since ++ [⟨call, answer⟩], fun e he => ?_, ?_⟩
        · rw [served_append, served_served]
          exact List.mem_append.mpr ((List.mem_append.mp he).imp_left (hsince e))
        · rw [← List.append_assoc, ← htrace]
          rfl
      · exact hold i job' hjob'
    · refine ⟨by rwa [List.length_set], fun i job' hjob' => ?_⟩
      obtain ⟨rfl, rfl⟩ | hjob' := getElem?_set_cases hjob'
      · exact hold i job hjob
      · exact hold i job' hjob'
    · exact ⟨hlength, hold⟩
    · exact ⟨hlength, hold⟩
  · refine ⟨Nat.le_refl _, fun id job hjob => ⟨[], fun e he => absurd he List.not_mem_nil, ?_⟩⟩
    rw [hjob, List.append_nil]
    rfl

theorem exchangeOf?_eq_some {id : ℕ} {e : Exchange ρ} :
    report.exchangeOf? id = some e ↔ ∃ input, report = .served id input e := by
  cases report with
  | served i input exchange =>
    simp only [JobReport.exchangeOf?, Option.ite_none_right_eq_some, Option.some.injEq,
      JobReport.served.injEq]
    constructor
    · rintro ⟨rfl, rfl⟩
      exact ⟨input, rfl, rfl, rfl⟩
    · rintro ⟨_, rfl, -, rfl⟩
      exact ⟨rfl, rfl⟩
  | _ => simp [JobReport.exchangeOf?]

/-- **A job has made its part of the exchanges**, in order. -/
theorem run_traces {shared : σ} (hrun : S.machine.run (start shared) events = .ok (t, reports))
    (id : ℕ) :
    (t.jobs[id]?.map Job.trace).getD [] = reports.filterMap (JobReport.exchangeOf? id) := by
  refine S.machine.run_answered
    (I := fun reports t => ∀ id : ℕ, (t.jobs[id]?.map Job.trace).getD []
      = reports.filterMap (JobReport.exchangeOf? id)) ?_ (fun _ => rfl) hrun id
  intro reports s₁ event s₂ report htraces hstep i
  rw [List.filterMap_append, ← htraces i]
  obtain ⟨request, -, rfl, rfl⟩ | ⟨id, input, job, call, next, answer, shared, -, hjob, -, -, -,
    rfl, rfl⟩ | ⟨id, job, -, hjob, rfl, rfl⟩ | ⟨moved, shared, -, -, rfl, rfl⟩ | ⟨rfl, rfl⟩ :=
    step_cases hstep
  · rw [List.getElem?_append]
    split_ifs with hi
    · exact (List.append_nil _).symm
    · rw [List.getElem?_eq_none (Nat.le_of_not_lt hi)]
      cases hnew : ([S.job request] : List (Job κ ρ α))[i - s₁.jobs.length]? with
      | none => rfl
      | some job =>
        obtain rfl := List.mem_singleton.mp (List.mem_of_getElem? hnew)
        rfl
  · by_cases hi : id = i
    · subst hi
      rw [List.getElem?_set_self (List.getElem?_eq_some_iff.mp hjob).1, hjob]
      simp [JobReport.exchangeOf?, Job.exchanged]
    · rw [List.getElem?_set_ne hi]
      simp [JobReport.exchangeOf?, hi]
  · rw [List.getElem?_set]
    split_ifs with hi hlt
    · subst hi
      rw [hjob]
      exact (List.append_nil _).symm
    · exact absurd (hi ▸ (List.getElem?_eq_some_iff.mp hjob).1) hlt
    · exact (List.append_nil _).symm
  · exact (List.append_nil _).symm
  · exact (List.append_nil _).symm

/-- **A job's first exchange** parts the run. -/
theorem exists_served {id : ℕ} {e : Exchange ρ} {rest : List (Exchange ρ)}
    (h : reports.filterMap (JobReport.exchangeOf? id) = e :: rest) :
    ∃ before input after, reports = before ++ .served id input e :: after ∧
      after.filterMap (JobReport.exchangeOf? id) = rest := by
  obtain ⟨before, report, after, rfl, -, hreport, hrest⟩ := List.filterMap_eq_cons_iff.mp h
  obtain ⟨input, rfl⟩ := exchangeOf?_eq_some.mp hreport
  exact ⟨before, input, after, rfl, hrest⟩

/-- **A job's last exchange** parts the run. -/
theorem exists_served_last {id : ℕ} {e : Exchange ρ}
    (h : [e] <:+ reports.filterMap (JobReport.exchangeOf? id)) :
    ∃ before input after, reports = before ++ .served id input e :: after := by
  obtain ⟨first, h⟩ := h
  obtain ⟨early, late, rfl, -, hlate⟩ := List.filterMap_eq_append_iff.mp h.symm
  obtain ⟨before, input, after, rfl, -⟩ := exists_served hlate
  exact ⟨early ++ before, input, after, (List.append_assoc ..).symm⟩

/-- **A job that has returned** has run its program, with the exchanges that are reported of it. -/
theorem runs_of_answer {shared : σ}
    (hrun : S.machine.run (start shared) events = .ok (t, reports)) {id : ℕ} {job : Job κ ρ α}
    (hjob : t.jobs[id]? = some job) {a : α} (ha : job.answer? = some a) :
    job.trace = reports.filterMap (JobReport.exchangeOf? id) ∧
      (S.code job.request).Runs job.trace a := by
  have htrace := run_traces hrun id
  rw [hjob] at htrace
  refine ⟨htrace, ?_⟩
  have hstands := run_stands (fun _ h => absurd h List.not_mem_nil) hrun job
    (List.mem_of_getElem? hjob)
  cases hrest : job.rest with
  | ask call next =>
    rw [Job.answer?, hrest] at ha
    cases ha
  | done b =>
    rw [Job.answer?, hrest] at ha
    obtain rfl := Option.some.inj ha
    rwa [Stands, hrest, Program.reaches_done_iff] at hstands

/-- A weight, summed over a list in which one element is replaced. -/
theorem sum_map_set {γ : Type} (f : γ → ℕ) {l : List γ} {i : ℕ} {x : γ} (h : l[i]? = some x)
    (y : γ) : ((l.set i y).map f).sum + f x = (l.map f).sum + f y := by
  induction l generalizing i with
  | nil => cases h
  | cons z l ih =>
    cases i with
    | zero =>
      obtain rfl := Option.some.inj h
      rw [List.set_cons_zero, List.map_cons, List.map_cons, List.sum_cons, List.sum_cons]
      omega
    | succ i =>
      have hrest := ih (i := i) h
      rw [List.set_cons_succ, List.map_cons, List.map_cons, List.sum_cons, List.sum_cons]
      omega

/-- How many exchanges of a kind the jobs have made. -/
def made (kind : Exchange ρ → Bool) (s : Jobs κ σ ρ α) : ℕ :=
  (s.jobs.map fun job => job.trace.countP kind).sum

theorem made_start (kind : Exchange ρ → Bool) (shared : σ) :
    made kind (start shared : Jobs κ σ ρ α) = 0 := rfl

theorem step_made (kind : Exchange ρ → Bool) (h : S.machine.step s event = .ok (s', report)) :
    made kind s' = made kind s + (served [report]).countP kind := by
  obtain ⟨request, -, rfl, rfl⟩ | ⟨id, input, job, call, next, answer, shared, -, hjob, -, -, -,
    rfl, rfl⟩ | ⟨id, job, -, hjob, rfl, rfl⟩ | ⟨moved, shared, -, -, rfl, rfl⟩ | ⟨rfl, rfl⟩ :=
    step_cases h
  · simp [made, job]
  · have hset := sum_map_set (fun job => job.trace.countP kind) hjob
      (job.exchanged call answer next)
    have htrace : (job.exchanged call answer next).trace = job.trace ++ [⟨call, answer⟩] := rfl
    simp only [htrace, List.countP_append] at hset
    simp only [made, served_served]
    omega
  · have hset := sum_map_set (fun job => job.trace.countP kind) hjob { job with dropped := true }
    rw [made, made, served_idle, List.countP_nil]
    exact Nat.add_right_cancel hset
  · rfl
  · rfl

/-- **What the jobs have made is what was served.** -/
theorem run_made (kind : Exchange ρ → Bool) (hrun : S.machine.run s events = .ok (t, reports)) :
    made kind t = made kind s + (served reports).countP kind := by
  refine S.machine.run_answered
    (I := fun reports t => made kind t = made kind s + (served reports).countP kind) ?_ rfl hrun
  intro reports s₁ event s₂ report hmade hstep
  rw [step_made kind hstep, hmade, served_append, List.countP_append, Nat.add_assoc]

/-- **The calls of a kind that a component sees** are the exchanges of that kind. -/
theorem countP_calls {β ω : Type} {calls : JobReport δ ε ρ → List (β × ω)} {p : β → Bool}
    {kind : Exchange ρ → Bool} (hidle : calls .idle = [])
    (hserved : ∀ id input e, ((calls (.served id input e)).map Prod.fst).countP p
      = if kind e then 1 else 0)
    (hmoved : ∀ moved, ((calls (.moved moved)).map Prod.fst).countP p = 0)
    (reports : List (JobReport δ ε ρ)) :
    ((reports.flatMap calls).map Prod.fst).countP p = (served reports).countP kind := by
  induction reports with
  | nil => rfl
  | cons report reports ih =>
    rw [List.flatMap_cons, List.map_append, List.countP_append, ih, ← List.singleton_append,
      served_append, List.countP_append]
    congr 1
    cases report with
    | idle => rw [hidle]; rfl
    | served id input e => rw [hserved, served_served, List.countP_singleton]
    | moved moved => exact hmoved moved

/-! ## Nothing stops the jobs

If every call that a job may make is answered, the machine takes every event, and turns bring a job
on. -/

/-- **A run returns** if every call that comes next, and every move, is answered wherever the run
gets. -/
theorem exists_run {shared : σ} {all : List (JobEvent κ δ ε)}
    (hserve : ∀ done input rest s reports id job call next,
      done ++ .advance id input :: rest = all →
      S.machine.run (start shared) done = .ok (s, reports) → s.jobs[id]? = some job →
      job.rest = .ask call next → ∃ r, S.serve input call s.shared = .ok r)
    (hmove : ∀ done moved rest s reports, done ++ .move moved :: rest = all →
      S.machine.run (start shared) done = .ok (s, reports) → ∃ r, S.move moved s.shared = .ok r) :
    ∃ t reports, S.machine.run (start shared) all = .ok (t, reports) := by
  suffices hreturns : ∃ t reports, S.machine.run (start shared) all = .ok (t, reports) ∧
      ∃ reports, S.machine.run (start shared) all = .ok (t, reports) by
    obtain ⟨t, reports, hrun, -⟩ := hreturns
    exact ⟨t, reports, hrun⟩
  refine S.machine.run_returns (I := fun done s => ∃ reports,
    S.machine.run (start shared) done = .ok (s, reports)) ?_ (List.nil_append all) ⟨[], rfl⟩
  rintro done event rest s hall ⟨reports, hrun⟩
  suffices hstep : ∃ s' report, S.machine.step s event = .ok (s', report) by
    obtain ⟨s', report, hstep⟩ := hstep
    exact ⟨s', report, hstep, _, S.machine.run_concat hrun hstep⟩
  cases event with
  | start request => exact ⟨_, _, rfl⟩
  | advance id input =>
    cases hjob : s.jobs[id]? with
    | none => exact ⟨s, .idle, by simp only [machine, hjob]; rfl⟩
    | some job =>
      cases hdropped : job.dropped with
      | true => exact ⟨s, .idle, by simp only [machine, hjob, hdropped]; rfl⟩
      | false =>
        cases hrest : job.rest with
        | done a => exact ⟨s, .idle, by simp only [machine, hjob, hdropped, hrest]; rfl⟩
        | ask call next =>
          obtain ⟨⟨shared', answer⟩, hserved⟩ :=
            hserve done input rest s reports id job call next hall hrun hjob hrest
          exact ⟨_, _, step_advance hjob hdropped hrest hserved⟩
  | drop id =>
    cases hjob : s.jobs[id]? with
    | none => exact ⟨s, .idle, by simp only [machine, hjob]; rfl⟩
    | some job => exact ⟨_, .idle, by simp only [machine, hjob]; rfl⟩
  | move moved =>
    obtain ⟨shared', hmoved⟩ := hmove done moved rest s reports hall hrun
    exact ⟨_, _, Checked.bind_eq_ok.mpr ⟨shared', hmoved, rfl⟩⟩

/-- What a job has returned, it returned for good. -/
theorem step_answer (h : S.machine.step s event = .ok (s', report)) {id : ℕ} {job : Job κ ρ α}
    (hjob : s.jobs[id]? = some job) {a : α} (ha : job.answer? = some a) :
    ∃ job', s'.jobs[id]? = some job' ∧ job'.answer? = some a := by
  obtain ⟨request, -, -, rfl⟩ | ⟨i, input, old, call, next, answer, shared, -, hold, -, hrest, -, -,
    rfl⟩ | ⟨i, old, -, hold, -, rfl⟩ | ⟨moved, shared, -, -, -, rfl⟩ | ⟨-, rfl⟩ := step_cases h
  · refine ⟨job, ?_, ha⟩
    rwa [List.getElem?_append_left (List.getElem?_eq_some_iff.mp hjob).1]
  · have hid : i ≠ id := by
      rintro rfl
      obtain rfl := Option.some.inj (hold.symm.trans hjob)
      rw [Job.answer?, hrest] at ha
      cases ha
    exact ⟨job, by rwa [List.getElem?_set_ne hid], ha⟩
  · by_cases hid : i = id
    · subst hid
      obtain rfl := Option.some.inj (hold.symm.trans hjob)
      exact ⟨_, List.getElem?_set_self (List.getElem?_eq_some_iff.mp hjob).1, ha⟩
    · exact ⟨job, by rwa [List.getElem?_set_ne hid], ha⟩
  · exact ⟨job, hjob, ha⟩
  · exact ⟨job, hjob, ha⟩

theorem run_answer (hrun : S.machine.run s events = .ok (t, reports)) {id : ℕ} {job : Job κ ρ α}
    (hjob : s.jobs[id]? = some job) {a : α} (ha : job.answer? = some a) :
    ∃ job', t.jobs[id]? = some job' ∧ job'.answer? = some a := by
  refine S.machine.run_invariant (I := fun t => ∃ job', t.jobs[id]? = some job' ∧
    job'.answer? = some a) ?_ ⟨job, hjob, ha⟩ hrun
  rintro s₁ event s₂ report ⟨job₁, hjob₁, ha₁⟩ hstep
  exact step_answer hstep hjob₁ ha₁

/-- Each start makes a job, in order. -/
theorem run_length (hrun : S.machine.run s events = .ok (t, reports)) :
    t.jobs.length = s.jobs.length + events.countP JobEvent.starts := by
  refine S.machine.run_history (I := fun events t =>
    t.jobs.length = s.jobs.length + events.countP JobEvent.starts) (h := []) ?_ rfl hrun
  intro events s₁ event s₂ report hlength hstep
  rw [List.countP_append, List.countP_singleton, ← Nat.add_assoc, ← hlength]
  obtain ⟨request, rfl, -, rfl⟩ | ⟨i, input, old, call, next, answer, shared, rfl, -, -, -, -, -,
    rfl⟩ | ⟨i, old, rfl, -, -, rfl⟩ | ⟨moved, shared, rfl, -, -, rfl⟩ | ⟨-, rfl⟩ :=
    step_cases hstep
  · exact List.length_append
  · exact List.length_set
  · exact List.length_set
  · rfl
  · cases event with
    | start request =>
      have hjobs := congrArg (fun s => s.jobs.length) (Prod.mk.inj (Except.ok.inj hstep)).1
      simp at hjobs
    | _ => rfl

/-- Only its own event drops a job. -/
theorem run_up {shared : σ} (hrun : S.machine.run (start shared) events = .ok (t, reports)) {id : ℕ}
    (hdrop : ∀ event ∈ events, event ≠ .drop id) {job : Job κ ρ α} (hjob : t.jobs[id]? = some job) :
    job.dropped = false := by
  refine S.machine.run_history (I := fun events t => (∀ event ∈ events, event ≠ .drop id) →
    ∀ job : Job κ ρ α, t.jobs[id]? = some job → job.dropped = false) (h := []) ?_
    (fun _ job hjob => by cases hjob) hrun hdrop job hjob
  intro events s₁ event s₂ report hup hstep hdrop job' hjob'
  obtain ⟨hbefore, hevent⟩ := List.forall_mem_append.mp hdrop
  have hold := hup hbefore
  obtain ⟨request, rfl, -, rfl⟩ | ⟨i, input, old, call, next, answer, middle, -, hi, hlive, -, -, -,
    rfl⟩ | ⟨i, old, rfl, hi, -, rfl⟩ | ⟨moved, middle, rfl, -, -, rfl⟩ | ⟨-, rfl⟩ :=
    step_cases hstep
  · rw [List.getElem?_append] at hjob'
    split at hjob'
    · exact hold job' hjob'
    · obtain rfl := List.mem_singleton.mp (List.mem_of_getElem? hjob')
      rfl
  · obtain ⟨rfl, rfl⟩ | hjob' := getElem?_set_cases hjob'
    · exact hlive
    · exact hold job' hjob'
  · obtain ⟨rfl, -⟩ | hjob' := getElem?_set_cases hjob'
    · exact absurd rfl (hevent _ (List.mem_singleton_self _))
    · exact hold job' hjob'
  · exact hold job' hjob'
  · exact hold job' hjob'

/-- A job that is up makes an exchange whenever it is its turn, until it has returned. -/
theorem step_turn (h : S.machine.step s event = .ok (s', report)) {id : ℕ} {job : Job κ ρ α}
    (hjob : s.jobs[id]? = some job) (hup : job.dropped = false) (hdrop : event ≠ .drop id) :
    ∃ job', s'.jobs[id]? = some job' ∧ job'.dropped = false ∧
      ((∃ a, job'.answer? = some a) ∨
        job'.trace.length = job.trace.length + if event.advances id then 1 else 0) := by
  obtain ⟨request, rfl, -, rfl⟩ | ⟨i, input, old, call, next, answer, shared, rfl, hold, -, -, -, -,
    rfl⟩ | ⟨i, old, rfl, hold, -, rfl⟩ | ⟨moved, shared, rfl, -, -, rfl⟩ | ⟨rfl, rfl⟩ :=
    step_cases h
  · refine ⟨job, ?_, hup, .inr rfl⟩
    rwa [List.getElem?_append_left (List.getElem?_eq_some_iff.mp hjob).1]
  · by_cases hid : i = id
    · subst hid
      obtain rfl := Option.some.inj (hold.symm.trans hjob)
      refine ⟨_, List.getElem?_set_self (List.getElem?_eq_some_iff.mp hjob).1, hup, .inr ?_⟩
      simp [Job.exchanged, JobEvent.advances]
    · refine ⟨job, by rwa [List.getElem?_set_ne hid], hup, .inr ?_⟩
      simp [JobEvent.advances, hid]
  · have hid : i ≠ id := fun hid => hdrop (by rw [hid])
    exact ⟨job, by rwa [List.getElem?_set_ne hid], hup, .inr rfl⟩
  · exact ⟨job, hjob, hup, .inr rfl⟩
  · refine ⟨job, hjob, hup, ?_⟩
    cases hrest : job.rest with
    | done a => exact .inl ⟨a, by rw [Job.answer?, hrest]⟩
    | ask call next =>
      -- its turn would have been reported
      refine .inr ?_
      cases event with
      | advance i input =>
        by_cases hid : i = id
        · subst hid
          simp only [machine, hjob, hup, hrest] at h
          obtain ⟨_, -, h⟩ := Checked.bind_eq_ok.mp h
          cases (Prod.mk.inj (Except.ok.inj h)).2
        · simp [JobEvent.advances, hid]
      | _ => rfl

/-- **A job that is up has returned, or has used each of its turns.** -/
theorem run_turns (hrun : S.machine.run s events = .ok (t, reports)) {id : ℕ} {job : Job κ ρ α}
    (hjob : s.jobs[id]? = some job) (hup : job.dropped = false)
    (hdrop : ∀ event ∈ events, event ≠ .drop id) :
    ∃ job', t.jobs[id]? = some job' ∧ job'.dropped = false ∧
      ((∃ a, job'.answer? = some a) ∨
        job'.trace.length = job.trace.length + events.countP (JobEvent.advances id)) := by
  induction events generalizing s job reports with
  | nil =>
    obtain ⟨rfl, -⟩ := Prod.mk.inj (Except.ok.inj hrun)
    exact ⟨job, hjob, hup, .inr rfl⟩
  | cons event events ih =>
    obtain ⟨s₁, report, reports, hstep, hrest, rfl⟩ := S.machine.run_cons_eq_ok.mp hrun
    obtain ⟨hfirst, hothers⟩ := List.forall_mem_cons.mp hdrop
    obtain ⟨job₁, hjob₁, hup₁, hturn⟩ := step_turn hstep hjob hup hfirst
    obtain ⟨job', hjob', hup', hturns⟩ := ih hrest hjob₁ hup₁ hothers
    refine ⟨job', hjob', hup', ?_⟩
    obtain hreturned | hlength := hturn
    · obtain ⟨a, ha⟩ := hreturned
      obtain ⟨job'', hjob'', ha'⟩ := run_answer hrest hjob₁ ha
      obtain rfl := Option.some.inj (hjob'.symm.trans hjob'')
      exact .inl ⟨a, ha'⟩
    · refine hturns.imp_right fun hrest => ?_
      rw [hrest, hlength, List.countP_cons]
      omega

/-! ## What the shared state does

The calls in the order of the reports are a run of the shared state, whoever made them. -/

/-- **What the calls are answered**, in every state that the moves of the run and the calls keep. -/
theorem run_served {I : σ → Prop} {Q : Exchange ρ → Prop}
    (hserve : ∀ input call shared shared' answer, I shared →
      S.serve input call shared = .ok (shared', answer) → I shared' ∧ Q ⟨call, answer⟩)
    (hmove : ∀ moved shared shared', .move moved ∈ events → I shared →
      S.move moved shared = .ok shared' → I shared')
    (hI : I s.shared) (hrun : S.machine.run s events = .ok (t, reports)) :
    I t.shared ∧ ∀ e ∈ served reports, Q e := by
  induction events generalizing s reports with
  | nil =>
    obtain ⟨rfl, rfl⟩ := Prod.mk.inj (Except.ok.inj hrun)
    exact ⟨hI, fun e he => absurd he List.not_mem_nil⟩
  | cons event events ih =>
    obtain ⟨s₁, report, reports, hstep, hrest, rfl⟩ := S.machine.run_cons_eq_ok.mp hrun
    have hfirst : I s₁.shared ∧ ∀ e ∈ served [report], Q e := by
      obtain ⟨request, -, rfl, rfl⟩ | ⟨id, input, job, call, next, answer, shared, -, -, -, -,
        hserved, rfl, rfl⟩ | ⟨id, job, -, -, rfl, rfl⟩ | ⟨moved, shared, rfl, hmoved, rfl, rfl⟩ |
        ⟨rfl, rfl⟩ := step_cases hstep
      · exact ⟨hI, fun e he => absurd he List.not_mem_nil⟩
      · obtain ⟨hI₁, hQ⟩ := hserve _ _ _ _ _ hI hserved
        exact ⟨hI₁, List.forall_mem_singleton.mpr hQ⟩
      · exact ⟨hI, fun e he => absurd he List.not_mem_nil⟩
      · exact ⟨hmove moved _ shared List.mem_cons_self hI hmoved,
          fun e he => absurd he List.not_mem_nil⟩
      · exact ⟨hI, fun e he => absurd he List.not_mem_nil⟩
    obtain ⟨hI', hQ⟩ := ih (fun moved shared shared' hmem =>
      hmove moved shared shared' (List.mem_cons_of_mem event hmem)) hfirst.1 hrest
    rw [← List.singleton_append, served_append]
    exact ⟨hI', List.forall_mem_append.mpr ⟨hfirst.2, hQ⟩⟩

theorem run_answers {I : σ → Prop} {Q : Exchange ρ → Prop}
    (hserve : ∀ input call shared shared' answer, I shared →
      S.serve input call shared = .ok (shared', answer) → I shared' ∧ Q ⟨call, answer⟩)
    (hmove : ∀ moved shared shared', .move moved ∈ events → I shared →
      S.move moved shared = .ok shared' → I shared')
    (hI : I s.shared) (hs : ∀ job ∈ s.jobs, ∀ e ∈ job.trace, Q e)
    (hrun : S.machine.run s events = .ok (t, reports)) :
    I t.shared ∧ ∀ job ∈ t.jobs, ∀ e ∈ job.trace, Q e := by
  obtain ⟨hI', hserved⟩ := run_served hserve hmove hI hrun
  refine ⟨hI', fun job hjob => ?_⟩
  obtain ⟨id, hid⟩ := List.getElem?_of_mem hjob
  obtain ⟨since, hsince, htrace⟩ := (run_trace hrun).2 id job hid
  rw [htrace]
  refine List.forall_mem_append.mpr ⟨?_, fun e he => hserved e (hsince e he)⟩
  cases hold : s.jobs[id]? with
  | none => exact fun e he => absurd he List.not_mem_nil
  | some old => exact hs old (List.mem_of_getElem? hold)

/-- What the jobs of the run itself are answered. -/
theorem run_answers_since {I : σ → Prop} {Q : Exchange ρ → Prop}
    (hserve : ∀ input call shared shared' answer, I shared →
      S.serve input call shared = .ok (shared', answer) → I shared' ∧ Q ⟨call, answer⟩)
    (hmove : ∀ moved shared shared', .move moved ∈ events → I shared →
      S.move moved shared = .ok shared' → I shared')
    (hI : I s.shared) (hrun : S.machine.run s events = .ok (t, reports)) {id : ℕ}
    {job : Job κ ρ α} (hid : s.jobs.length ≤ id) (hjob : t.jobs[id]? = some job) :
    ∀ e ∈ job.trace, Q e := by
  obtain ⟨since, hsince, htrace⟩ := (run_trace hrun).2 id job hjob
  rw [List.getElem?_eq_none hid, Option.map_none, Option.getD_none, List.nil_append] at htrace
  rw [htrace]
  exact fun e he => (run_served hserve hmove hI hrun).2 e (hsince e he)

/-- **A component of the shared state runs by itself**: by the calls that each report makes of it,
one after the other. -/
theorem run_component {τ β ω : Type} (N : Machine τ β ω) {π : σ → τ}
    {calls : JobReport δ ε ρ → List (β × ω)} (hidle : calls .idle = [])
    (hserve : ∀ id input call shared shared' answer,
      S.serve input call shared = .ok (shared', answer) →
      N.run (π shared) ((calls (.served id input ⟨call, answer⟩)).map Prod.fst)
        = .ok (π shared', (calls (.served id input ⟨call, answer⟩)).map Prod.snd))
    (hmove : ∀ moved shared shared', S.move moved shared = .ok shared' →
      N.run (π shared) ((calls (.moved moved)).map Prod.fst)
        = .ok (π shared', (calls (.moved moved)).map Prod.snd))
    (hrun : S.machine.run s events = .ok (t, reports)) :
    N.run (π s.shared) ((reports.flatMap calls).map Prod.fst)
      = .ok (π t.shared, (reports.flatMap calls).map Prod.snd) := by
  have hstep : ∀ s event s' report, S.machine.step s event = .ok (s', report) →
      N.run (π s.shared) ((calls report).map Prod.fst)
        = .ok (π s'.shared, (calls report).map Prod.snd) := by
    intro s event s' report hstep
    obtain ⟨request, -, rfl, rfl⟩ | ⟨id, input, job, call, next, answer, shared, -, -, -, -,
      hserved, rfl, rfl⟩ | ⟨id, job, -, -, rfl, rfl⟩ | ⟨moved, shared, -, hmoved, rfl, rfl⟩ |
      ⟨rfl, rfl⟩ := step_cases hstep
    · rw [hidle]
      rfl
    · exact hserve id input call s.shared shared answer hserved
    · rw [hidle]
      rfl
    · exact hmove moved s.shared shared hmoved
    · rw [hidle]
      rfl
  refine S.machine.run_answered
    (I := fun reports t => N.run (π s.shared) ((reports.flatMap calls).map Prod.fst)
      = .ok (π t.shared, (reports.flatMap calls).map Prod.snd)) ?_ rfl hrun
  intro reports s₁ event s₂ report hpast hnext
  rw [List.flatMap_append, List.map_append, List.map_append, List.flatMap_singleton]
  exact N.run_append_eq_ok.mpr ⟨_, _, _, hpast, hstep _ _ _ _ hnext, rfl⟩

end Server
