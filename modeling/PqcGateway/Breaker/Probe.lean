import PqcGateway.Breaker.Circuit

/-!
# Breaker/Probe — how many requests test the recovery of an upstream

Nothing in a half-open circuit remembers that a probe is under way: every request is admitted until
an outcome is recorded (`run_halfOpen`).  So as many requests are admitted as are made, and there is
a single probe exactly when there is a single request (`probes_le_one_iff`).

* `one_probe` / `two_probes` — a single request is a single probe, and of two both are admitted.
-/

namespace PqcGateway

/-- The call asks for admission. -/
def BreakerCall.isCheck : BreakerCall → Bool
  | .checkRequest _ _ => true
  | _ => false

/-- The call records the outcome of a request. -/
def BreakerCall.isRecord : BreakerCall → Bool
  | .recordSuccess _ _ => true
  | .recordFailure _ _ => true
  | _ => false

/-- The answer is `Ok`. -/
def BreakerAnswer.admits : BreakerAnswer → Bool
  | .checked (.ok ()) => true
  | _ => false

/-- How many requests for the upstream are admitted. -/
def probes (u : String) (calls : List BreakerCall) (answers : List BreakerAnswer) : ℕ :=
  (exchanges u calls answers).countP fun e => e.2.admits

/-- How many requests for the upstream are made. -/
def requests (u : String) (calls : List BreakerCall) : ℕ :=
  (calls.filter fun call => call.upstream = u).countP BreakerCall.isCheck

theorem probes_cons (u : String) (call : BreakerCall) (calls : List BreakerCall)
    (answer : BreakerAnswer) (answers : List BreakerAnswer) :
    probes u (call :: calls) (answer :: answers)
      = probes u calls answers + if call.upstream = u ∧ answer.admits then 1 else 0 := by
  rw [probes, exchanges, List.zip_cons_cons, List.filter_cons]
  by_cases hu : call.upstream = u
  · simp only [hu, decide_true, if_true, List.countP_cons, true_and]
    rfl
  · simp only [hu, decide_false, false_and, if_false]
    rfl

theorem requests_cons (u : String) (call : BreakerCall) (calls : List BreakerCall) :
    requests u (call :: calls)
      = requests u calls + if call.upstream = u ∧ call.isCheck then 1 else 0 := by
  rw [requests, List.filter_cons]
  by_cases hu : call.upstream = u
  · simp only [hu, decide_true, if_true, List.countP_cons, true_and]
    rfl
  · simp only [hu, decide_false, false_and, if_false]
    rfl

/-! ## A half-open circuit -/

section

variable {defaultConfig : CircuitBreakerConfig} {circuit? circuit?' : Option UpstreamCircuit}
variable {call : BreakerCall} {answer : BreakerAnswer}

/-- **A call that leaves the circuit half-open admits its request**, if it makes one. -/
theorem admits_eq_isCheck (h : call.moveCircuit defaultConfig circuit? = .ok (circuit?', answer))
    (hstate : circuit?'.map UpstreamCircuit.state = some .halfOpen) :
    answer.admits = call.isCheck := by
  cases call with
  | registerUpstream upstream config =>
    obtain ⟨-, rfl⟩ := Prod.mk.inj (Except.ok.inj h)
    rfl
  | checkRequest now upstream =>
    obtain ⟨⟨circuit, result⟩, hcheck, h⟩ := Checked.bind_eq_ok.mp h
    obtain ⟨rfl, rfl⟩ := Prod.mk.inj (Except.ok.inj h)
    obtain ⟨-, ⟨-, rfl, -⟩ | ⟨-, -, rfl, -⟩ | ⟨hopened, -, -, rfl⟩⟩ :=
      UpstreamCircuit.checkRequest_cases hcheck
    · rfl
    · rfl
    · rw [Option.map_some, hopened] at hstate
      cases hstate
  | recordSuccess now upstream =>
    obtain ⟨-, rfl⟩ := Prod.mk.inj (Except.ok.inj h)
    rfl
  | recordFailure now upstream =>
    obtain ⟨circuit, -, h⟩ := Checked.bind_eq_ok.mp h
    obtain ⟨-, rfl⟩ := Prod.mk.inj (Except.ok.inj h)
    rfl
  | updateHealth now upstream healthy =>
    obtain ⟨circuit?₁, -, h⟩ := Checked.bind_eq_ok.mp h
    obtain ⟨-, rfl⟩ := Prod.mk.inj (Except.ok.inj h)
    rfl

/-- **Half-open until an outcome is recorded.** -/
theorem halfOpen_of_not_isRecord
    (h : call.moveCircuit defaultConfig circuit? = .ok (circuit?', answer))
    (hstate : circuit?.map UpstreamCircuit.state = some .halfOpen)
    (hrecord : call.isRecord = false) :
    circuit?'.map UpstreamCircuit.state = some .halfOpen := by
  obtain ⟨circuit, rfl, hcircuit⟩ := Option.map_eq_some_iff.mp hstate
  cases call with
  | registerUpstream upstream config =>
    obtain ⟨rfl, -⟩ := Prod.mk.inj (Except.ok.inj h)
    exact hstate
  | checkRequest now upstream =>
    obtain ⟨⟨circuit', result⟩, hcheck, h⟩ := Checked.bind_eq_ok.mp h
    obtain ⟨rfl, -⟩ := Prod.mk.inj (Except.ok.inj h)
    obtain ⟨-, ⟨-, -, rfl⟩ | ⟨hopened, -⟩ | ⟨hopened, -⟩⟩ :=
      UpstreamCircuit.checkRequest_cases hcheck
    · exact hstate
    · simp [hcircuit] at hopened
    · simp [hcircuit] at hopened
  | recordSuccess now upstream => cases hrecord
  | recordFailure now upstream => cases hrecord
  | updateHealth now upstream healthy =>
    obtain ⟨circuit?₁, hhealth, h⟩ := Checked.bind_eq_ok.mp h
    obtain ⟨rfl, -⟩ := Prod.mk.inj (Except.ok.inj h)
    rw [Option.mapM_some] at hhealth
    obtain ⟨circuit', hmoved, hsome⟩ := Checked.bind_eq_ok.mp hhealth
    obtain rfl := Except.ok.inj hsome
    obtain ⟨-, hopened, -⟩ | ⟨-, hclosed, -⟩ | ⟨-, hclosed, -⟩ | ⟨-, -, rfl⟩ :=
      UpstreamCircuit.updateHealth_cases hmoved
    · simp [hcircuit] at hopened
    · simp [hcircuit] at hclosed
    · simp [hcircuit] at hclosed
    · exact hstate

/-- Every request of a half-open circuit is admitted. -/
theorem run_halfOpen {calls : List BreakerCall} {answers : List BreakerAnswer}
    (hrun : (circuitMachine defaultConfig).run circuit? calls = .ok (circuit?', answers))
    (hstate : circuit?.map UpstreamCircuit.state = some .halfOpen)
    (hrecord : ∀ call ∈ calls, call.isRecord = false) :
    answers.countP BreakerAnswer.admits = calls.countP BreakerCall.isCheck := by
  induction calls generalizing circuit? answers with
  | nil =>
    obtain ⟨-, rfl⟩ := Prod.mk.inj (Except.ok.inj hrun)
    rfl
  | cons call calls ih =>
    obtain ⟨circuit?₁, answer, answers, hstep, hrest, rfl⟩ :=
      (circuitMachine defaultConfig).run_cons_eq_ok.mp hrun
    have hstate₁ := halfOpen_of_not_isRecord hstep hstate (hrecord call List.mem_cons_self)
    rw [List.countP_cons, List.countP_cons, admits_eq_isCheck hstep hstate₁,
      ih hrest hstate₁ fun call hcall => hrecord call (List.mem_cons_of_mem _ hcall)]

end

/-! ## A half-open episode

From the call that half-opens the circuit up to the first outcome recorded for its upstream. -/

/-- A half-open episode of the upstream, up to now: `entry` half-opens its circuit in the state
`mgr`, and of the calls `mid` made since none records an outcome for it. -/
structure Episode (u : String) (mgr : CircuitBreakerManager) (entry : BreakerCall)
    (mid : List BreakerCall) (answers : List BreakerAnswer) : Prop where
  before : mgr.getUpstreamState u ≠ some .halfOpen
  run : ∃ mgr₁ mgr₂ answer rest, breakerMachine.step mgr entry = .ok (mgr₁, answer) ∧
    mgr₁.getUpstreamState u = some .halfOpen ∧
    breakerMachine.run mgr₁ mid = .ok (mgr₂, rest) ∧ answers = answer :: rest
  no_record : ∀ call ∈ mid, call.upstream = u → call.isRecord = false

/-- **In a half-open episode as many requests are admitted as are made**, the one that half-opened
the circuit among them. -/
theorem Episode.probes_eq_requests {u : String} {mgr : CircuitBreakerManager} {entry : BreakerCall}
    {mid : List BreakerCall} {answers : List BreakerAnswer}
    (h : Episode u mgr entry mid answers) :
    probes u (entry :: mid) answers = requests u (entry :: mid) := by
  obtain ⟨mgr₁, mgr₂, answer, rest, hstep, hhalf, hmid, rfl⟩ := h.run
  have hcircuit := breaker_run_circuit hmid u
  have hcalls := map_fst_exchanges (u := u) (breakerMachine.length_answers hmid)
  rw [hcalls] at hcircuit
  have hrest : probes u mid rest = requests u mid := by
    rw [probes, requests, ← run_halfOpen hcircuit hhalf, List.countP_map]
    · rfl
    · intro call hcall
      obtain ⟨hcall, hu⟩ := List.mem_filter.mp hcall
      exact h.no_record call hcall (of_decide_eq_true hu)
  have hentry : entry.upstream = u → answer.admits = entry.isCheck := by
    rintro rfl
    exact admits_eq_isCheck (breaker_step_self hstep) hhalf
  rw [probes_cons, requests_cons, hrest]
  congr 1
  by_cases hu : entry.upstream = u
  · rw [hentry hu]
  · rw [if_neg fun h => hu h.1, if_neg fun h => hu h.1]

/-- **A single probe means a single request.**  In a half-open episode at most one request is
admitted if and only if at most one is made. -/
theorem probes_le_one_iff {u : String} {mgr : CircuitBreakerManager} {entry : BreakerCall}
    {mid : List BreakerCall} {answers : List BreakerAnswer}
    (h : Episode u mgr entry mid answers) :
    probes u (entry :: mid) answers ≤ 1 ↔ requests u (entry :: mid) ≤ 1 := by
  rw [h.probes_eq_requests]

/-- Breakers that open at the first failure, for a second. -/
def quickBreakers : CircuitBreakerManager :=
  .new { CircuitBreakerConfig.default with
    failureThreshold := 1
    recoveryTimeout := 10 ^ 9 }

/-- One request after the timeout, and a passing health check: a single probe. -/
theorem one_probe : ∃ mgr answered answers,
    breakerMachine.run quickBreakers [.recordFailure 0 "a"] = .ok (mgr, answered) ∧
      Episode "a" mgr (.checkRequest (10 ^ 9) "a") [.updateHealth (10 ^ 9) "a" true] answers ∧
      probes "a" [.checkRequest (10 ^ 9) "a", .updateHealth (10 ^ 9) "a" true] answers ≤ 1 := by
  have hepisode : ∃ mgr answered answers,
      breakerMachine.run quickBreakers [.recordFailure 0 "a"] = .ok (mgr, answered) ∧
        Episode "a" mgr (.checkRequest (10 ^ 9) "a") [.updateHealth (10 ^ 9) "a" true] answers :=
    ⟨_, _, _, rfl, ⟨by decide, ⟨_, _, _, _, rfl, rfl, rfl, rfl⟩, by decide⟩⟩
  obtain ⟨mgr, answered, answers, hrun, h⟩ := hepisode
  exact ⟨mgr, answered, answers, hrun, h, (probes_le_one_iff h).mpr (by decide)⟩

/-- **Two probes.**  Two requests come after the timeout, before the first has an outcome; both are
admitted. -/
theorem two_probes : ∃ mgr answered answers,
    breakerMachine.run quickBreakers [.recordFailure 0 "a"] = .ok (mgr, answered) ∧
      Episode "a" mgr (.checkRequest (10 ^ 9) "a") [.checkRequest (10 ^ 9) "a"] answers ∧
      ¬ probes "a" [.checkRequest (10 ^ 9) "a", .checkRequest (10 ^ 9) "a"] answers ≤ 1 :=
  ⟨_, _, _, rfl, ⟨by decide, ⟨_, _, _, _, rfl, rfl, rfl, rfl⟩, by decide⟩, by decide⟩

end PqcGateway
