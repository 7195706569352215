import PqcGateway.Breaker.History

/-!
# Breaker/Transitions — how circuits change state, and what they count

An open circuit should close only through a probe.  It does so except where a request that was
admitted before the circuit opened succeeds late (`legal_iff`).  The counters are exact
(`circuit_accounts`): a closed circuit counts its failures since the last success and opens at the
one that reaches the threshold.

* `late_success_closes` — two requests are admitted, one fails and opens the circuit, and the other
  closes it.
-/

namespace PqcGateway

/-! ## What the breakers do to one upstream's circuit -/

section

variable {mgr mgr' : CircuitBreakerManager} {call : BreakerCall} {answer : BreakerAnswer}
  {u : String}

/-- **One upstream under one call**: there is still no circuit, or the one there is stays, or the
call moves it, or the call creates and moves it. -/
theorem breaker_step_circuit (h : breakerMachine.step mgr call = .ok (mgr', answer)) (u : String) :
    (mgr'.circuits.get u = mgr.circuits.get u ∧
        (call.upstream = u → mgr.circuits.get u = none ∧ call.creates = false)) ∨
    ∃ circuit circuit', call.upstream = u ∧ (mgr.circuits.get u = some circuit ∨
        mgr.circuits.get u = none ∧ call.creates = true ∧ ∃ config, circuit = .new config) ∧
      mgr'.circuits.get u = some circuit' ∧ Moved call answer circuit circuit' := by
  by_cases hu : call.upstream = u
  · have hmove := breaker_step_self h
    rw [hu] at hmove
    obtain ⟨hnone, hcreates, hafter, -⟩ | ⟨circuit, circuit', hfound, hafter, hmoved⟩ :=
      moveCircuit_cases hmove
    · exact .inl ⟨hafter.trans hnone.symm, fun _ => ⟨hnone, hcreates⟩⟩
    · exact .inr ⟨circuit, circuit', hu, hfound, hafter, hmoved⟩
  · exact .inl ⟨(breaker_step_other h).1 u (Ne.symm hu), fun h => absurd h hu⟩

/-- A circuit there is stays, or is moved by a call about its upstream. -/
theorem breaker_step_some (h : breakerMachine.step mgr call = .ok (mgr', answer))
    {circuit : UpstreamCircuit} (hget : mgr.circuits.get u = some circuit) :
    (call.upstream ≠ u ∧ mgr'.circuits.get u = some circuit) ∨
    ∃ circuit', call.upstream = u ∧ mgr'.circuits.get u = some circuit' ∧
      Moved call answer circuit circuit' := by
  obtain ⟨hsame, hnone⟩ | ⟨circuit₁, circuit', hu, hfound, hafter, hmoved⟩ :=
    breaker_step_circuit h u
  · refine .inl ⟨fun hu => ?_, hsame.trans hget⟩
    rw [(hnone hu).1] at hget
    cases hget
  · obtain hsome | ⟨hnone, -⟩ := hfound
    · obtain rfl := Option.some.inj (hget.symm.trans hsome)
      exact .inr ⟨circuit', hu, hafter, hmoved⟩
    · rw [hnone] at hget
      cases hget

end

/-! ## Closing only through a probe -/

/-- From open only to half-open; to closed only from half-open, a new circuit apart. -/
def LegalMove (before after : Option CircuitState) : Prop :=
  (before = some .opened → after = some .opened ∨ after = some .halfOpen) ∧
    (after = some .closed → before = none ∨ before = some .closed ∨ before = some .halfOpen)

instance (before after : Option CircuitState) : Decidable (LegalMove before after) :=
  inferInstanceAs (Decidable (_ ∧ _))

/-- A move of the breakers is legal for the upstream. -/
def LegalTurn (u : String) (turn : Machine.Turn CircuitBreakerManager BreakerCall BreakerAnswer) :
    Prop := LegalMove (turn.before.getUpstreamState u) (turn.after.getUpstreamState u)

/-- A success is recorded while the circuit of the upstream is open. -/
def LateSuccess (u : String)
    (turn : Machine.Turn CircuitBreakerManager BreakerCall BreakerAnswer) : Prop :=
  turn.call.upstream = u ∧ turn.call.isSuccess = true ∧
    turn.before.getUpstreamState u = some .opened

/-- Each outcome recorded for the upstream is one of a request admitted before. -/
def Scheduled (u : String) (calls : List BreakerCall) (answers : List BreakerAnswer) : Prop :=
  ∀ k ≤ calls.length, ((exchanges u calls answers).take k).countP (fun e => e.1.isRecord)
    ≤ ((exchanges u calls answers).take k).countP fun e => e.2.admits

instance (u : String) (calls : List BreakerCall) (answers : List BreakerAnswer) :
    Decidable (Scheduled u calls answers) := inferInstanceAs (Decidable (∀ k ≤ _, _))

/-- The state diagram leaves open to closed by a success alone. -/
theorem legalMove_nextState (circuit : UpstreamCircuit) (call : BreakerCall) :
    LegalMove (some circuit.state) (some (call.nextState circuit)) ↔
      ¬ (call.isSuccess = true ∧ circuit.state = .opened) := by
  cases hstate : circuit.state with
  | closed => simp [LegalMove]
  | halfOpen => simp [LegalMove]
  | opened =>
    rw [BreakerCall.nextState_of_opened hstate]
    cases hsuccess : call.isSuccess with
    | true => simp [LegalMove]
    | false => split_ifs <;> simp_all [LegalMove]

/-- **A step is legal unless it is a late success.** -/
theorem legalTurn_iff {u : String}
    {turn : Machine.Turn CircuitBreakerManager BreakerCall BreakerAnswer}
    (h : breakerMachine.step turn.before turn.call = .ok (turn.after, turn.answer)) :
    LegalTurn u turn ↔ ¬ LateSuccess u turn := by
  rw [LegalTurn, LateSuccess, CircuitBreakerManager.getUpstreamState,
    CircuitBreakerManager.getUpstreamState]
  obtain ⟨hsame, hnone⟩ | ⟨circuit, circuit', hu, hfound, hafter, hmoved⟩ :=
    breaker_step_circuit h u
  · rw [hsame]
    refine iff_of_true ⟨.inl, fun h => .inr (.inl h)⟩ ?_
    rintro ⟨hu, -, hopened⟩
    rw [(hnone hu).1] at hopened
    cases hopened
  · rw [hafter]
    obtain hsome | ⟨hnone, -⟩ := hfound
    · rw [hsome, Option.map_some, Option.map_some, hmoved.state, legalMove_nextState]
      simp [hu]
    · rw [hnone]
      simp [LegalMove]

/-- **An open circuit closes without a probe exactly by a late success.**  In any run, the moves of
an upstream's circuit are all legal if and only if no success is recorded for it while it is
open. -/
theorem legal_iff (mgr : CircuitBreakerManager) (calls : List BreakerCall) (u : String) :
    (∀ turn ∈ breakerMachine.turns mgr calls, LegalTurn u turn) ↔
      ∀ turn ∈ breakerMachine.turns mgr calls, ¬ LateSuccess u turn :=
  forall₂_congr fun _ hturn => legalTurn_iff (breakerMachine.step_of_mem_turns hturn)

/-- **A late success.**  Two requests are admitted; the first fails and opens the circuit, the
second succeeds and closes it. -/
theorem late_success_closes : ∃ mgr answers,
    breakerMachine.run quickBreakers [.checkRequest 0 "a", .checkRequest 0 "a",
      .recordFailure 1 "a", .recordSuccess 2 "a"] = .ok (mgr, answers) ∧
    Scheduled "a" [.checkRequest 0 "a", .checkRequest 0 "a", .recordFailure 1 "a",
      .recordSuccess 2 "a"] answers ∧
    ¬ ∀ turn ∈ breakerMachine.turns quickBreakers [.checkRequest 0 "a", .checkRequest 0 "a",
      .recordFailure 1 "a", .recordSuccess 2 "a"], LegalTurn "a" turn := by
  refine ⟨_, _, rfl, by decide, fun h => ?_⟩
  have hlast := h _ (List.mem_cons_of_mem _ (List.mem_cons_of_mem _ (List.mem_cons_of_mem _
    List.mem_cons_self)))
  exact absurd hlast.1 (by decide)

/-! ## What the counters count

`failuresSince` and `opens` say it of the run; the circuit has only its numbers. -/

/-- The failures counted against a closed circuit: since the last success, or since it was
created. -/
def failuresSince (u : String) (calls : List BreakerCall) : ℕ :=
  (sinceSuccess (life u calls)).countP BreakerCall.isFailure

/-- How often the circuit of the upstream opens in the run. -/
def opens (u : String) (mgr : CircuitBreakerManager) (calls : List BreakerCall) : ℕ :=
  (breakerMachine.turns mgr calls).countP fun turn =>
    turn.before.getUpstreamState u ≠ some .opened ∧ turn.after.getUpstreamState u = some .opened

/-- The counters of the circuit are what they are documented to count. -/
structure Accounts (u : String) (mgr : CircuitBreakerManager) (calls : List BreakerCall)
    (circuit : UpstreamCircuit) : Prop where
  consecutiveFailures : circuit.state = .closed →
    circuit.consecutiveFailures = failuresSince u calls ∧
      circuit.consecutiveFailures < circuit.config.failureThreshold
  totalCircuitOpens : circuit.totalCircuitOpens = opens u mgr calls
  totalFailures : circuit.totalFailures
    = (calls.filter fun call => call.upstream = u).countP BreakerCall.isRecordFailure
  totalRequests : circuit.totalRequests = requests u calls

/-- The openings of a circuit are counted, one turn at a time. -/
theorem run_opens {defaultConfig : CircuitBreakerConfig} {calls : List BreakerCall}
    {mgr : CircuitBreakerManager} {answers : List BreakerAnswer}
    (hrun : breakerMachine.run (.new defaultConfig) calls = .ok (mgr, answers)) (u : String) :
    (mgr.circuits.get u).elim 0 UpstreamCircuit.totalCircuitOpens
      = opens u (.new defaultConfig) calls := by
  have hstart : (∃ answers, breakerMachine.run (.new defaultConfig) []
        = .ok (CircuitBreakerManager.new defaultConfig, answers)) ∧
      ((CircuitBreakerManager.new defaultConfig).circuits.get u).elim 0
        UpstreamCircuit.totalCircuitOpens = opens u (.new defaultConfig) [] := ⟨⟨[], rfl⟩, rfl⟩
  refine (breakerMachine.run_history (I := fun calls mgr =>
    (∃ answers, breakerMachine.run (.new defaultConfig) calls = .ok (mgr, answers)) ∧
      (mgr.circuits.get u).elim 0 UpstreamCircuit.totalCircuitOpens
        = opens u (.new defaultConfig) calls) (h := []) ?_ hstart hrun).2
  rintro calls mgr call mgr' answer ⟨⟨answers, hbefore⟩, hopens⟩ hstep
  refine ⟨⟨_, breakerMachine.run_concat hbefore hstep⟩, ?_⟩
  rw [opens, breakerMachine.turns_concat hbefore hstep, List.countP_append, List.countP_singleton,
    ← opens, ← hopens, CircuitBreakerManager.getUpstreamState,
    CircuitBreakerManager.getUpstreamState]
  obtain ⟨hsame, -⟩ | ⟨circuit, circuit', -, hfound, hafter, hmoved⟩ :=
    breaker_step_circuit hstep u
  · rw [hsame, if_neg (by simp), Nat.add_zero]
  · rw [hafter, Option.elim_some, hmoved.totalCircuitOpens]
    obtain hsome | ⟨hnone, -, config, rfl⟩ := hfound
    · rw [hsome]
      simp
    · rw [hnone]
      simp [UpstreamCircuit.new]

/-- A closed circuit opens at a failure that reaches the threshold. -/
theorem Moved.opened_iff {call : BreakerCall} {answer : BreakerAnswer}
    {circuit circuit' : UpstreamCircuit} (h : Moved call answer circuit circuit')
    (hclosed : circuit.state = .closed) : circuit'.state = .opened ↔
      call.isFailure = true ∧
        circuit.config.failureThreshold ≤ circuit.consecutiveFailures + 1 := by
  rw [h.state, BreakerCall.nextState_of_closed hclosed]
  split_ifs with hfailure
  · exact iff_of_true rfl hfailure
  · exact iff_of_false (by simp) hfailure

/-- The circuit opens at the call that makes its failures reach the threshold. -/
theorem Remembers.opened_iff {call : BreakerCall} {answer : BreakerAnswer}
    {circuit circuit' : UpstreamCircuit} {past : List BreakerCall} (h : Remembers past circuit)
    (hmoved : Moved call answer circuit circuit') (hclosed : circuit.state = .closed)
    (hthreshold : 1 ≤ circuit.config.failureThreshold) : circuit'.state = .opened ↔
      (sinceSuccess (past ++ [call])).countP BreakerCall.isFailure
        = circuit.config.failureThreshold := by
  have hcount := h.consecutiveFailures hclosed
  have hbelow := h.below hclosed hthreshold
  rw [hmoved.opened_iff hclosed]
  cases hsuccess : call.isSuccess with
  | true =>
    rw [sinceSuccess_concat_of_success hsuccess, List.countP_nil]
    refine iff_of_false (fun h => ?_) (by omega)
    cases call <;> simp_all [BreakerCall.isSuccess, BreakerCall.isFailure]
  | false =>
    rw [sinceSuccess_concat hsuccess, List.countP_append, ← hcount, List.countP_singleton]
    cases call.isFailure with
    | true =>
      rw [if_pos rfl]
      exact ⟨fun h => by omega, fun h => ⟨rfl, by omega⟩⟩
    | false =>
      rw [if_neg Bool.false_ne_true]
      exact iff_of_false (fun h => Bool.false_ne_true h.1) hbelow.ne

/-- A call about another upstream, or a registration, leaves the circuit as it is. -/
theorem unmoved_of_other {call : BreakerCall} {answer : BreakerAnswer}
    {mgr mgr' : CircuitBreakerManager} {u : String} {circuit : UpstreamCircuit}
    (hget : mgr.circuits.get u = some circuit)
    (hstep : breakerMachine.step mgr call = .ok (mgr', answer))
    (hother : call.upstream ≠ u ∨ ∃ config, call = .registerUpstream u config) :
    mgr'.circuits.get u = some circuit := by
  obtain hu | ⟨config, rfl⟩ := hother
  · obtain ⟨-, hafter⟩ | ⟨circuit', hu', -⟩ := breaker_step_some hstep hget
    · exact hafter
    · exact absurd hu' hu
  · obtain ⟨rfl, -⟩ := Prod.mk.inj (Except.ok.inj hstep)
    simp only [CircuitBreakerManager.registerUpstream, hget]

/-- **Exact tripping and accounting.**  After every run the counters of a circuit are exact; a
closed circuit opens at the call that makes its failures reach the threshold, and at no other; and a
call about another upstream, or a registration, leaves the circuit as it is. -/
theorem circuit_accounts {defaultConfig : CircuitBreakerConfig} {calls : List BreakerCall}
    {mgr : CircuitBreakerManager} {answers : List BreakerAnswer}
    (hrun : breakerMachine.run (.new defaultConfig) calls = .ok (mgr, answers)) {u : String}
    {circuit : UpstreamCircuit} (hget : mgr.circuits.get u = some circuit)
    (hthreshold : 1 ≤ circuit.config.failureThreshold) :
    Accounts u (.new defaultConfig) calls circuit ∧
    ∀ call mgr' answer, breakerMachine.step mgr call = .ok (mgr', answer) →
      (circuit.state = .closed → (mgr'.getUpstreamState u = some .opened ↔
        failuresSince u (calls ++ [call]) = circuit.config.failureThreshold)) ∧
      ((call.upstream ≠ u ∨ ∃ config, call = .registerUpstream u config) →
        mgr'.circuits.get u = some circuit) := by
  have hlife := run_rememberedBy hrun u
  rw [hget] at hlife
  obtain ⟨hlive, hremembers⟩ := hlife
  refine ⟨⟨fun hclosed => ⟨hremembers.consecutiveFailures hclosed,
    hremembers.below hclosed hthreshold⟩, ?_, ?_, ?_⟩,
    fun call mgr' answer hstep => ⟨fun hclosed => ?_, unmoved_of_other hget hstep⟩⟩
  · have hopens := run_opens hrun u
    rwa [hget] at hopens
  · rw [hremembers.totalFailures]
    exact countP_life (fun _ => isRecordFailure_creates) u calls
  · exact run_totalRequests hrun hget
  · rw [CircuitBreakerManager.getUpstreamState]
    obtain ⟨hu, hafter⟩ | ⟨circuit', hu, hafter, hmoved⟩ := breaker_step_some hstep hget
    · rw [hafter, failuresSince, life_concat_of_ne hu, ← hremembers.consecutiveFailures hclosed]
      exact iff_of_false (by simp [hclosed]) (hremembers.below hclosed hthreshold).ne
    · rw [hafter, Option.map_some, Option.some.injEq, failuresSince, life_concat hu (.inl hlive)]
      exact hremembers.opened_iff hmoved hclosed hthreshold

/-- A request, its failure and a late success. -/
theorem circuit_accounts_late_success : ∃ mgr answers circuit,
    breakerMachine.run quickBreakers [.checkRequest 0 "a", .recordFailure 1 "a",
      .recordSuccess 2 "a"] = .ok (mgr, answers) ∧
    mgr.circuits.get "a" = some circuit ∧
    Accounts "a" quickBreakers [.checkRequest 0 "a", .recordFailure 1 "a", .recordSuccess 2 "a"]
      circuit := by
  have hrun : ∃ mgr answers circuit,
      breakerMachine.run quickBreakers [.checkRequest 0 "a", .recordFailure 1 "a",
        .recordSuccess 2 "a"] = .ok (mgr, answers) ∧
      mgr.circuits.get "a" = some circuit ∧ 1 ≤ circuit.config.failureThreshold :=
    ⟨_, _, _, rfl, rfl, by decide⟩
  obtain ⟨mgr, answers, circuit, hrun, hget, hthreshold⟩ := hrun
  exact ⟨mgr, answers, circuit, hrun, hget, (circuit_accounts hrun hget hthreshold).1⟩

end PqcGateway
