import PqcGateway.Machinery.EntryMap
import PqcGateway.Machinery.Runs

/-!
# Breaker/Circuit — one circuit breaker for each upstream

An upstream's circuit is closed (requests pass), open (requests fail fast) or half-open (recovery is
being tested).  `CircuitBreakerManager` keeps a circuit for each upstream behind one lock, so the
calls of concurrent requests and health checks are a run of `breakerMachine`.  Times and durations
are nanoseconds of a monotonic clock.

* `checkRequest_cases`, `recordFailure_cases`, `updateHealth_cases` — all that a call can do to a
  circuit.
* `breaker_run_circuit` — a run of the breakers is, for each upstream, a run of its circuit.
-/

namespace PqcGateway

/-! ## One circuit -/

/-- Circuit breaker state. -/
inductive CircuitState
  /-- Normal operation — requests pass through. -/
  | closed
  /-- Upstream is considered down — fail fast. -/
  | opened
  /-- Testing recovery — allow one probe request. -/
  | halfOpen
deriving DecidableEq, Repr

/-- Configuration for a circuit breaker. -/
structure CircuitBreakerConfig where
  failureThreshold : ℕ
  recoveryTimeout : ℕ
  healthCheckInterval : ℕ
  healthCheckPath : String
deriving DecidableEq, Repr

/-- `CircuitBreakerConfig::default`. -/
def CircuitBreakerConfig.default : CircuitBreakerConfig where
  failureThreshold := 5
  recoveryTimeout := 30 * 10 ^ 9
  healthCheckInterval := 10 * 10 ^ 9
  healthCheckPath := "/health"

/-- Per-upstream circuit breaker state. -/
structure UpstreamCircuit where
  state : CircuitState
  consecutiveFailures : ℕ
  lastFailureTime : Option ℕ
  lastSuccessTime : Option ℕ
  lastHealthCheck : Option ℕ
  totalRequests : ℕ
  totalFailures : ℕ
  totalCircuitOpens : ℕ
  config : CircuitBreakerConfig
  healthy : Bool
deriving DecidableEq, Repr

namespace UpstreamCircuit

def new (config : CircuitBreakerConfig) : UpstreamCircuit where
  state := .closed
  consecutiveFailures := 0
  lastFailureTime := none
  lastSuccessTime := none
  lastHealthCheck := none
  totalRequests := 0
  totalFailures := 0
  totalCircuitOpens := 0
  config
  healthy := true

/-- What `check_request` does to the circuit. -/
def checkRequest (now : ℕ) (circuit : UpstreamCircuit) :
    Checked (UpstreamCircuit × Except CircuitState Unit) := do
  let totalRequests ← Checked.checkedAdd 64 circuit.totalRequests 1
  let circuit := { circuit with totalRequests }
  match circuit.state with
  | .closed => pure (circuit, .ok ())
  | .opened =>
    match circuit.lastFailureTime with
    | some lastFail =>
      if circuit.config.recoveryTimeout ≤ now - lastFail then
        pure ({ circuit with state := .halfOpen }, .ok ())
      else pure (circuit, .error .opened)
    | none => pure (circuit, .error .opened)
  | .halfOpen => pure (circuit, .ok ())

/-- What `record_success` does to the circuit. -/
def recordSuccess (now : ℕ) (circuit : UpstreamCircuit) : UpstreamCircuit :=
  { circuit with
    consecutiveFailures := 0
    lastSuccessTime := some now
    state := .closed
    healthy := true }

/-- The circuit opens once more. -/
def trip (circuit : UpstreamCircuit) : Checked UpstreamCircuit := do
  let totalCircuitOpens ← Checked.checkedAdd 64 circuit.totalCircuitOpens 1
  pure { circuit with state := .opened, totalCircuitOpens }

/-- What `record_failure` does to the circuit. -/
def recordFailure (now : ℕ) (circuit : UpstreamCircuit) : Checked UpstreamCircuit := do
  let consecutiveFailures ← Checked.checkedAdd 32 circuit.consecutiveFailures 1
  let totalFailures ← Checked.checkedAdd 64 circuit.totalFailures 1
  let circuit := { circuit with
    consecutiveFailures
    totalFailures
    lastFailureTime := some now }
  match circuit.state with
  | .halfOpen => circuit.trip
  | .closed =>
    if circuit.config.failureThreshold ≤ circuit.consecutiveFailures then do
      let circuit ← circuit.trip
      pure { circuit with healthy := false }
    else pure circuit
  | .opened => pure circuit

/-- What `update_health` does to the circuit. -/
def updateHealth (now : ℕ) (healthy : Bool) (circuit : UpstreamCircuit) :
    Checked UpstreamCircuit := do
  let circuit := { circuit with lastHealthCheck := some now, healthy }
  if healthy ∧ circuit.state = .opened then pure { circuit with state := .halfOpen }
  else if ¬ healthy ∧ circuit.state = .closed then do
    let consecutiveFailures ← Checked.checkedAdd 32 circuit.consecutiveFailures 1
    let circuit := { circuit with consecutiveFailures }
    if circuit.config.failureThreshold ≤ circuit.consecutiveFailures then circuit.trip
    else pure circuit
  else pure circuit

/-! ### What each does -/

variable {circuit circuit' : UpstreamCircuit} {now : ℕ}

/-- The recovery timeout has passed since the last failure, if there was one. -/
def Recovered (now : ℕ) (circuit : UpstreamCircuit) : Prop :=
  ∃ lastFail, circuit.lastFailureTime = some lastFail ∧
    circuit.config.recoveryTimeout ≤ now - lastFail

/-- A request is refused only by an open circuit that has not recovered; it half-opens one that
has. -/
theorem checkRequest_cases {result : Except CircuitState Unit}
    (h : circuit.checkRequest now = .ok (circuit', result)) :
    circuit.totalRequests + 1 < 2 ^ 64 ∧
    ((circuit.state ≠ .opened ∧ result = .ok () ∧
        circuit' = { circuit with totalRequests := circuit.totalRequests + 1 }) ∨
      (circuit.state = .opened ∧ circuit.Recovered now ∧ result = .ok () ∧
        circuit' = { circuit with
          totalRequests := circuit.totalRequests + 1
          state := .halfOpen }) ∨
      (circuit.state = .opened ∧ ¬ circuit.Recovered now ∧ result = .error .opened ∧
        circuit' = { circuit with totalRequests := circuit.totalRequests + 1 })) := by
  obtain ⟨total, htotal, h⟩ := Checked.bind_eq_ok.mp h
  obtain ⟨hlt, rfl⟩ := Checked.checkedAdd_eq_ok.mp htotal
  refine ⟨hlt, ?_⟩
  simp only [pure, Except.pure] at h
  cases hstate : circuit.state with
  | closed =>
    simp only [hstate, Except.ok.injEq, Prod.mk.injEq] at h
    exact .inl ⟨by simp, h.2.symm, h.1.symm⟩
  | halfOpen =>
    simp only [hstate, Except.ok.injEq, Prod.mk.injEq] at h
    exact .inl ⟨by simp, h.2.symm, h.1.symm⟩
  | opened =>
    refine .inr ?_
    simp only [hstate] at h
    cases hlast : circuit.lastFailureTime with
    | none =>
      simp only [hlast, Except.ok.injEq, Prod.mk.injEq] at h
      exact .inr ⟨rfl, by simp [Recovered, hlast], h.2.symm, h.1.symm⟩
    | some lastFail =>
      simp only [hlast] at h
      split at h
      · rename_i hrecovered
        simp only [Except.ok.injEq, Prod.mk.injEq] at h
        exact .inl ⟨rfl, ⟨lastFail, hlast, hrecovered⟩, h.2.symm, h.1.symm⟩
      · rename_i hrecovered
        simp only [Except.ok.injEq, Prod.mk.injEq] at h
        exact .inr ⟨rfl, by simpa [Recovered, hlast] using hrecovered, h.2.symm, h.1.symm⟩

theorem trip_eq_ok : circuit.trip = .ok circuit' ↔ circuit.totalCircuitOpens + 1 < 2 ^ 64 ∧
    circuit' = { circuit with
      state := .opened
      totalCircuitOpens := circuit.totalCircuitOpens + 1 } := by
  rw [trip, Checked.bind_eq_ok]
  constructor
  · rintro ⟨_, hopens, h⟩
    obtain ⟨hlt, rfl⟩ := Checked.checkedAdd_eq_ok.mp hopens
    exact ⟨hlt, (Except.ok.inj h).symm⟩
  · rintro ⟨hlt, rfl⟩
    exact ⟨_, Checked.checkedAdd_of_lt hlt, rfl⟩

/-- A failure is counted; it opens a half-open circuit, and a closed one at the threshold. -/
theorem recordFailure_cases (h : circuit.recordFailure now = .ok circuit') :
    circuit.consecutiveFailures + 1 < 2 ^ 32 ∧ circuit.totalFailures + 1 < 2 ^ 64 ∧
    ((circuit.state = .closed ∧
        circuit.consecutiveFailures + 1 < circuit.config.failureThreshold ∧
        circuit' = { circuit with
          consecutiveFailures := circuit.consecutiveFailures + 1
          totalFailures := circuit.totalFailures + 1
          lastFailureTime := some now }) ∨
      (circuit.state = .closed ∧
        circuit.config.failureThreshold ≤ circuit.consecutiveFailures + 1 ∧
        circuit' = { circuit with
          consecutiveFailures := circuit.consecutiveFailures + 1
          totalFailures := circuit.totalFailures + 1
          lastFailureTime := some now
          state := .opened
          totalCircuitOpens := circuit.totalCircuitOpens + 1
          healthy := false }) ∨
      (circuit.state = .halfOpen ∧
        circuit' = { circuit with
          consecutiveFailures := circuit.consecutiveFailures + 1
          totalFailures := circuit.totalFailures + 1
          lastFailureTime := some now
          state := .opened
          totalCircuitOpens := circuit.totalCircuitOpens + 1 }) ∨
      (circuit.state = .opened ∧
        circuit' = { circuit with
          consecutiveFailures := circuit.consecutiveFailures + 1
          totalFailures := circuit.totalFailures + 1
          lastFailureTime := some now })) := by
  obtain ⟨_, hconsecutive, h⟩ := Checked.bind_eq_ok.mp h
  obtain ⟨hlt, rfl⟩ := Checked.checkedAdd_eq_ok.mp hconsecutive
  obtain ⟨_, htotal, h⟩ := Checked.bind_eq_ok.mp h
  obtain ⟨hlt', rfl⟩ := Checked.checkedAdd_eq_ok.mp htotal
  refine ⟨hlt, hlt', ?_⟩
  cases hstate : circuit.state with
  | closed =>
    simp only [hstate] at h
    split at h
    · rename_i hthreshold
      obtain ⟨_, htrip, h⟩ := Checked.bind_eq_ok.mp h
      obtain ⟨-, rfl⟩ := trip_eq_ok.mp htrip
      exact .inr (.inl ⟨rfl, hthreshold, (Except.ok.inj h).symm⟩)
    · rename_i hthreshold
      exact .inl ⟨rfl, Nat.not_le.mp hthreshold, (Except.ok.inj h).symm⟩
  | halfOpen =>
    simp only [hstate] at h
    exact .inr (.inr (.inl ⟨rfl, (trip_eq_ok.mp h).2⟩))
  | opened =>
    simp only [hstate] at h
    exact .inr (.inr (.inr ⟨rfl, (Except.ok.inj h).symm⟩))

/-- A passing check half-opens an open circuit; a failing one counts against a closed circuit, and
opens it at the threshold. -/
theorem updateHealth_cases {healthy : Bool}
    (h : circuit.updateHealth now healthy = .ok circuit') :
    (healthy = true ∧ circuit.state = .opened ∧
      circuit' = { circuit with
        lastHealthCheck := some now
        healthy := true
        state := .halfOpen }) ∨
    (healthy = false ∧ circuit.state = .closed ∧
      circuit.consecutiveFailures + 1 < circuit.config.failureThreshold ∧
      circuit' = { circuit with
        lastHealthCheck := some now
        healthy := false
        consecutiveFailures := circuit.consecutiveFailures + 1 }) ∨
    (healthy = false ∧ circuit.state = .closed ∧
      circuit.config.failureThreshold ≤ circuit.consecutiveFailures + 1 ∧
      circuit' = { circuit with
        lastHealthCheck := some now
        healthy := false
        consecutiveFailures := circuit.consecutiveFailures + 1
        state := .opened
        totalCircuitOpens := circuit.totalCircuitOpens + 1 }) ∨
    ((healthy = true → circuit.state ≠ .opened) ∧ (healthy = false → circuit.state ≠ .closed) ∧
      circuit' = { circuit with
        lastHealthCheck := some now
        healthy }) := by
  simp only [updateHealth] at h
  split_ifs at h with hpass hfail
  · obtain ⟨rfl, hstate⟩ := hpass
    exact .inl ⟨rfl, hstate, (Except.ok.inj h).symm⟩
  · obtain ⟨hhealthy, hstate⟩ := hfail
    obtain rfl : healthy = false := by simpa using hhealthy
    obtain ⟨_, hconsecutive, h⟩ := Checked.bind_eq_ok.mp h
    obtain ⟨-, rfl⟩ := Checked.checkedAdd_eq_ok.mp hconsecutive
    split_ifs at h with hthreshold
    · exact .inr (.inr (.inl ⟨rfl, hstate, hthreshold, (trip_eq_ok.mp h).2⟩))
    · exact .inr (.inl ⟨rfl, hstate, Nat.not_le.mp hthreshold, (Except.ok.inj h).symm⟩)
  · refine .inr (.inr (.inr ⟨fun hhealthy hstate => hpass ⟨hhealthy, hstate⟩,
      fun hhealthy hstate => hfail ⟨by simp [hhealthy], hstate⟩, (Except.ok.inj h).symm⟩))

end UpstreamCircuit

/-! ## The manager -/

/-- Manages circuit breakers for all upstream services. -/
structure CircuitBreakerManager where
  circuits : EntryMap String UpstreamCircuit
  defaultConfig : CircuitBreakerConfig

namespace CircuitBreakerManager

def new (defaultConfig : CircuitBreakerConfig) : CircuitBreakerManager where
  circuits := EntryMap.new
  defaultConfig

/-- `circuits.entry(upstream).or_insert_with(..)`: the circuit there, or a new one. -/
def entry (upstream : String) (mgr : CircuitBreakerManager) : UpstreamCircuit :=
  (mgr.circuits.get upstream).getD (.new mgr.defaultConfig)

/-- The circuit written back. -/
def put (upstream : String) (circuit : UpstreamCircuit) (mgr : CircuitBreakerManager) :
    CircuitBreakerManager :=
  { mgr with circuits := mgr.circuits.insert upstream circuit }

/-- Register an upstream with optional custom config. -/
def registerUpstream (upstream : String) (config : Option CircuitBreakerConfig)
    (mgr : CircuitBreakerManager) : CircuitBreakerManager :=
  match mgr.circuits.get upstream with
  | some _ => mgr
  | none => mgr.put upstream (.new (config.getD mgr.defaultConfig))

/-- Check if a request to this upstream should be allowed. -/
def checkRequest (now : ℕ) (upstream : String) (mgr : CircuitBreakerManager) :
    Checked (CircuitBreakerManager × Except CircuitState Unit) := do
  let (circuit, result) ← (mgr.entry upstream).checkRequest now
  pure (mgr.put upstream circuit, result)

/-- Record a successful response from an upstream. -/
def recordSuccess (now : ℕ) (upstream : String) (mgr : CircuitBreakerManager) :
    CircuitBreakerManager :=
  match mgr.circuits.get upstream with
  | some circuit => mgr.put upstream (circuit.recordSuccess now)
  | none => mgr

/-- Record a failure from an upstream. -/
def recordFailure (now : ℕ) (upstream : String) (mgr : CircuitBreakerManager) :
    Checked CircuitBreakerManager := do
  let circuit ← (mgr.entry upstream).recordFailure now
  pure (mgr.put upstream circuit)

/-- Update health check result for an upstream. -/
def updateHealth (now : ℕ) (upstream : String) (healthy : Bool) (mgr : CircuitBreakerManager) :
    Checked CircuitBreakerManager :=
  match mgr.circuits.get upstream with
  | some circuit => do
    let circuit ← circuit.updateHealth now healthy
    pure (mgr.put upstream circuit)
  | none => pure mgr

/-- Get the state for a specific upstream. -/
def getUpstreamState (upstream : String) (mgr : CircuitBreakerManager) : Option CircuitState :=
  (mgr.circuits.get upstream).map UpstreamCircuit.state

end CircuitBreakerManager

/-! ## The calls -/

/-- A call of a request or a health check, with the time it is made at. -/
inductive BreakerCall
  | registerUpstream (upstream : String) (config : Option CircuitBreakerConfig)
  | checkRequest (now : ℕ) (upstream : String)
  | recordSuccess (now : ℕ) (upstream : String)
  | recordFailure (now : ℕ) (upstream : String)
  | updateHealth (now : ℕ) (upstream : String) (healthy : Bool)
deriving DecidableEq, Repr

/-- What it answers; `ok` is a request admitted. -/
inductive BreakerAnswer
  | done
  | checked (result : Except CircuitState Unit)
deriving Repr

/-- **The circuit breakers**, one locked call at a time. -/
def breakerMachine : Machine CircuitBreakerManager BreakerCall BreakerAnswer where
  step mgr
    | .registerUpstream upstream config => pure (mgr.registerUpstream upstream config, .done)
    | .checkRequest now upstream => do
      let (mgr, result) ← mgr.checkRequest now upstream
      pure (mgr, .checked result)
    | .recordSuccess now upstream => pure (mgr.recordSuccess now upstream, .done)
    | .recordFailure now upstream => do
      let mgr ← mgr.recordFailure now upstream
      pure (mgr, .done)
    | .updateHealth now upstream healthy => do
      let mgr ← mgr.updateHealth now upstream healthy
      pure (mgr, .done)

/-! ## One upstream's part

A call about an upstream moves its circuit, and a call about another leaves it alone. -/

namespace BreakerCall

/-- The upstream the call is about. -/
def upstream : BreakerCall → String
  | .registerUpstream upstream _ => upstream
  | .checkRequest _ upstream => upstream
  | .recordSuccess _ upstream => upstream
  | .recordFailure _ upstream => upstream
  | .updateHealth _ upstream _ => upstream

/-- What the call does to the circuit of its upstream, if there is one. -/
def moveCircuit (defaultConfig : CircuitBreakerConfig) (circuit? : Option UpstreamCircuit) :
    BreakerCall → Checked (Option UpstreamCircuit × BreakerAnswer)
  | .registerUpstream _ config => pure (circuit?.getD (.new (config.getD defaultConfig)), .done)
  | .checkRequest now _ => do
    let (circuit, result) ← (circuit?.getD (.new defaultConfig)).checkRequest now
    pure (some circuit, .checked result)
  | .recordSuccess now _ => pure (circuit?.map (UpstreamCircuit.recordSuccess now), .done)
  | .recordFailure now _ => do
    let circuit ← (circuit?.getD (.new defaultConfig)).recordFailure now
    pure (some circuit, .done)
  | .updateHealth now _ healthy => do
    let circuit? ← circuit?.mapM (UpstreamCircuit.updateHealth now healthy)
    pure (circuit?, .done)

end BreakerCall

/-- One upstream's circuit, driven by the calls about it. -/
def circuitMachine (defaultConfig : CircuitBreakerConfig) :
    Machine (Option UpstreamCircuit) BreakerCall BreakerAnswer where
  step circuit? call := call.moveCircuit defaultConfig circuit?

section Step

variable {mgr mgr' : CircuitBreakerManager} {call : BreakerCall} {answer : BreakerAnswer}

/-- **A call writes back the circuit of its upstream**, moved, and nothing else. -/
theorem breaker_step_put (h : breakerMachine.step mgr call = .ok (mgr', answer)) :
    ∃ circuit?, call.moveCircuit mgr.defaultConfig (mgr.circuits.get call.upstream)
        = .ok (circuit?, answer) ∧
      ((circuit? = mgr.circuits.get call.upstream ∧ mgr' = mgr) ∨
        ∃ circuit, circuit? = some circuit ∧ mgr' = mgr.put call.upstream circuit) := by
  cases call with
  | registerUpstream upstream config =>
    obtain ⟨rfl, rfl⟩ := Prod.mk.inj (Except.ok.inj h)
    refine ⟨_, rfl, ?_⟩
    rw [BreakerCall.upstream, CircuitBreakerManager.registerUpstream]
    cases mgr.circuits.get upstream with
    | none => exact .inr ⟨_, rfl, rfl⟩
    | some circuit => exact .inl ⟨rfl, rfl⟩
  | checkRequest now upstream =>
    obtain ⟨⟨mgr₁, result⟩, hcheck, h⟩ := Checked.bind_eq_ok.mp h
    obtain ⟨⟨circuit, result'⟩, hcircuit, hput⟩ := Checked.bind_eq_ok.mp hcheck
    obtain ⟨rfl, rfl⟩ := Prod.mk.inj (Except.ok.inj hput)
    obtain ⟨rfl, rfl⟩ := Prod.mk.inj (Except.ok.inj h)
    exact ⟨some circuit, Checked.bind_eq_ok.mpr ⟨_, hcircuit, rfl⟩, .inr ⟨circuit, rfl, rfl⟩⟩
  | recordSuccess now upstream =>
    obtain ⟨rfl, rfl⟩ := Prod.mk.inj (Except.ok.inj h)
    refine ⟨_, rfl, ?_⟩
    rw [BreakerCall.upstream, CircuitBreakerManager.recordSuccess]
    cases mgr.circuits.get upstream with
    | none => exact .inl ⟨rfl, rfl⟩
    | some circuit => exact .inr ⟨_, rfl, rfl⟩
  | recordFailure now upstream =>
    obtain ⟨mgr₁, hfailure, h⟩ := Checked.bind_eq_ok.mp h
    obtain ⟨circuit, hcircuit, hput⟩ := Checked.bind_eq_ok.mp hfailure
    obtain rfl := Except.ok.inj hput
    obtain ⟨rfl, rfl⟩ := Prod.mk.inj (Except.ok.inj h)
    exact ⟨some circuit, Checked.bind_eq_ok.mpr ⟨_, hcircuit, rfl⟩, .inr ⟨circuit, rfl, rfl⟩⟩
  | updateHealth now upstream healthy =>
    obtain ⟨mgr₁, hhealth, h⟩ := Checked.bind_eq_ok.mp h
    obtain ⟨rfl, rfl⟩ := Prod.mk.inj (Except.ok.inj h)
    rw [CircuitBreakerManager.updateHealth] at hhealth
    rw [BreakerCall.upstream]
    cases hget : mgr.circuits.get upstream with
    | none =>
      simp only [hget] at hhealth
      exact ⟨none, rfl, .inl ⟨rfl, (Except.ok.inj hhealth).symm⟩⟩
    | some circuit =>
      simp only [hget] at hhealth
      obtain ⟨circuit', hcircuit, hput⟩ := Checked.bind_eq_ok.mp hhealth
      obtain rfl := Except.ok.inj hput
      refine ⟨some circuit', Checked.bind_eq_ok.mpr ⟨some circuit', ?_, rfl⟩,
        .inr ⟨circuit', rfl, rfl⟩⟩
      rw [Option.mapM_some, hcircuit]
      rfl

/-- **The circuit of the call's upstream moves** by its own transition. -/
theorem breaker_step_self (h : breakerMachine.step mgr call = .ok (mgr', answer)) :
    call.moveCircuit mgr.defaultConfig (mgr.circuits.get call.upstream)
      = .ok (mgr'.circuits.get call.upstream, answer) := by
  obtain ⟨circuit?, hmove, ⟨rfl, rfl⟩ | ⟨circuit, rfl, rfl⟩⟩ := breaker_step_put h
  · exact hmove
  · rwa [CircuitBreakerManager.put, EntryMap.get_insert_self]

/-- The circuits of other upstreams, and the configuration, stay as they are. -/
theorem breaker_step_other (h : breakerMachine.step mgr call = .ok (mgr', answer)) :
    (∀ u ≠ call.upstream, mgr'.circuits.get u = mgr.circuits.get u) ∧
      mgr'.defaultConfig = mgr.defaultConfig := by
  obtain ⟨circuit?, -, ⟨-, rfl⟩ | ⟨circuit, -, rfl⟩⟩ := breaker_step_put h
  · exact ⟨fun _ _ => rfl, rfl⟩
  · exact ⟨fun u hu => EntryMap.get_insert_of_ne _ hu _, rfl⟩

end Step

/-- The calls about one upstream, with their answers. -/
def exchanges (u : String) (calls : List BreakerCall) (answers : List BreakerAnswer) :
    List (BreakerCall × BreakerAnswer) :=
  (calls.zip answers).filter fun e => e.1.upstream = u

theorem map_fst_exchanges {u : String} {calls : List BreakerCall} {answers : List BreakerAnswer}
    (h : answers.length = calls.length) :
    (exchanges u calls answers).map Prod.fst = calls.filter fun call => call.upstream = u := by
  have hcalls : (calls.zip answers).map Prod.fst = calls := List.map_fst_zip h.ge
  conv_rhs => rw [← hcalls, List.filter_map]
  rfl

/-- **Each circuit runs by itself**: a run of the breakers is, for each upstream, a run of its
circuit. -/
theorem breaker_run_circuit {mgr mgr' : CircuitBreakerManager} {calls : List BreakerCall}
    {answers : List BreakerAnswer} (hrun : breakerMachine.run mgr calls = .ok (mgr', answers))
    (u : String) :
    (circuitMachine mgr.defaultConfig).run (mgr.circuits.get u)
        ((exchanges u calls answers).map Prod.fst)
      = .ok (mgr'.circuits.get u, (exchanges u calls answers).map Prod.snd) := by
  refine breakerMachine.run_project (circuitMachine mgr.defaultConfig)
    (p := fun call => call.upstream = u) (π := fun s => s.circuits.get u)
    (I := fun s => s.defaultConfig = mgr.defaultConfig) ?_ ?_ ?_ rfl hrun
  · exact fun s call s' answer hI hstep => (breaker_step_other hstep).2.trans hI
  · intro s call s' answer hI hstep hu
    obtain rfl : call.upstream = u := of_decide_eq_true hu
    exact hI ▸ breaker_step_self hstep
  · intro s call s' answer _ hstep hu
    exact (breaker_step_other hstep).1 u (Ne.symm (of_decide_eq_false hu))

end PqcGateway
