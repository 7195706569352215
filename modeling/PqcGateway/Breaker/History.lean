import PqcGateway.Breaker.Probe
import Mathlib.Data.List.DropRight

/-!
# Breaker/History — what a circuit remembers of the calls about it

`nextState` is the state diagram of a circuit and `Moved` says what a call makes of each of its
fields; both are proved of the code once, in `moved_of_onCircuit`.  From there the fields of a
circuit are functions of the calls made about its upstream since the one that created it
(`run_rememberedBy`).

* `moved_of_onCircuit` — each field after a call, from the fields before it.
* `run_lastFailureTime` — the last failure of a request is remembered, whatever came after it.
-/

namespace PqcGateway

/-! ## The calls about a circuit -/

namespace BreakerCall

/-- The time the call is made at; a registration reads no clock. -/
def time : BreakerCall → Option ℕ
  | .registerUpstream _ _ => none
  | .checkRequest now _ => some now
  | .recordSuccess now _ => some now
  | .recordFailure now _ => some now
  | .updateHealth now _ _ => some now

/-- The call makes a circuit for its upstream, if there is none. -/
def creates : BreakerCall → Bool
  | .registerUpstream _ _ => true
  | .checkRequest _ _ => true
  | .recordFailure _ _ => true
  | _ => false

/-- The call records a success. -/
def isSuccess : BreakerCall → Bool
  | .recordSuccess _ _ => true
  | _ => false

/-- The call records the failure of a request. -/
def isRecordFailure : BreakerCall → Bool
  | .recordFailure _ _ => true
  | _ => false

/-- When the call records the failure of a request. -/
def failureTime : BreakerCall → Option ℕ
  | .recordFailure now _ => some now
  | _ => none

/-- A failure event: a request failed, or a health check did. -/
def isFailure : BreakerCall → Bool
  | .recordFailure _ _ => true
  | .updateHealth _ _ healthy => !healthy
  | _ => false

end BreakerCall

/-- The times of the calls do not decrease. -/
def Timed (calls : List BreakerCall) : Prop := (calls.filterMap BreakerCall.time).Pairwise (· ≤ ·)

instance (calls : List BreakerCall) : Decidable (Timed calls) :=
  inferInstanceAs (Decidable (List.Pairwise _ _))

/-! ## What a call does to a circuit -/

namespace BreakerCall

instance (now : ℕ) (circuit : UpstreamCircuit) : Decidable (circuit.Recovered now) :=
  decidable_of_iff
    ((circuit.lastFailureTime.any fun lastFail => circuit.config.recoveryTimeout ≤ now - lastFail)
      = true) (by
    simp [UpstreamCircuit.Recovered, Option.any_eq_true])

/-- The call ends the wait of an open circuit. -/
def EndsWait (circuit : UpstreamCircuit) : BreakerCall → Prop
  | .checkRequest now _ => circuit.Recovered now
  | .updateHealth _ _ healthy => healthy = true
  | _ => False

instance (circuit : UpstreamCircuit) : (call : BreakerCall) → Decidable (call.EndsWait circuit)
  | .registerUpstream _ _ => .isFalse not_false
  | .checkRequest now _ => inferInstanceAs (Decidable (circuit.Recovered now))
  | .recordSuccess _ _ => .isFalse not_false
  | .recordFailure _ _ => .isFalse not_false
  | .updateHealth _ _ healthy => inferInstanceAs (Decidable (healthy = true))

/-- **The state diagram** of a circuit. -/
def nextState (circuit : UpstreamCircuit) (call : BreakerCall) : CircuitState :=
  match circuit.state with
  | .closed =>
    if call.isFailure ∧ circuit.config.failureThreshold ≤ circuit.consecutiveFailures + 1 then
      .opened
    else .closed
  | .opened =>
    if call.isSuccess then .closed else if call.EndsWait circuit then .halfOpen else .opened
  | .halfOpen =>
    if call.isSuccess then .closed else if call.isRecordFailure then .opened else .halfOpen

theorem nextState_of_closed {circuit : UpstreamCircuit} (h : circuit.state = .closed)
    (call : BreakerCall) : call.nextState circuit =
      if call.isFailure ∧ circuit.config.failureThreshold ≤ circuit.consecutiveFailures + 1 then
        .opened
      else .closed := by
  rw [nextState, h]

theorem nextState_of_opened {circuit : UpstreamCircuit} (h : circuit.state = .opened)
    (call : BreakerCall) : call.nextState circuit =
      if call.isSuccess then .closed else if call.EndsWait circuit then .halfOpen else .opened := by
  rw [nextState, h]

theorem nextState_of_halfOpen {circuit : UpstreamCircuit} (h : circuit.state = .halfOpen)
    (call : BreakerCall) : call.nextState circuit =
      if call.isSuccess then .closed else if call.isRecordFailure then .opened else .halfOpen := by
  rw [nextState, h]

/-- What the call does to the circuit of its upstream, once there is one. -/
def onCircuit (circuit : UpstreamCircuit) :
    BreakerCall → Checked (UpstreamCircuit × BreakerAnswer)
  | .registerUpstream _ _ => pure (circuit, .done)
  | .checkRequest now _ => do
    let (circuit, result) ← circuit.checkRequest now
    pure (circuit, .checked result)
  | .recordSuccess now _ => pure (circuit.recordSuccess now, .done)
  | .recordFailure now _ => do
    let circuit ← circuit.recordFailure now
    pure (circuit, .done)
  | .updateHealth now _ healthy => do
    let circuit ← circuit.updateHealth now healthy
    pure (circuit, .done)

end BreakerCall

/-- What a call makes of the fields of a circuit. -/
structure Moved (call : BreakerCall) (answer : BreakerAnswer)
    (circuit circuit' : UpstreamCircuit) : Prop where
  config : circuit'.config = circuit.config
  state : circuit'.state = call.nextState circuit
  reset : call.isSuccess = true → circuit'.consecutiveFailures = 0
  count : circuit.state = .closed → call.isSuccess = false →
    circuit'.consecutiveFailures = circuit.consecutiveFailures + call.isFailure.toNat
  lastFailureTime : circuit'.lastFailureTime = call.failureTime.or circuit.lastFailureTime
  totalRequests : circuit'.totalRequests = circuit.totalRequests + call.isCheck.toNat
  counted : call.isCheck = true → circuit'.totalRequests < 2 ^ 64
  totalFailures : circuit'.totalFailures = circuit.totalFailures + call.isRecordFailure.toNat
  totalCircuitOpens : circuit'.totalCircuitOpens = circuit.totalCircuitOpens +
    if circuit.state ≠ .opened ∧ circuit'.state = .opened then 1 else 0
  admits : answer.admits = (call.isCheck && decide (circuit'.state ≠ .opened))

section

open BreakerCall

variable {call : BreakerCall} {answer : BreakerAnswer} {circuit circuit' : UpstreamCircuit}

attribute [local simp] isSuccess isFailure isRecordFailure isCheck failureTime EndsWait
  BreakerAnswer.admits

/-- **A call moves each field of the circuit** as `Moved` says. -/
theorem moved_of_onCircuit (h : call.onCircuit circuit = .ok (circuit', answer)) :
    Moved call answer circuit circuit' := by
  cases call with
  | registerUpstream upstream config =>
    obtain ⟨rfl, rfl⟩ := Prod.mk.inj (Except.ok.inj h)
    constructor <;> cases hstate : circuit.state <;> simp [nextState, hstate]
  | checkRequest now upstream =>
    obtain ⟨⟨circuit₁, result⟩, hcheck, h⟩ := Checked.bind_eq_ok.mp h
    obtain ⟨rfl, rfl⟩ := Prod.mk.inj (Except.ok.inj h)
    obtain ⟨hlt, ⟨hstate, rfl, rfl⟩ | ⟨hstate, hwait, rfl, rfl⟩ | ⟨hstate, hwait, rfl, rfl⟩⟩ :=
      UpstreamCircuit.checkRequest_cases hcheck
    · constructor
      case counted => exact fun _ => hlt
      all_goals cases hstate' : circuit.state <;> simp_all [nextState]
    · constructor
      case counted => exact fun _ => hlt
      all_goals simp [nextState, hstate, hwait]
    · constructor
      case counted => exact fun _ => hlt
      all_goals simp [nextState, hstate, hwait]
  | recordSuccess now upstream =>
    obtain ⟨rfl, rfl⟩ := Prod.mk.inj (Except.ok.inj h)
    constructor <;> cases hstate : circuit.state <;>
      simp [UpstreamCircuit.recordSuccess, nextState, hstate]
  | recordFailure now upstream =>
    obtain ⟨circuit₁, hfailure, h⟩ := Checked.bind_eq_ok.mp h
    obtain ⟨rfl, rfl⟩ := Prod.mk.inj (Except.ok.inj h)
    obtain ⟨-, -, ⟨hstate, hlt, rfl⟩ | ⟨hstate, hge, rfl⟩ | ⟨hstate, rfl⟩ | ⟨hstate, rfl⟩⟩ :=
      UpstreamCircuit.recordFailure_cases hfailure
    · constructor <;> simp [nextState, hstate, hlt]
    · constructor <;> simp [nextState, hstate, hge]
    · constructor <;> simp [nextState, hstate]
    · constructor <;> simp [nextState, hstate]
  | updateHealth now upstream healthy =>
    obtain ⟨circuit₁, hhealth, h⟩ := Checked.bind_eq_ok.mp h
    obtain ⟨rfl, rfl⟩ := Prod.mk.inj (Except.ok.inj h)
    obtain ⟨rfl, hstate, rfl⟩ | ⟨rfl, hstate, hlt, rfl⟩ | ⟨rfl, hstate, hge, rfl⟩ |
      ⟨hopened, hclosed, rfl⟩ := UpstreamCircuit.updateHealth_cases hhealth
    · constructor <;> simp [nextState, hstate]
    · constructor <;> simp [nextState, hstate, hlt]
    · constructor <;> simp [nextState, hstate, hge]
    · constructor <;> cases hstate : circuit.state <;> cases healthy <;> simp_all [nextState]

/-- A call finds a circuit, or makes one, and moves it; or there is none and it does nothing. -/
theorem moveCircuit_cases {defaultConfig : CircuitBreakerConfig}
    {circuit? circuit?' : Option UpstreamCircuit}
    (h : call.moveCircuit defaultConfig circuit? = .ok (circuit?', answer)) :
    (circuit? = none ∧ call.creates = false ∧ circuit?' = none ∧ answer = .done) ∨
    ∃ circuit circuit', (circuit? = some circuit ∨
        circuit? = none ∧ call.creates = true ∧ ∃ config, circuit = .new config) ∧
      circuit?' = some circuit' ∧ Moved call answer circuit circuit' := by
  suffices hmove : (circuit? = none ∧ call.creates = false ∧ circuit?' = none ∧ answer = .done) ∨
      ∃ circuit circuit', (circuit? = some circuit ∨
          circuit? = none ∧ call.creates = true ∧ ∃ config, circuit = .new config) ∧
        circuit?' = some circuit' ∧ call.onCircuit circuit = .ok (circuit', answer) by
    refine hmove.imp_right ?_
    rintro ⟨circuit, circuit', hfound, hafter, hcircuit⟩
    exact ⟨circuit, circuit', hfound, hafter, moved_of_onCircuit hcircuit⟩
  cases call with
  | registerUpstream upstream config =>
    obtain ⟨rfl, rfl⟩ := Prod.mk.inj (Except.ok.inj h)
    cases circuit? with
    | none => exact .inr ⟨_, _, .inr ⟨rfl, rfl, _, rfl⟩, rfl, rfl⟩
    | some circuit => exact .inr ⟨circuit, circuit, .inl rfl, rfl, rfl⟩
  | checkRequest now upstream =>
    obtain ⟨⟨circuit', result⟩, hcheck, h⟩ := Checked.bind_eq_ok.mp h
    obtain ⟨rfl, rfl⟩ := Prod.mk.inj (Except.ok.inj h)
    refine .inr ⟨_, circuit', ?_, rfl, Checked.bind_eq_ok.mpr ⟨_, hcheck, rfl⟩⟩
    cases circuit? with
    | none => exact .inr ⟨rfl, rfl, _, rfl⟩
    | some circuit => exact .inl rfl
  | recordSuccess now upstream =>
    obtain ⟨rfl, rfl⟩ := Prod.mk.inj (Except.ok.inj h)
    cases circuit? with
    | none => exact .inl ⟨rfl, rfl, rfl, rfl⟩
    | some circuit => exact .inr ⟨circuit, _, .inl rfl, rfl, rfl⟩
  | recordFailure now upstream =>
    obtain ⟨circuit', hfailure, h⟩ := Checked.bind_eq_ok.mp h
    obtain ⟨rfl, rfl⟩ := Prod.mk.inj (Except.ok.inj h)
    refine .inr ⟨_, circuit', ?_, rfl, Checked.bind_eq_ok.mpr ⟨_, hfailure, rfl⟩⟩
    cases circuit? with
    | none => exact .inr ⟨rfl, rfl, _, rfl⟩
    | some circuit => exact .inl rfl
  | updateHealth now upstream healthy =>
    obtain ⟨circuit?₁, hhealth, h⟩ := Checked.bind_eq_ok.mp h
    obtain ⟨rfl, rfl⟩ := Prod.mk.inj (Except.ok.inj h)
    cases circuit? with
    | none =>
      obtain rfl := Except.ok.inj hhealth
      exact .inl ⟨rfl, rfl, rfl, rfl⟩
    | some circuit =>
      rw [Option.mapM_some] at hhealth
      obtain ⟨circuit', hmoved, hsome⟩ := Checked.bind_eq_ok.mp hhealth
      obtain rfl := Except.ok.inj hsome
      exact .inr ⟨circuit, circuit', .inl rfl, rfl, Checked.bind_eq_ok.mpr ⟨_, hmoved, rfl⟩⟩

end

/-! ## The calls since the circuit was created

A registration, a check and a failed request create the circuit of their upstream; what was reported
before that left no trace. -/

/-- The calls about the upstream, from the one that created its circuit on. -/
def life (u : String) (calls : List BreakerCall) : List BreakerCall :=
  (calls.filter fun call => call.upstream = u).dropWhile fun call => !call.creates

/-- The calls since the last recorded success. -/
def sinceSuccess (calls : List BreakerCall) : List BreakerCall :=
  calls.rtakeWhile fun call => !call.isSuccess

section

variable {u : String} {call : BreakerCall} {calls : List BreakerCall}

theorem life_concat_of_ne (hu : call.upstream ≠ u) : life u (calls ++ [call]) = life u calls := by
  rw [life, List.filter_append, List.filter_cons_of_neg (by simpa using hu), List.filter_nil,
    List.append_nil]
  rfl

theorem life_concat_of_upstream (hu : call.upstream = u) :
    life u (calls ++ [call]) = if (life u calls).isEmpty then
      [call].dropWhile fun call => !call.creates else life u calls ++ [call] := by
  rw [life, List.filter_append, List.filter_cons_of_pos (by simpa using hu), List.filter_nil,
    List.dropWhile_append]
  rfl

theorem life_concat (hu : call.upstream = u) (hlive : life u calls ≠ [] ∨ call.creates = true) :
    life u (calls ++ [call]) = life u calls ++ [call] := by
  rw [life_concat_of_upstream hu]
  by_cases hempty : life u calls = []
  · have hcreates : call.creates = true := hlive.resolve_left fun h => h hempty
    rw [hempty, if_pos List.isEmpty_nil, List.dropWhile_cons_of_neg (by simp [hcreates]),
      List.nil_append]
  · rw [if_neg fun h => hempty (List.isEmpty_iff.mp h)]

theorem life_concat_of_nil (hempty : life u calls = []) (hcreates : call.creates = false) :
    life u (calls ++ [call]) = [] := by
  by_cases hu : call.upstream = u
  · rw [life_concat_of_upstream hu, hempty, if_pos List.isEmpty_nil,
      List.dropWhile_cons_of_pos (by simp [hcreates]), List.dropWhile_nil]
  · rw [life_concat_of_ne hu, hempty]

/-- The calls about the upstream before there is a circuit create none. -/
theorem filter_eq_append_life (u : String) (calls : List BreakerCall) :
    ∃ before, calls.filter (fun call => call.upstream = u) = before ++ life u calls ∧
      ∀ call ∈ before, call.creates = false := by
  refine ⟨_, List.takeWhile_append_dropWhile.symm, fun call hcall => ?_⟩
  simpa using List.all_eq_true.mp List.all_takeWhile call hcall

theorem countP_life {p : BreakerCall → Bool} (hp : ∀ call, p call = true → call.creates = true)
    (u : String) (calls : List BreakerCall) :
    (life u calls).countP p = (calls.filter fun call => call.upstream = u).countP p := by
  obtain ⟨before, hcalls, hbefore⟩ := filter_eq_append_life u calls
  have hzero : before.countP p = 0 := List.countP_eq_zero.mpr fun call hcall h =>
    Bool.false_ne_true ((hbefore call hcall).symm.trans (hp call h))
  rw [hcalls, List.countP_append, hzero, Nat.zero_add]

theorem sinceSuccess_concat_of_success (h : call.isSuccess = true) :
    sinceSuccess (calls ++ [call]) = [] :=
  List.rtakeWhile_concat_neg _ _ _ (by rw [h]; decide)

theorem sinceSuccess_concat (h : call.isSuccess = false) :
    sinceSuccess (calls ++ [call]) = sinceSuccess calls ++ [call] :=
  List.rtakeWhile_concat_pos _ _ _ (by rw [h]; rfl)

end

/-! ## What the circuit remembers -/

/-- The circuit is what the calls since its creation made of it. -/
structure Remembers (calls : List BreakerCall) (circuit : UpstreamCircuit) : Prop where
  totalRequests : circuit.totalRequests = calls.countP BreakerCall.isCheck
  totalFailures : circuit.totalFailures = calls.countP BreakerCall.isRecordFailure
  lastFailureTime : circuit.lastFailureTime = (calls.filterMap BreakerCall.failureTime).getLast?
  consecutiveFailures : circuit.state = .closed →
    circuit.consecutiveFailures = (sinceSuccess calls).countP BreakerCall.isFailure
  below : circuit.state = .closed → 1 ≤ circuit.config.failureThreshold →
    circuit.consecutiveFailures < circuit.config.failureThreshold

theorem remembers_new (config : CircuitBreakerConfig) : Remembers [] (.new config) where
  totalRequests := rfl
  totalFailures := rfl
  lastFailureTime := rfl
  consecutiveFailures _ := rfl
  below _ h := h

section

variable {call : BreakerCall} {answer : BreakerAnswer} {circuit circuit' : UpstreamCircuit}

/-- A circuit is closed after a success, or because it was and nothing opened it. -/
theorem Moved.closed_cases (h : Moved call answer circuit circuit')
    (hclosed : circuit'.state = .closed) : call.isSuccess = true ∨
      call.isSuccess = false ∧ circuit.state = .closed ∧ ¬ (call.isFailure = true ∧
        circuit.config.failureThreshold ≤ circuit.consecutiveFailures + 1) := by
  rw [h.state] at hclosed
  cases hsuccess : call.isSuccess with
  | true => exact .inl rfl
  | false =>
    refine .inr ⟨rfl, ?_⟩
    cases hstate : circuit.state with
    | closed =>
      rw [BreakerCall.nextState_of_closed hstate] at hclosed
      exact ⟨rfl, fun h => by rw [if_pos h] at hclosed; cases hclosed⟩
    | opened =>
      rw [BreakerCall.nextState_of_opened hstate, hsuccess, if_neg Bool.false_ne_true] at hclosed
      split at hclosed <;> cases hclosed
    | halfOpen =>
      rw [BreakerCall.nextState_of_halfOpen hstate, hsuccess, if_neg Bool.false_ne_true] at hclosed
      split at hclosed <;> cases hclosed

/-- **One more call is remembered.** -/
theorem Remembers.concat {calls : List BreakerCall} (h : Remembers calls circuit)
    (hmoved : Moved call answer circuit circuit') : Remembers (calls ++ [call]) circuit' where
  totalRequests := by
    rw [hmoved.totalRequests, h.totalRequests, List.countP_append, List.countP_singleton]
    cases call.isCheck <;> rfl
  totalFailures := by
    rw [hmoved.totalFailures, h.totalFailures, List.countP_append, List.countP_singleton]
    cases call.isRecordFailure <;> rfl
  lastFailureTime := by
    rw [hmoved.lastFailureTime, h.lastFailureTime, List.filterMap_append, List.getLast?_append]
    cases hfailure : call.failureTime with
    | none => rw [List.filterMap_cons_none hfailure]; rfl
    | some now => rw [List.filterMap_cons_some hfailure]; rfl
  consecutiveFailures hclosed := by
    obtain hsuccess | ⟨hsuccess, hstate, -⟩ := hmoved.closed_cases hclosed
    · rw [hmoved.reset hsuccess, sinceSuccess_concat_of_success hsuccess]
      rfl
    · rw [hmoved.count hstate hsuccess, h.consecutiveFailures hstate,
        sinceSuccess_concat hsuccess, List.countP_append, List.countP_singleton]
      cases call.isFailure <;> rfl
  below hclosed hthreshold := by
    rw [hmoved.config] at hthreshold ⊢
    obtain hsuccess | ⟨hsuccess, hstate, hfailure⟩ := hmoved.closed_cases hclosed
    · rw [hmoved.reset hsuccess]
      exact hthreshold
    · rw [hmoved.count hstate hsuccess]
      have hbelow := h.below hstate hthreshold
      cases hfail : call.isFailure with
      | true => exact Nat.not_le.mp fun hle => hfailure ⟨hfail, hle⟩
      | false => exact hbelow

end

/-- There is a circuit once a call created it, and it remembers the calls since. -/
def RememberedBy (calls : List BreakerCall) : Option UpstreamCircuit → Prop
  | none => calls = []
  | some circuit => calls ≠ [] ∧ Remembers calls circuit

/-- **Every run is remembered**: each circuit is what the calls of its life made of it. -/
theorem run_rememberedBy {defaultConfig : CircuitBreakerConfig} {calls : List BreakerCall}
    {mgr : CircuitBreakerManager} {answers : List BreakerAnswer}
    (hrun : breakerMachine.run (.new defaultConfig) calls = .ok (mgr, answers)) (u : String) :
    RememberedBy (life u calls) (mgr.circuits.get u) := by
  have hstart : RememberedBy (life u [])
      ((CircuitBreakerManager.new defaultConfig).circuits.get u) := rfl
  refine breakerMachine.run_history (I := fun calls mgr => RememberedBy (life u calls)
    (mgr.circuits.get u)) (h := []) ?_ hstart hrun
  intro calls mgr call mgr' answer hremembered hstep
  by_cases hu : call.upstream = u
  · have hmove := breaker_step_self hstep
    rw [hu] at hmove
    obtain ⟨hnone, hcreates, hafter, -⟩ | ⟨circuit, circuit', hfound, hafter, hmoved⟩ :=
      moveCircuit_cases hmove
    · rw [hnone] at hremembered
      rw [hafter]
      exact life_concat_of_nil hremembered hcreates
    · rw [hafter]
      obtain hsome | ⟨hnone, hcreates, config, rfl⟩ := hfound
      · rw [hsome] at hremembered
        rw [life_concat hu (.inl hremembered.1)]
        exact ⟨by simp, hremembered.2.concat hmoved⟩
      · rw [hnone] at hremembered
        rw [life_concat hu (.inr hcreates), show life u calls = [] from hremembered]
        exact ⟨by simp, (remembers_new config).concat hmoved⟩
  · rw [life_concat_of_ne hu, (breaker_step_other hstep).1 u (Ne.symm hu)]
    exact hremembered

theorem isCheck_creates {call : BreakerCall} (h : call.isCheck = true) : call.creates = true := by
  cases call with
  | checkRequest now upstream => rfl
  | _ => cases h

theorem isRecordFailure_creates {call : BreakerCall} (h : call.isRecordFailure = true) :
    call.creates = true := by
  cases call with
  | recordFailure now upstream => rfl
  | _ => cases h

section

variable {defaultConfig : CircuitBreakerConfig} {calls : List BreakerCall}
  {mgr : CircuitBreakerManager} {answers : List BreakerAnswer} {u : String}
  {circuit : UpstreamCircuit}

/-- A circuit there is remembers the calls of its life. -/
theorem run_remembers
    (hrun : breakerMachine.run (.new defaultConfig) calls = .ok (mgr, answers))
    (hget : mgr.circuits.get u = some circuit) : Remembers (life u calls) circuit := by
  have hremembered := run_rememberedBy hrun u
  rw [hget] at hremembered
  exact hremembered.2

/-- **Every request of the run is counted.** -/
theorem run_totalRequests
    (hrun : breakerMachine.run (.new defaultConfig) calls = .ok (mgr, answers))
    (hget : mgr.circuits.get u = some circuit) : circuit.totalRequests = requests u calls :=
  (run_remembers hrun hget).totalRequests.trans
    (countP_life (fun _ => isCheck_creates) u calls)

/-- When the last failure of a request for the upstream was recorded. -/
def lastFailure (u : String) (calls : List BreakerCall) : Option ℕ :=
  ((calls.filter fun call => call.upstream = u).filterMap BreakerCall.failureTime).getLast?

/-- **The last failure of the run is remembered.** -/
theorem run_lastFailureTime
    (hrun : breakerMachine.run (.new defaultConfig) calls = .ok (mgr, answers))
    (hget : mgr.circuits.get u = some circuit) :
    circuit.lastFailureTime = lastFailure u calls := by
  obtain ⟨before, hcalls, hbefore⟩ := filter_eq_append_life u calls
  have hnone : before.filterMap BreakerCall.failureTime = [] := by
    refine List.filterMap_eq_nil_iff.mpr fun call hcall => ?_
    cases call with
    | recordFailure now upstream => cases hbefore _ hcall
    | _ => rfl
  rw [(run_remembers hrun hget).lastFailureTime, lastFailure, hcalls, List.filterMap_append, hnone,
    List.nil_append]

end

end PqcGateway
