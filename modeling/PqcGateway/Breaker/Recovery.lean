import PqcGateway.Breaker.Transitions

/-!
# Breaker/Recovery — how long an open circuit waits

An open circuit measures its wait from the last failure of a request (`lastFailure`).  A failing
health check opens a circuit too, and leaves that time as it was: with no failure recorded the
circuit is never probed (`probed_iff`), and with an old one it is probed too soon (`waits_iff`).

* `never_probed` — a failing health check opens a circuit, and it is never probed.
* `admitted_at_once` — a request failed a second before, and the next one is admitted.
-/

namespace PqcGateway

section

variable {mgr : CircuitBreakerManager} {u : String} {circuit : UpstreamCircuit} {now : ℕ}

/-! ## A request of an open circuit -/

theorem UpstreamCircuit.checkRequest_of_recovered (hopened : circuit.state = .opened)
    (hrecovered : circuit.Recovered now) (hlt : circuit.totalRequests + 1 < 2 ^ 64) :
    circuit.checkRequest now = .ok ({ circuit with
      totalRequests := circuit.totalRequests + 1
      state := .halfOpen }, .ok ()) := by
  obtain ⟨lastFail, hlast, htimeout⟩ := hrecovered
  simp only [UpstreamCircuit.checkRequest, Checked.checkedAdd_of_lt hlt, Checked.ok_bind, hopened,
    hlast, htimeout, if_true]
  rfl

/-- **An open circuit admits a request** once it has recovered, and half-opens. -/
theorem probed_iff_recovered (hget : mgr.circuits.get u = some circuit)
    (hopened : circuit.state = .opened) :
    (∃ mgr', breakerMachine.step mgr (.checkRequest now u) = .ok (mgr', .checked (.ok ())) ∧
      mgr'.getUpstreamState u = some .halfOpen) ↔
    circuit.Recovered now ∧ circuit.totalRequests + 1 < 2 ^ 64 := by
  constructor
  · rintro ⟨mgr', hstep, -⟩
    have hmove := breaker_step_self hstep
    rw [BreakerCall.upstream, hget] at hmove
    obtain ⟨⟨circuit', result⟩, hcheck, hdone⟩ := Checked.bind_eq_ok.mp hmove
    obtain ⟨-, hresult⟩ := Prod.mk.inj (Except.ok.inj hdone)
    obtain rfl : result = .ok () := BreakerAnswer.checked.inj hresult
    obtain ⟨hlt, ⟨hstate, -⟩ | ⟨-, hrecovered, -⟩ | ⟨-, -, hrefused, -⟩⟩ :=
      UpstreamCircuit.checkRequest_cases hcheck
    · exact absurd hopened hstate
    · exact ⟨hrecovered, hlt⟩
    · cases hrefused
  · rintro ⟨hrecovered, hlt⟩
    have hcheck : mgr.checkRequest now u = .ok (mgr.put u { circuit with
        totalRequests := circuit.totalRequests + 1
        state := .halfOpen }, .ok ()) := by
      rw [CircuitBreakerManager.checkRequest, CircuitBreakerManager.entry, hget, Option.getD_some,
        UpstreamCircuit.checkRequest_of_recovered hopened hrecovered hlt]
      rfl
    refine ⟨_, Checked.bind_eq_ok.mpr ⟨_, hcheck, rfl⟩, ?_⟩
    rw [CircuitBreakerManager.getUpstreamState, CircuitBreakerManager.put,
      EntryMap.get_insert_self]
    rfl

/-! ## The last failure

Health checks do not set it, and a success does not clear it. -/

theorem exists_of_lastFailure {calls : List BreakerCall} {lastFail : ℕ}
    (h : lastFailure u calls = some lastFail) :
    ∃ call ∈ calls, call.upstream = u ∧ call.failureTime = some lastFail := by
  obtain ⟨call, hcall, htime⟩ := List.mem_filterMap.mp (List.mem_of_getLast? h)
  obtain ⟨hmem, hu⟩ := List.mem_filter.mp hcall
  exact ⟨call, hmem, of_decide_eq_true hu, htime⟩

theorem lastFailure_isSome_iff {calls : List BreakerCall} : (lastFailure u calls).isSome = true ↔
    ∃ call ∈ calls, call.upstream = u ∧ call.isRecordFailure = true := by
  constructor
  · intro h
    obtain ⟨lastFail, hlast⟩ := Option.isSome_iff_exists.mp h
    obtain ⟨call, hcall, hu, htime⟩ := exists_of_lastFailure hlast
    refine ⟨call, hcall, hu, ?_⟩
    cases call with
    | recordFailure now upstream => rfl
    | _ => cases htime
  · rintro ⟨call, hcall, hu, hfailure⟩
    cases call with
    | recordFailure now upstream =>
      have hmem : now ∈ (calls.filter fun call => call.upstream = u).filterMap
          BreakerCall.failureTime :=
        List.mem_filterMap.mpr ⟨_, List.mem_filter.mpr ⟨hcall, decide_eq_true hu⟩, rfl⟩
      rw [lastFailure, List.getLast?_isSome]
      exact List.ne_nil_of_mem hmem
    | _ => cases hfailure

theorem time_of_failureTime {call : BreakerCall} {t : ℕ} (h : call.failureTime = some t) :
    call.time = some t := by
  cases call with
  | recordFailure now upstream => exact h
  | _ => cases h

/-! ## Probing an open circuit -/

/-- **An open circuit is probed after its timeout exactly if a request had failed.**  Where nothing
happens to the upstream for the recovery timeout, its next request is admitted and half-opens the
circuit if and only if a failure of a request was ever recorded for it (and the request can be
counted). -/
theorem probed_iff {defaultConfig : CircuitBreakerConfig} {calls : List BreakerCall}
    {answers : List BreakerAnswer}
    (hrun : breakerMachine.run (.new defaultConfig) calls = .ok (mgr, answers))
    (hget : mgr.circuits.get u = some circuit) (hopened : circuit.state = .opened)
    (hquiet : ∀ call ∈ calls, call.upstream = u → ∀ t, call.time = some t →
      t + circuit.config.recoveryTimeout ≤ now) :
    (∃ mgr', breakerMachine.step mgr (.checkRequest now u) = .ok (mgr', .checked (.ok ())) ∧
      mgr'.getUpstreamState u = some .halfOpen) ↔
    (∃ call ∈ calls, call.upstream = u ∧ call.isRecordFailure = true) ∧
      requests u calls + 1 < 2 ^ 64 := by
  have hrecovered : circuit.Recovered now ↔ (lastFailure u calls).isSome = true := by
    rw [UpstreamCircuit.Recovered, run_lastFailureTime hrun hget, Option.isSome_iff_exists]
    refine exists_congr fun lastFail => and_iff_left_of_imp fun hlast => ?_
    obtain ⟨call, hcall, hu, htime⟩ := exists_of_lastFailure hlast
    have hle := hquiet call hcall hu lastFail (time_of_failureTime htime)
    omega
  rw [probed_iff_recovered hget hopened, hrecovered, lastFailure_isSome_iff,
    run_totalRequests hrun hget]

end

/-- **Never probed.**  A failing health check opens a circuit, and no request is admitted however
long it waits. -/
theorem never_probed : ∃ mgr answers circuit,
    breakerMachine.run quickBreakers [.registerUpstream "a" none, .updateHealth 0 "a" false]
      = .ok (mgr, answers) ∧
    mgr.circuits.get "a" = some circuit ∧ circuit.state = .opened ∧
    ∀ now, ¬ ∃ mgr', breakerMachine.step mgr (.checkRequest now "a")
      = .ok (mgr', .checked (.ok ())) ∧ mgr'.getUpstreamState "a" = some .halfOpen := by
  refine ⟨_, _, _, rfl, rfl, rfl, fun now h => ?_⟩
  obtain ⟨⟨lastFail, hlast, -⟩, -⟩ := (probed_iff_recovered rfl rfl).mp h
  cases hlast

/-- A failed request opens a circuit; it is probed a second later. -/
theorem probed_after_failure : ∃ mgr answers circuit,
    breakerMachine.run quickBreakers [.recordFailure 0 "a"] = .ok (mgr, answers) ∧
    mgr.circuits.get "a" = some circuit ∧ circuit.state = .opened ∧
    ∃ mgr', breakerMachine.step mgr (.checkRequest (10 ^ 9) "a")
      = .ok (mgr', .checked (.ok ())) ∧ mgr'.getUpstreamState "a" = some .halfOpen := by
  have hrun : ∃ mgr answers circuit,
      breakerMachine.run quickBreakers [.recordFailure 0 "a"] = .ok (mgr, answers) ∧
      mgr.circuits.get "a" = some circuit ∧ circuit.state = .opened ∧
      circuit.config.recoveryTimeout = 10 ^ 9 := ⟨_, _, _, rfl, rfl, rfl, rfl⟩
  obtain ⟨mgr, answers, circuit, hrun, hget, hopened, htimeout⟩ := hrun
  refine ⟨mgr, answers, circuit, hrun, hget, hopened,
    (probed_iff hrun hget hopened ?_).mpr ⟨⟨_, List.mem_cons_self, rfl, rfl⟩, by decide⟩⟩
  intro call hcall hu t ht
  obtain rfl := List.mem_singleton.mp hcall
  obtain rfl := Option.some.inj ht
  rw [htimeout, Nat.zero_add]

/-! ## Waiting before the first probe

What cuts the wait short is a failure from before the opening, which the circuit still remembers. -/

/-- The call ends the wait of a circuit: a success, or a passing health check. -/
def BreakerCall.isReset : BreakerCall → Bool
  | .recordSuccess _ _ => true
  | .updateHealth _ _ healthy => healthy
  | _ => false

/-- After `calls`, the call `entry` opens the circuit of the upstream at time `T`. -/
structure Opens (defaultConfig : CircuitBreakerConfig) (u : String) (T : ℕ)
    (calls : List BreakerCall) (entry : BreakerCall) (mgr : CircuitBreakerManager)
    (circuit : UpstreamCircuit) : Prop where
  run : ∃ before answers answer,
    breakerMachine.run (.new defaultConfig) calls = .ok (before, answers) ∧
    before.getUpstreamState u ≠ some .opened ∧ breakerMachine.step before entry = .ok (mgr, answer)
  get : mgr.circuits.get u = some circuit
  opened : circuit.state = .opened
  time : entry.time = some T
  timed : Timed (calls ++ [entry])

/-- The circuit, opened by the calls `past` at time `T`, admits no request before its recovery
timeout has passed, whatever calls come first that do not reset it. -/
def Waits (u : String) (T : ℕ) (past : List BreakerCall) (mgr : CircuitBreakerManager)
    (circuit : UpstreamCircuit) : Prop :=
  ∀ mid now mgr₁ answers mgr₂ answer, Timed (past ++ mid ++ [.checkRequest now u]) →
    now < T + circuit.config.recoveryTimeout →
    (∀ call ∈ mid, call.upstream = u → call.isReset = false) →
    breakerMachine.run mgr mid = .ok (mgr₁, answers) →
    breakerMachine.step mgr₁ (.checkRequest now u) = .ok (mgr₂, answer) → answer.admits = false

/-- Open, with no failure before `T` to recover from. -/
structure Barred (T timeout : ℕ) (circuit : UpstreamCircuit) : Prop where
  opened : circuit.state = .opened
  late : ∀ lastFail, circuit.lastFailureTime = some lastFail → T ≤ lastFail
  timeout : circuit.config.recoveryTimeout = timeout

section

variable {T timeout : ℕ} {call : BreakerCall} {answer : BreakerAnswer}
  {circuit circuit' : UpstreamCircuit}

/-- Before its time no call ends the wait, except one that resets the circuit. -/
theorem Barred.not_endsWait (h : Barred T timeout circuit)
    (htime : ∀ t, call.time = some t → T ≤ t ∧ t < T + timeout) (hreset : call.isReset = false) :
    call.isSuccess = false ∧ ¬ call.EndsWait circuit := by
  cases call with
  | checkRequest now upstream =>
    refine ⟨rfl, ?_⟩
    rintro ⟨lastFail, hlast, hrecovered⟩
    have hlate := h.late lastFail hlast
    have hnow := htime now rfl
    rw [h.timeout] at hrecovered
    omega
  | updateHealth now upstream healthy =>
    obtain rfl : healthy = false := hreset
    exact ⟨rfl, Bool.false_ne_true⟩
  | recordSuccess now upstream => cases hreset
  | registerUpstream upstream config => exact ⟨rfl, not_false⟩
  | recordFailure now upstream => exact ⟨rfl, not_false⟩

/-- **A barred circuit stays barred**, and admits nothing. -/
theorem Barred.moved (h : Barred T timeout circuit) (hmoved : Moved call answer circuit circuit')
    (htime : ∀ t, call.time = some t → T ≤ t ∧ t < T + timeout) (hreset : call.isReset = false) :
    Barred T timeout circuit' ∧ answer.admits = false := by
  obtain ⟨hsuccess, hwait⟩ := h.not_endsWait htime hreset
  have hstate : circuit'.state = .opened := by
    rw [hmoved.state, BreakerCall.nextState_of_opened h.opened, hsuccess,
      if_neg Bool.false_ne_true, if_neg hwait]
  refine ⟨⟨hstate, fun lastFail hlast => ?_, hmoved.config.symm ▸ h.timeout⟩, ?_⟩
  · rw [hmoved.lastFailureTime] at hlast
    cases hfailure : call.failureTime with
    | none =>
      rw [hfailure, Option.none_or] at hlast
      exact h.late lastFail hlast
    | some t =>
      rw [hfailure, Option.some_or] at hlast
      obtain rfl := Option.some.inj hlast
      exact (htime t (time_of_failureTime hfailure)).1
  · rw [hmoved.admits, hstate]
    simp

end

section

variable {calls l l' : List BreakerCall} {call call' : BreakerCall} {u : String} {now s t : ℕ}

theorem Timed.le (h : Timed (l ++ l')) (hcall : call ∈ l) (hs : call.time = some s)
    (hcall' : call' ∈ l') (ht : call'.time = some t) : s ≤ t := by
  rw [Timed, List.filterMap_append, List.pairwise_append] at h
  exact h.2.2 s (List.mem_filterMap.mpr ⟨call, hcall, hs⟩) t
    (List.mem_filterMap.mpr ⟨call', hcall', ht⟩)

/-- A request may come at any time no call was made after. -/
theorem Timed.concat_check (h : Timed l) (hle : ∀ call ∈ l, ∀ t, call.time = some t → t ≤ now) :
    Timed (l ++ [.checkRequest now u]) := by
  rw [Timed, List.filterMap_append, List.pairwise_append]
  refine ⟨h, List.pairwise_singleton _ _, fun s hs t ht => ?_⟩
  obtain ⟨call, hcall, htime⟩ := List.mem_filterMap.mp hs
  obtain rfl := List.mem_singleton.mp ht
  exact hle call hcall s htime

theorem lastFailure_concat (hu : call.upstream = u) :
    lastFailure u (calls ++ [call]) = call.failureTime.or (lastFailure u calls) := by
  rw [lastFailure, List.filter_append, List.filter_cons_of_pos (by simpa using hu),
    List.filter_nil, List.filterMap_append, List.getLast?_append]
  cases hfailure : call.failureTime with
  | none => rw [List.filterMap_cons_none hfailure]; rfl
  | some now => rw [List.filterMap_cons_some hfailure]; rfl

theorem requests_append (u : String) (l l' : List BreakerCall) :
    requests u (l ++ l') = requests u l + requests u l' := by
  rw [requests, List.filter_append, List.countP_append]
  rfl

end

/-- Only a failure event opens a circuit. -/
theorem Moved.isFailure_of_opened {call : BreakerCall} {answer : BreakerAnswer}
    {circuit circuit' : UpstreamCircuit} (h : Moved call answer circuit circuit')
    (hbefore : circuit.state ≠ .opened) (hafter : circuit'.state = .opened) :
    call.isFailure = true := by
  rw [h.state] at hafter
  cases hstate : circuit.state with
  | opened => exact absurd hstate hbefore
  | closed =>
    rw [BreakerCall.nextState_of_closed hstate] at hafter
    split_ifs at hafter with hfailure
    exact hfailure.1
  | halfOpen =>
    rw [BreakerCall.nextState_of_halfOpen hstate] at hafter
    split_ifs at hafter with hsuccess hfailure
    cases call with
    | recordFailure now upstream => rfl
    | _ => cases hfailure

namespace Opens

variable {defaultConfig : CircuitBreakerConfig} {u : String} {T : ℕ} {calls : List BreakerCall}
  {entry : BreakerCall} {mgr : CircuitBreakerManager} {circuit : UpstreamCircuit}

/-- A circuit is opened by a failure event of its upstream. -/
theorem entry_cases (h : Opens defaultConfig u T calls entry mgr circuit) :
    entry = .recordFailure T u ∨ entry = .updateHealth T u false := by
  obtain ⟨before, answers, answer, -, hbefore, hstep⟩ := h.run
  rw [CircuitBreakerManager.getUpstreamState] at hbefore
  obtain ⟨hsame, -⟩ | ⟨circuit₀, circuit', hu, hfound, hafter, hmoved⟩ :=
    breaker_step_circuit hstep u
  · rw [← hsame, h.get, Option.map_some, h.opened] at hbefore
    exact absurd rfl hbefore
  · obtain rfl := Option.some.inj (h.get.symm.trans hafter)
    have hstate : circuit₀.state ≠ .opened := by
      obtain hsome | ⟨-, -, config, rfl⟩ := hfound
      · rintro hopened
        rw [hsome, Option.map_some, hopened] at hbefore
        exact hbefore rfl
      · intro hopened
        cases hopened
    have hfailure := hmoved.isFailure_of_opened hstate h.opened
    have htime := h.time
    cases entry with
    | recordFailure now upstream =>
      obtain rfl := Option.some.inj htime
      obtain rfl : upstream = u := hu
      exact .inl rfl
    | updateHealth now upstream healthy =>
      obtain rfl := Option.some.inj htime
      obtain rfl : upstream = u := hu
      obtain rfl : healthy = false := by simpa [BreakerCall.isFailure] using hfailure
      exact .inr rfl
    | registerUpstream upstream config => cases hfailure
    | checkRequest now upstream => cases hfailure
    | recordSuccess now upstream => cases hfailure

theorem upstream_entry (h : Opens defaultConfig u T calls entry mgr circuit) :
    entry.upstream = u := by
  obtain rfl | rfl := h.entry_cases <;> rfl

/-- The run up to the opening, and on from it. -/
theorem run_append (h : Opens defaultConfig u T calls entry mgr circuit) {mid : List BreakerCall}
    {mgr' : CircuitBreakerManager} {answers : List BreakerAnswer}
    (hmid : breakerMachine.run mgr mid = .ok (mgr', answers)) :
    ∃ answers', breakerMachine.run (.new defaultConfig) (calls ++ [entry] ++ mid)
      = .ok (mgr', answers') := by
  obtain ⟨before, answers₀, answer, hrun, -, hstep⟩ := h.run
  exact ⟨_, breakerMachine.run_append_eq_ok.mpr
    ⟨mgr, _, answers, breakerMachine.run_concat hrun hstep, hmid, rfl⟩⟩

/-- The failure the circuit recovers from: the one that opened it, or the last before. -/
theorem lastFailureTime (h : Opens defaultConfig u T calls entry mgr circuit) :
    circuit.lastFailureTime = entry.failureTime.or (lastFailure u calls) := by
  obtain ⟨before, answers, answer, hrun, -, hstep⟩ := h.run
  rw [run_lastFailureTime (breakerMachine.run_concat hrun hstep) h.get,
    lastFailure_concat h.upstream_entry]

/-- What opens a circuit is no request. -/
theorem requests_eq (h : Opens defaultConfig u T calls entry mgr circuit) :
    requests u (calls ++ [entry]) = requests u calls := by
  rw [requests_append, requests_cons, if_neg]
  · rfl
  · obtain rfl | rfl := h.entry_cases <;> simp [BreakerCall.isCheck]

/-- **A circuit with no older failure waits.** -/
theorem waits_of_barred (h : Opens defaultConfig u T calls entry mgr circuit)
    (hbarred : Barred T circuit.config.recoveryTimeout circuit) :
    Waits u T (calls ++ [entry]) mgr circuit := by
  intro mid now mgr₁ answers mgr₂ answer htimed hnow hreset hmid hcheck
  have htime : ∀ call ∈ mid, ∀ t, call.time = some t →
      T ≤ t ∧ t < T + circuit.config.recoveryTimeout := by
    intro call hcall t ht
    have hle : t ≤ now := htimed.le (List.mem_append_right _ hcall) ht List.mem_cons_self rfl
    rw [List.append_assoc] at htimed
    exact ⟨htimed.le (List.mem_append_right _ List.mem_cons_self) h.time
      (List.mem_append_left _ hcall) ht, hle.trans_lt hnow⟩
  have hT : T ≤ now := htimed.le
    (List.mem_append_left _ (List.mem_append_right _ List.mem_cons_self)) h.time
    List.mem_cons_self rfl
  -- the circuit stays barred through `mid`
  have hkeep : ∃ circuit₁, mgr₁.circuits.get u = some circuit₁ ∧
      Barred T circuit.config.recoveryTimeout circuit₁ := by
    refine breakerMachine.run_along (P := fun _ call => call ∈ mid)
      (I := fun _ mgr => ∃ circuit₁, mgr.circuits.get u = some circuit₁ ∧
        Barred T circuit.config.recoveryTimeout circuit₁) (h := [])
      ?_ ⟨circuit, h.get, hbarred⟩ (breakerMachine.along_of_forall_mem (fun _ h _ => h) mgr) hmid
    rintro _ mgr call mgr' answer ⟨circuit₁, hget, hbarred₁⟩ hcall hstep
    obtain ⟨-, hafter⟩ | ⟨circuit', hu, hafter, hmoved⟩ := breaker_step_some hstep hget
    · exact ⟨circuit₁, hafter, hbarred₁⟩
    · exact ⟨circuit', hafter,
        (hbarred₁.moved hmoved (htime call hcall) (hreset call hcall hu)).1⟩
  obtain ⟨circuit₁, hget, hbarred₁⟩ := hkeep
  obtain ⟨hu, -⟩ | ⟨circuit', -, -, hmoved⟩ := breaker_step_some hcheck hget
  · exact absurd rfl hu
  · refine (hbarred₁.moved hmoved (fun t ht => ?_) rfl).2
    obtain rfl := Option.some.inj ht
    exact ⟨hT, hnow⟩

/-- A request of the upstream that is answered is counted, so there were not too many before. -/
theorem requests_lt (h : Opens defaultConfig u T calls entry mgr circuit)
    {mid : List BreakerCall} {now : ℕ} {mgr₁ mgr₂ : CircuitBreakerManager}
    {answers : List BreakerAnswer} {answer : BreakerAnswer}
    (hmid : breakerMachine.run mgr mid = .ok (mgr₁, answers))
    (hcheck : breakerMachine.step mgr₁ (.checkRequest now u) = .ok (mgr₂, answer)) :
    requests u calls + 1 < 2 ^ 64 := by
  obtain ⟨answers', hrun⟩ := h.run_append hmid
  have hall := breakerMachine.run_concat hrun hcheck
  obtain ⟨-, hcreates⟩ | ⟨_, circuit', -, -, hafter, hmoved⟩ := breaker_step_circuit hcheck u
  · cases (hcreates rfl).2
  · have hlt := hmoved.counted rfl
    rw [run_totalRequests hall hafter, requests_append, requests_append, h.requests_eq,
      requests_cons, if_pos ⟨rfl, rfl⟩] at hlt
    omega

/-- **A stale failure lets a request in early.** -/
theorem not_waits_of_stale (h : Opens defaultConfig u T calls entry mgr circuit) {lastFail : ℕ}
    (hlast : circuit.lastFailureTime = some lastFail) (hstale : lastFail < T)
    (htimeout : 0 < circuit.config.recoveryTimeout) (hlt : requests u calls + 1 < 2 ^ 64) :
    ¬ Waits u T (calls ++ [entry]) mgr circuit := by
  intro hwaits
  obtain ⟨before, answers, answer, hrun, -, hstep⟩ := h.run
  -- the first moment at which both the time has come and the old timeout has passed
  set now := max T (lastFail + circuit.config.recoveryTimeout) with hnow
  have hrecovered : circuit.Recovered now := ⟨lastFail, hlast, by omega⟩
  have htotal : circuit.totalRequests + 1 < 2 ^ 64 := by
    rw [run_totalRequests (breakerMachine.run_concat hrun hstep) h.get, h.requests_eq]
    exact hlt
  obtain ⟨mgr', hcheck, -⟩ := (probed_iff_recovered h.get h.opened).mpr ⟨hrecovered, htotal⟩
  have htimed : Timed (calls ++ [entry] ++ [] ++ [.checkRequest now u]) := by
    rw [List.append_nil]
    refine h.timed.concat_check fun call hcall t ht => ?_
    obtain hcall | hcall := List.mem_append.mp hcall
    · exact (h.timed.le hcall ht List.mem_cons_self h.time).trans (le_max_left _ _)
    · obtain rfl := List.mem_singleton.mp hcall
      obtain rfl := Option.some.inj (h.time.symm.trans ht)
      exact le_max_left _ _
  exact Bool.noConfusion (hwaits [] now mgr [] mgr' _ htimed (by omega)
    (fun _ hcall => absurd hcall List.not_mem_nil) rfl hcheck)

end Opens

/-- **An opened circuit waits, unless a health check opened it on an old failure.**  No request is
admitted before the recovery timeout has passed since the opening if and only if the opening was not
a failing health check that found an older failure recorded (for a timeout that is not zero, and
requests that can be counted). -/
theorem waits_iff {defaultConfig : CircuitBreakerConfig} {u : String} {T : ℕ}
    {calls : List BreakerCall} {entry : BreakerCall} {mgr : CircuitBreakerManager}
    {circuit : UpstreamCircuit} (h : Opens defaultConfig u T calls entry mgr circuit) :
    Waits u T (calls ++ [entry]) mgr circuit ↔
      ¬ (entry = .updateHealth T u false ∧
        (∃ lastFail < T, lastFailure u calls = some lastFail) ∧
        0 < circuit.config.recoveryTimeout ∧ requests u calls + 1 < 2 ^ 64) := by
  constructor
  · rintro hwaits ⟨rfl, ⟨lastFail, hstale, hlast⟩, htimeout, hlt⟩
    exact h.not_waits_of_stale (h.lastFailureTime.trans hlast) hstale htimeout hlt hwaits
  · intro hfresh
    by_cases hbarred : Barred T circuit.config.recoveryTimeout circuit
    · exact h.waits_of_barred hbarred
    · intro mid now mgr₁ answers mgr₂ answer htimed hnow _ hmid hcheck
      have hT : T ≤ now := htimed.le
        (List.mem_append_left _ (List.mem_append_right _ List.mem_cons_self)) h.time
        List.mem_cons_self rfl
      refine absurd ⟨h.opened, fun lastFail hlast => ?_, rfl⟩ hbarred
      rw [h.lastFailureTime] at hlast
      obtain rfl | rfl := h.entry_cases
      · exact (Option.some.inj hlast).le
      · by_contra hlate
        exact hfresh ⟨rfl, ⟨lastFail, by omega, hlast⟩, by omega, h.requests_lt hmid hcheck⟩

/-- A request fails, and its circuit opens and waits. -/
theorem waits_after_failure : ∃ mgr circuit,
    Opens quickBreakers.defaultConfig "a" 0 [] (.recordFailure 0 "a") mgr circuit ∧
      Waits "a" 0 [.recordFailure 0 "a"] mgr circuit := by
  have hopens : ∃ mgr circuit,
      Opens quickBreakers.defaultConfig "a" 0 [] (.recordFailure 0 "a") mgr circuit :=
    ⟨_, _, ⟨⟨_, _, _, rfl, by decide, rfl⟩, rfl, rfl, rfl, by decide⟩⟩
  obtain ⟨mgr, circuit, h⟩ := hopens
  exact ⟨mgr, circuit, h, (waits_iff h).mpr fun hstale => nomatch hstale.1⟩

/-- **Admitted at once.**  A request failed a second ago; a health check now fails, opens the
circuit, and the next request is admitted. -/
theorem admitted_at_once : ∃ mgr circuit,
    Opens { CircuitBreakerConfig.default with failureThreshold := 2, recoveryTimeout := 10 ^ 9 }
        "a" (10 ^ 9) [.recordFailure 0 "a"] (.updateHealth (10 ^ 9) "a" false) mgr circuit ∧
      ¬ Waits "a" (10 ^ 9) [.recordFailure 0 "a", .updateHealth (10 ^ 9) "a" false] mgr
        circuit := by
  refine ⟨_, _, ⟨⟨_, _, _, rfl, by decide, rfl⟩, rfl, rfl, rfl, by decide⟩, fun hwaits => ?_⟩
  exact Bool.noConfusion (hwaits [] (10 ^ 9) _ _ _ _ (by decide) (by decide) (by simp) rfl rfl)

end PqcGateway
