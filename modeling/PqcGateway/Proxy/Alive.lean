import PqcGateway.Proxy.Destination
import PqcGateway.Proxy.Quota

/-!
# Proxy/Alive — the gateway answers

A panic in a handler would poison the locks that all requests share.  What can panic is the sum of
a counter, an index into the upstreams of a route, the slice of a kid and a signer without its seed;
none does in a run of less than 2³² events (`gateway_answers`).  And a handler makes at most
thirteen calls, so a request whose client stays is answered at its thirteenth turn.

* `exists_serve`, `exists_move` — every call of a request is answered, and every move made.
* `InPhase.answered_of_length` — a request that has made thirteen calls has returned.
-/

namespace PqcGateway

/-! ## Counters

Each call counts up a counter by one at most, so a counter is no further than the run is long. -/

/-- The call registers an upstream. -/
def BreakerCall.isRegister : BreakerCall → Bool
  | .registerUpstream _ _ => true
  | _ => false

/-- No counter of the circuit has passed `n`. -/
structure UpstreamCircuit.CountedTo (n : ℕ) (circuit : UpstreamCircuit) : Prop where
  totalRequests : circuit.totalRequests ≤ n
  consecutiveFailures : circuit.consecutiveFailures ≤ n
  totalFailures : circuit.totalFailures ≤ n
  totalCircuitOpens : circuit.totalCircuitOpens ≤ n

namespace UpstreamCircuit

variable {n : ℕ} {circuit circuit' : UpstreamCircuit} {now : ℕ}

theorem countedTo_new (config : CircuitBreakerConfig) : (new config).CountedTo n := by
  constructor <;> exact Nat.zero_le _

theorem CountedTo.succ (h : circuit.CountedTo n) : circuit.CountedTo (n + 1) where
  totalRequests := Nat.le_succ_of_le h.totalRequests
  consecutiveFailures := Nat.le_succ_of_le h.consecutiveFailures
  totalFailures := Nat.le_succ_of_le h.totalFailures
  totalCircuitOpens := Nat.le_succ_of_le h.totalCircuitOpens

theorem CountedTo.checkRequest {result : Except CircuitState Unit} (h : circuit.CountedTo n)
    (hcheck : circuit.checkRequest now = .ok (circuit', result)) : circuit'.CountedTo (n + 1) := by
  obtain ⟨hrequests, hconsecutive, hfailures, hopens⟩ := h.succ
  have hone := Nat.succ_le_succ h.totalRequests
  obtain ⟨-, ⟨-, -, rfl⟩ | ⟨-, -, -, rfl⟩ | ⟨-, -, -, rfl⟩⟩ := checkRequest_cases hcheck <;>
    exact ⟨hone, hconsecutive, hfailures, hopens⟩

theorem CountedTo.recordSuccess (h : circuit.CountedTo n) :
    (circuit.recordSuccess now).CountedTo n :=
  ⟨h.totalRequests, Nat.zero_le _, h.totalFailures, h.totalCircuitOpens⟩

theorem CountedTo.recordFailure (h : circuit.CountedTo n)
    (hfailure : circuit.recordFailure now = .ok circuit') : circuit'.CountedTo (n + 1) := by
  obtain ⟨hrequests, -, -, hopens⟩ := h.succ
  have hconsecutive := Nat.succ_le_succ h.consecutiveFailures
  have hfailures := Nat.succ_le_succ h.totalFailures
  have hopened := Nat.succ_le_succ h.totalCircuitOpens
  obtain ⟨-, -, ⟨-, -, rfl⟩ | ⟨-, -, rfl⟩ | ⟨-, rfl⟩ | ⟨-, rfl⟩⟩ := recordFailure_cases hfailure
  · exact ⟨hrequests, hconsecutive, hfailures, hopens⟩
  · exact ⟨hrequests, hconsecutive, hfailures, hopened⟩
  · exact ⟨hrequests, hconsecutive, hfailures, hopened⟩
  · exact ⟨hrequests, hconsecutive, hfailures, hopens⟩

theorem CountedTo.updateHealth {healthy : Bool} (h : circuit.CountedTo n)
    (hhealth : circuit.updateHealth now healthy = .ok circuit') : circuit'.CountedTo (n + 1) := by
  obtain ⟨hrequests, hsame, hfailures, hopens⟩ := h.succ
  have hconsecutive := Nat.succ_le_succ h.consecutiveFailures
  have hopened := Nat.succ_le_succ h.totalCircuitOpens
  obtain ⟨-, -, rfl⟩ | ⟨-, -, -, rfl⟩ | ⟨-, -, -, rfl⟩ | ⟨-, -, rfl⟩ := updateHealth_cases hhealth
  · exact ⟨hrequests, hsame, hfailures, hopens⟩
  · exact ⟨hrequests, hconsecutive, hfailures, hopens⟩
  · exact ⟨hrequests, hconsecutive, hfailures, hopened⟩
  · exact ⟨hrequests, hsame, hfailures, hopens⟩

/-! ### Room for one more -/

theorem CountedTo.exists_checkRequest (h : circuit.CountedTo n) (hn : n + 1 < 2 ^ 32) (now : ℕ) :
    ∃ r, circuit.checkRequest now = .ok r := by
  have hlt : circuit.totalRequests + 1 < 2 ^ 64 := by
    have := h.totalRequests
    omega
  simp only [UpstreamCircuit.checkRequest, Checked.checkedAdd_of_lt hlt, Checked.ok_bind]
  split
  · exact ⟨_, rfl⟩
  · split
    · split <;> exact ⟨_, rfl⟩
    · exact ⟨_, rfl⟩
  · exact ⟨_, rfl⟩

theorem exists_trip (circuit : UpstreamCircuit) (h : circuit.totalCircuitOpens + 1 < 2 ^ 64) :
    ∃ r, circuit.trip = .ok r :=
  ⟨_, trip_eq_ok.mpr ⟨h, rfl⟩⟩

theorem CountedTo.exists_recordFailure (h : circuit.CountedTo n) (hn : n + 1 < 2 ^ 32) (now : ℕ) :
    ∃ r, circuit.recordFailure now = .ok r := by
  obtain ⟨-, hconsecutive, hfailures, hopens⟩ := h
  have hopened : circuit.totalCircuitOpens + 1 < 2 ^ 64 := by omega
  simp only [UpstreamCircuit.recordFailure,
    Checked.checkedAdd_of_lt (show circuit.consecutiveFailures + 1 < 2 ^ 32 by omega),
    Checked.checkedAdd_of_lt (show circuit.totalFailures + 1 < 2 ^ 64 by omega), Checked.ok_bind]
  split
  · exact exists_trip _ hopened
  · split
    · obtain ⟨opened, htrip⟩ := exists_trip { circuit with
        consecutiveFailures := circuit.consecutiveFailures + 1
        totalFailures := circuit.totalFailures + 1
        lastFailureTime := some now } hopened
      exact ⟨_, Checked.bind_eq_ok.mpr ⟨opened, htrip, rfl⟩⟩
    · exact ⟨_, rfl⟩
  · exact ⟨_, rfl⟩

theorem CountedTo.exists_updateHealth (h : circuit.CountedTo n) (hn : n + 1 < 2 ^ 32) (now : ℕ)
    (healthy : Bool) : ∃ r, circuit.updateHealth now healthy = .ok r := by
  obtain ⟨-, hconsecutive, -, hopens⟩ := h
  have hopened : circuit.totalCircuitOpens + 1 < 2 ^ 64 := by omega
  simp only [UpstreamCircuit.updateHealth,
    Checked.checkedAdd_of_lt (show circuit.consecutiveFailures + 1 < 2 ^ 32 by omega),
    Checked.ok_bind]
  split_ifs
  · exact ⟨_, rfl⟩
  · exact exists_trip _ hopened
  · exact ⟨_, rfl⟩
  · exact ⟨_, rfl⟩

end UpstreamCircuit

namespace CircuitBreakerManager

variable {n : ℕ} {mgr mgr' : CircuitBreakerManager}

/-- No counter of any circuit has passed `n`. -/
def CountedTo (n : ℕ) (mgr : CircuitBreakerManager) : Prop :=
  ∀ u circuit, mgr.circuits.get u = some circuit → circuit.CountedTo n

theorem CountedTo.entry (h : mgr.CountedTo n) (u : String) : (mgr.entry u).CountedTo n := by
  rw [CircuitBreakerManager.entry]
  cases hget : mgr.circuits.get u with
  | none => exact UpstreamCircuit.countedTo_new _
  | some circuit => exact h u circuit hget

theorem CountedTo.put (h : mgr.CountedTo n) (u : String) {circuit : UpstreamCircuit}
    (hcircuit : circuit.CountedTo n) : (mgr.put u circuit).CountedTo n := by
  intro v found hget
  by_cases hv : v = u
  · subst hv
    rw [CircuitBreakerManager.put, EntryMap.get_insert_self] at hget
    exact Option.some.inj hget ▸ hcircuit
  · rw [CircuitBreakerManager.put, EntryMap.get_insert_of_ne _ hv] at hget
    exact h v found hget

theorem CountedTo.mono {n' : ℕ} (h : mgr.CountedTo n) (hle : n ≤ n') : mgr.CountedTo n' := by
  intro u circuit hget
  obtain ⟨hrequests, hconsecutive, hfailures, hopens⟩ := h u circuit hget
  exact ⟨hrequests.trans hle, hconsecutive.trans hle, hfailures.trans hle, hopens.trans hle⟩

/-- A call counts at most once. -/
theorem CountedTo.step {call : BreakerCall} {answer : BreakerAnswer} (h : mgr.CountedTo n)
    (hstep : breakerMachine.step mgr call = .ok (mgr', answer)) :
    mgr'.CountedTo (n + if call.isRegister then 0 else 1) := by
  cases call with
  | registerUpstream u config =>
    obtain ⟨rfl, -⟩ := Prod.mk.inj (Except.ok.inj hstep)
    rw [CircuitBreakerManager.registerUpstream]
    cases mgr.circuits.get u with
    | some circuit => exact h
    | none => exact h.put u (UpstreamCircuit.countedTo_new _)
  | checkRequest now u =>
    obtain ⟨⟨mgr₁, result⟩, hcheck, hstep⟩ := Checked.bind_eq_ok.mp hstep
    obtain ⟨⟨circuit, result'⟩, hcircuit, hput⟩ := Checked.bind_eq_ok.mp hcheck
    obtain ⟨rfl, -⟩ := Prod.mk.inj (Except.ok.inj hput)
    obtain ⟨rfl, -⟩ := Prod.mk.inj (Except.ok.inj hstep)
    exact (h.mono n.le_succ).put u ((h.entry u).checkRequest hcircuit)
  | recordSuccess now u =>
    obtain ⟨rfl, -⟩ := Prod.mk.inj (Except.ok.inj hstep)
    refine CountedTo.mono ?_ n.le_succ
    unfold CircuitBreakerManager.recordSuccess
    split
    · rename_i circuit hget
      exact h.put u (h u circuit hget).recordSuccess
    · exact h
  | recordFailure now u =>
    obtain ⟨mgr₁, hfailure, hstep⟩ := Checked.bind_eq_ok.mp hstep
    obtain ⟨circuit, hcircuit, hput⟩ := Checked.bind_eq_ok.mp hfailure
    obtain rfl := Except.ok.inj hput
    obtain ⟨rfl, -⟩ := Prod.mk.inj (Except.ok.inj hstep)
    exact (h.mono n.le_succ).put u ((h.entry u).recordFailure hcircuit)
  | updateHealth now u healthy =>
    obtain ⟨mgr₁, hhealth, hstep⟩ := Checked.bind_eq_ok.mp hstep
    obtain ⟨rfl, -⟩ := Prod.mk.inj (Except.ok.inj hstep)
    unfold CircuitBreakerManager.updateHealth at hhealth
    split at hhealth
    · rename_i circuit hget
      obtain ⟨moved, hmoved, hput⟩ := Checked.bind_eq_ok.mp hhealth
      obtain rfl := Except.ok.inj hput
      exact (h.mono n.le_succ).put u ((h u circuit hget).updateHealth hmoved)
    · obtain rfl := Except.ok.inj hhealth
      exact h.mono n.le_succ

/-- **A counter counts calls**, from a start without circuits. -/
theorem run_countedTo {config : CircuitBreakerConfig} {calls : List BreakerCall}
    {answers : List BreakerAnswer}
    (hrun : breakerMachine.run (.new config) calls = .ok (mgr, answers)) :
    mgr.CountedTo (calls.countP fun call => !call.isRegister) := by
  refine breakerMachine.run_history (h := [])
    (I := fun calls mgr => mgr.CountedTo (calls.countP fun call => !call.isRegister)) ?_ ?_ hrun
  · intro calls mgr call mgr' answer h hstep
    rw [List.countP_append, List.countP_singleton]
    refine (h.step hstep).mono (Nat.add_le_add_left ?_ _)
    cases call.isRegister <;> simp
  · intro u circuit hget
    cases hget

end CircuitBreakerManager

/-! ## The signers -/

section

variable {X : HandlerCrates}

/-- Requests leave the signers as they are. -/
theorem signers_serve {d : Delivery} {call : HandlerCall X} {g g' : RunningGateway X}
    {answer : call.Answer} (h : RunningGateway.serve X d call g = .ok (g', answer)) :
    g'.versionedKeyManager = g.versionedKeyManager ∧
      g'.signatureKeyManager = g.signatureKeyManager := by
  cases call with
  | nextUpstream upstreams | checkRequest upstream | recordFailure upstream | sign mode body =>
    obtain ⟨_, -, h⟩ := Checked.bind_eq_ok.mp h
    obtain ⟨rfl, -⟩ := Prod.mk.inj (Except.ok.inj h)
    exact ⟨rfl, rfl⟩
  | _ =>
    obtain ⟨rfl, -⟩ := Prod.mk.inj (Except.ok.inj h)
    exact ⟨rfl, rfl⟩

/-- The key manager holds the window of some keys, the first and at most `n` others. -/
def KeysTo (n m : ℕ) (g : RunningGateway X) : Prop :=
  (∃ past cur, Tracks X.mlDsa past cur g.versionedKeyManager ∧ past.length ≤ n) ∧
    g.versionedKeyManager.maxRetainedKeys = m

/-- Rotating never panics while there are version numbers left. -/
theorem exists_rotate {n m : ℕ} {g : RunningGateway X} (h : KeysTo n m g)
    (hm : m ≤ 2 ^ 63 - 1) (hn : n + 1 < 2 ^ 32) (draw : RotateDraw X.mlDsa) :
    ∃ mgr kid, g.versionedKeyManager.rotate X.mlDsa X.sha256 draw = .ok (mgr, kid) ∧
      (∃ past cur, Tracks X.mlDsa past cur mgr ∧ past.length ≤ n + 1) ∧
      mgr.maxRetainedKeys = m := by
  obtain ⟨⟨past, cur, htracks, hlength⟩, hmax⟩ := h
  obtain ⟨mgr, new, hrotate, htracks', hmax', -⟩ := rotate_tracks (H := X.sha256) htracks
    (by rw [hmax]; omega) (by rw [htracks.next]; omega) draw
  refine ⟨mgr, new.kid, hrotate, ⟨past ++ [cur], new, htracks', ?_⟩, hmax'.trans hmax⟩
  rw [List.length_append, List.length_singleton]
  omega

variable {settings : SigningSettings} {t : Serving X} {events : List (RunEvent X)}
  {reports : List (RunReport X)} {env : Option String} {draw : StartDraw X.mlDsa}
  {config : GatewayConfig} {g : RunningGateway X}

theorem KeysTo.mono {n n' m : ℕ} (h : KeysTo n m g) (hle : n ≤ n') : KeysTo n' m g := by
  obtain ⟨⟨past, cur, htracks, hlength⟩, hmax⟩ := h
  exact ⟨⟨past, cur, htracks, hlength.trans hle⟩, hmax⟩

/-- The keys of the start. -/
theorem started_launched (hlaunch : Launched X env draw config g) :
    Started X.mlDsa X.sha256 config.threshold.maxRetainedKeys g.versionedKeyManager := by
  obtain ⟨keys, hkeys, hstate⟩ := ProxyState.new_eq_ok.mp hlaunch.state
  obtain rfl : g.versionedKeyManager = keys := congrArg ProxyState.versionedKeyManager hstate
  unfold ThresholdConfig.keyManager at hkeys
  split at hkeys
  · exact .inr ⟨_, _, _, _, hkeys⟩
  · exact .inl ⟨_, hkeys⟩

theorem keysTo_launched (hlaunch : Launched X env draw config g) :
    KeysTo 0 config.threshold.maxRetainedKeys g := by
  obtain ⟨cur, htracks, hmax⟩ := started_tracks (started_launched hlaunch)
  exact ⟨⟨[], cur, htracks, Nat.le_refl _⟩, hmax⟩

/-- **The signers of a run**: the first is the one of the start, the second holds a window. -/
theorem run_signers (hlaunch : Launched X env draw config g)
    (hm : config.threshold.maxRetainedKeys ≤ 2 ^ 63 - 1) (hfew : events.length < 2 ^ 32)
    (hrun : (gatewayServer X settings).machine.run (Server.start g) events = .ok (t, reports)) :
    KeysTo events.length config.threshold.maxRetainedKeys t.shared ∧
      t.shared.signatureKeyManager = g.signatureKeyManager := by
  refine (gatewayServer X settings).machine.run_history
    (I := fun events t => events.length < 2 ^ 32 →
      KeysTo events.length config.threshold.maxRetainedKeys t.shared ∧
        t.shared.signatureKeyManager = g.signatureKeyManager) (h := []) ?_
    (fun _ => ⟨keysTo_launched hlaunch, rfl⟩) hrun hfew
  intro events s event s' report hI hstep hfew
  rw [List.length_append, List.length_singleton] at hfew ⊢
  obtain ⟨hkeys, hsigner⟩ := hI (by omega)
  obtain ⟨request, -, -, rfl⟩ | ⟨id, d, job, call, next, answer, shared, -, -, -, -, hserve, -,
    rfl⟩ | ⟨id, job, -, -, -, rfl⟩ | ⟨moved, shared, -, hmove, -, rfl⟩ | ⟨-, rfl⟩ :=
    Server.step_cases hstep
  · exact ⟨hkeys.mono (Nat.le_succ _), hsigner⟩
  · obtain ⟨hsame, hsame'⟩ := signers_serve hserve
    have hkeys' := hkeys.mono (Nat.le_succ _)
    unfold KeysTo at hkeys' ⊢
    exact ⟨hsame ▸ hkeys', hsame'.trans hsigner⟩
  · exact ⟨hkeys.mono (Nat.le_succ _), hsigner⟩
  · cases moved with
    | rotate draw =>
      obtain ⟨⟨mgr, kid⟩, hrotate, hmove⟩ := Checked.bind_eq_ok.mp hmove
      obtain ⟨mgr', kid', hrotate', hkeys'⟩ := exists_rotate hkeys hm (by omega) draw
      obtain ⟨rfl, -⟩ := Prod.mk.inj (Except.ok.inj (hrotate.symm.trans hrotate'))
      obtain rfl := Except.ok.inj hmove
      exact ⟨hkeys', hsigner⟩
    | updateHealth now upstream healthy =>
      obtain ⟨_, -, hmove⟩ := Checked.bind_eq_ok.mp hmove
      obtain rfl := Except.ok.inj hmove
      exact ⟨hkeys.mono (Nat.le_succ _), hsigner⟩
    | _ =>
      obtain rfl := Except.ok.inj hmove
      exact ⟨hkeys.mono (Nat.le_succ _), hsigner⟩
  · exact ⟨hkeys.mono (Nat.le_succ _), hsigner⟩

theorem length_breakerCalls (reports : List (RunReport X)) :
    (reports.flatMap breakerCalls).length ≤ reports.length := by
  induction reports with
  | nil => exact Nat.le_refl _
  | cons report reports ih =>
    have hone : (breakerCalls report).length ≤ 1 := by
      cases report with
      | idle => exact Nat.zero_le _
      | served id d e =>
        obtain ⟨call, answer⟩ := e
        cases call <;> simp [breakerCalls]
      | moved moved => cases moved <;> simp [breakerCalls]
    rw [List.flatMap_cons, List.length_append, List.length_cons]
    omega

theorem run_countedTo (hlaunch : Launched X env draw config g)
    (hrun : (gatewayServer X settings).machine.run (Server.start g) events = .ok (t, reports)) :
    t.shared.circuitBreaker.CountedTo events.length := by
  obtain ⟨answers, hbreaker⟩ := launched_breaker hlaunch hrun
  refine (CircuitBreakerManager.run_countedTo hbreaker).mono ?_
  rw [List.countP_append, countP_registrations (fun _ => rfl), Nat.zero_add]
  refine List.countP_le_length.trans ?_
  rw [List.length_map, ← (gatewayServer X settings).machine.length_answers hrun]
  exact length_breakerCalls reports

/-! ## Calls -/

theorem exists_nextUpstream {upstreams : List String} (h : upstreams ≠ []) (lb : LoadBalancer) :
    ∃ r, lb.nextUpstream upstreams = .ok r := by
  have hpos := List.length_pos_iff.mpr h
  unfold LoadBalancer.nextUpstream
  split
  · exact ⟨_, Checked.bind_eq_ok.mpr
      ⟨_, index_eq_ok.mpr (List.getElem?_eq_getElem hpos), rfl⟩⟩
  · exact ⟨_, Checked.bind_eq_ok.mpr
      ⟨_, index_eq_ok.mpr (List.getElem?_eq_getElem (Nat.mod_lt lb.counter hpos)), rfl⟩⟩

/-- **Every call of a request is answered**, if there is an upstream to choose. -/
theorem exists_serve {n : ℕ} {g : RunningGateway X} (hX : X.signatures.Lawful)
    (hcounted : g.circuitBreaker.CountedTo n) (hn : n + 1 < 2 ^ 32)
    (hmade : g.signatureKeyManager.Made) (d : Delivery) {call : HandlerCall X}
    (hpick : ∀ upstreams, call = .nextUpstream upstreams → upstreams ≠ []) :
    ∃ r, RunningGateway.serve X d call g = .ok r := by
  cases call with
  | nextUpstream upstreams =>
    obtain ⟨r, hr⟩ := exists_nextUpstream (hpick upstreams rfl) g.loadBalancer
    exact ⟨_, Checked.bind_eq_ok.mpr ⟨r, hr, rfl⟩⟩
  | checkRequest upstream =>
    obtain ⟨r, hr⟩ := (hcounted.entry upstream).exists_checkRequest hn d.now
    exact ⟨_, Checked.bind_eq_ok.mpr ⟨_, Checked.bind_eq_ok.mpr ⟨r, hr, rfl⟩, rfl⟩⟩
  | recordFailure upstream =>
    obtain ⟨r, hr⟩ := (hcounted.entry upstream).exists_recordFailure hn d.now
    exact ⟨_, Checked.bind_eq_ok.mpr ⟨_, Checked.bind_eq_ok.mpr ⟨r, hr, rfl⟩, rfl⟩⟩
  | sign mode body =>
    by_cases hmode : mode = .classical
    · subst hmode
      exact ⟨_, rfl⟩
    · obtain ⟨output, hsign, -⟩ := SignatureKeyManager.verify_of_sign hX hmade hmode body
      exact ⟨_, Checked.bind_eq_ok.mpr ⟨_, hsign, rfl⟩⟩
  | _ => exact ⟨_, rfl⟩

/-- **Every move is answered.** -/
theorem exists_move {n m : ℕ} {g : RunningGateway X} (hcounted : g.circuitBreaker.CountedTo n)
    (hkeys : KeysTo n m g) (hm : m ≤ 2 ^ 63 - 1) (hn : n + 1 < 2 ^ 32) (moved : GatewayMove X) :
    ∃ r, RunningGateway.move X moved g = .ok r := by
  cases moved with
  | updateHealth now upstream healthy =>
    suffices hhealth : ∃ r, g.circuitBreaker.updateHealth now upstream healthy = .ok r by
      obtain ⟨r, hr⟩ := hhealth
      exact ⟨_, Checked.bind_eq_ok.mpr ⟨r, hr, rfl⟩⟩
    unfold CircuitBreakerManager.updateHealth
    split
    · rename_i circuit hget
      obtain ⟨r, hr⟩ := (hcounted upstream circuit hget).exists_updateHealth hn now healthy
      exact ⟨_, Checked.bind_eq_ok.mpr ⟨r, hr, rfl⟩⟩
    · exact ⟨_, rfl⟩
  | rotate draw =>
    obtain ⟨mgr, kid, hrotate, -⟩ := exists_rotate hkeys hm hn draw
    exact ⟨_, Checked.bind_eq_ok.mpr ⟨_, hrotate, rfl⟩⟩
  | _ => exact ⟨_, rfl⟩

theorem nonempty_answer (call : HandlerCall X) : Nonempty call.Answer := by
  cases call with
  | loadConfig => exact ⟨servingConfig⟩
  | loadMatcher => exact ⟨servingMatcher⟩
  | checkLimit key routeLimit => exact ⟨RateLimitResult.allowed⟩
  | nextUpstream upstreams => exact ⟨""⟩
  | checkRequest upstream => exact ⟨Except.ok ()⟩
  | mtlsClient routeId => exact ⟨none⟩
  | send client timeoutMs req => exact ⟨SendOutcome.timedOut⟩
  | elapsedMs => exact ⟨0⟩
  | readBody => exact ⟨Except.ok []⟩
  | sign mode body => exact ⟨none⟩
  | signBody body headers => exact ⟨headers⟩
  | _ => exact ⟨()⟩

/-! ## The way to an answer

`rank` bounds the calls that are still to come, and each call that is answered lowers it. -/

/-- The calls that follow on an outcome that was counted, at most. -/
def SendOutcome.rank (outcome : SendOutcome) : ℕ := if outcome.isResponse then 3 else 0

/-- How many calls a request has before it, at most. -/
def HandlerPhase.rank : HandlerPhase → ℕ
  | .fresh => 13
  | .configured _ => 12
  | .routed _ _ _ => 11
  | .passed _ _ _ => 10
  | .picked _ => 9
  | .admitted _ => 8
  | .ready _ => 7
  | .sent _ _ => 6
  | .told _ outcome => if outcome.isResponse then 5 else 3
  | .failed _ outcome => outcome.rank + 2
  | .timed _ outcome _ => outcome.rank + 1
  | .counted _ outcome => outcome.rank
  | .read _ _ _ => 2
  | .throttled | .refused _ | .unread _ _ _ | .signed _ _ _ => 1
  | .unrouted | .throttledCounted | .refusedCounted _ | .unreadCounted _ _ _ | .answered _ _ _ => 0

/-- **Each call brings the request closer to its answer.** -/
theorem rank_next {req : ProxyRequest} (phase : HandlerPhase)
    (e : Exchange (@HandlerCall.Answer X)) (phase' : HandlerPhase)
    (h : Pipeline X settings req phase e phase') : phase'.rank < phase.rank := by
  cases h with
  | route matcher hmatch => split <;> simp [HandlerPhase.rank]
  | pick upstream => split <;> simp [HandlerPhase.rank]
  | send client huri outcome =>
    split
    · simp [HandlerPhase.rank]
    · simp only [HandlerPhase.rank]
      split <;> decide
  | tellSuccess | tellFailure =>
    simp only [HandlerPhase.rank]
    split <;> decide
  | countFailure hfailed => simp [HandlerPhase.rank, SendOutcome.rank, hfailed]
  | timeResponse durationMs hresponse => simp [HandlerPhase.rank, SendOutcome.rank, hresponse]
  | readError error hresponse => simp [HandlerPhase.rank, SendOutcome.rank, hresponse]
  | read body hresponse => simp [HandlerPhase.rank, SendOutcome.rank, hresponse]
  | _ => simp [HandlerPhase.rank]

/-- A handler makes thirteen calls, and is done by then. -/
theorem InPhase.answered_of_length {request : Request X} {phase : HandlerPhase}
    (h : InPhase X settings request phase) (hlength : 13 ≤ request.trace.length) :
    ∃ answer, Job.answer? request = some answer := by
  have hrank := h.leads.length_add_le (f := HandlerPhase.rank) rank_next
  have hzero : phase.rank = 0 := by
    rw [HandlerPhase.rank] at hrank
    omega
  cases hrest : request.rest with
  | done answer => exact ⟨answer, by rw [Job.answer?, hrest]⟩
  | ask call next =>
    have hfollows := h.follows
    rw [hrest] at hfollows
    obtain ⟨answer⟩ := nonempty_answer call
    obtain ⟨phase', hnext, -⟩ := hfollows answer
    have hlower := rank_next _ _ _ hnext
    omega

/-- A request that is to be given an upstream has some to choose from. -/
theorem upstreams_ne_nil (hlaunch : Launched X env draw config g)
    (hrun : (gatewayServer X settings).machine.run (Server.start g) events = .ok (t, reports))
    {request : Request X} (hrequest : request ∈ t.jobs) {upstreams : List String}
    {next : String → Program (@HandlerCall.Answer X) HandlerAnswer}
    (hrest : request.rest = .ask (HandlerCall.nextUpstream upstreams) next) : upstreams ≠ [] := by
  obtain ⟨phase, hphase⟩ := requests_stand hrun request hrequest
  have hloaded := run_loaded hlaunch hrun request hrequest
  have hpicked := run_picked hrun request hrequest
  have hdestined : Destined config events request.request phase :=
    (hphase.leads.restrict fun e he => ⟨hloaded e he, hpicked e he⟩).invariant
      (fun _ _ _ => destined_next) destined_fresh
  have hfollows := hphase.follows
  rw [hrest] at hfollows
  obtain ⟨phase', hstep, -⟩ := hfollows ""
  cases hstep with
  | pick upstream =>
    obtain ⟨routes, -, hmatch⟩ := hdestined.route _ rfl
    obtain ⟨cfg, -, rfl⟩ := RouteMatcher.mem_of_matchRoute hmatch
    exact List.cons_ne_nil _ _

/-- **The gateway answers.**  A run of less than 2³² events never panics, however requests, reloads,
health checks and rotations interleave; and a request whose client stays has been answered when it
had its turn thirteen times. -/
theorem gateway_answers {before after : List (RunEvent X)} (hX : X.signatures.Lawful)
    (hlaunch : Launched X env draw config g) (hmade : g.signatureKeyManager.Made)
    (hm : config.threshold.maxRetainedKeys ≤ 2 ^ 63 - 1)
    (hfew : (before ++ after).length < 2 ^ 32) :
    ∃ t reports, (gatewayServer X settings).machine.run (Server.start g) (before ++ after)
        = .ok (t, reports) ∧
      ∀ id < before.countP JobEvent.starts, (∀ event ∈ before ++ after, event ≠ .drop id) →
        13 ≤ after.countP (JobEvent.advances id) →
        ∃ request answer, t.jobs[id]? = some request ∧ Job.answer? request = some answer := by
  have hreturns : ∃ t reports, (gatewayServer X settings).machine.run (Server.start g)
      (before ++ after) = .ok (t, reports) := by
    refine Server.exists_run ?_ ?_
    · intro done d rest s reports id request call next hall hrun hrequest hrest
      rw [← hall, List.length_append, List.length_cons] at hfew
      obtain ⟨-, hsigner⟩ := run_signers hlaunch hm (by omega) hrun
      refine exists_serve hX (run_countedTo hlaunch hrun) (by omega) (hsigner ▸ hmade) d ?_
      rintro upstreams rfl
      exact upstreams_ne_nil hlaunch hrun (List.mem_of_getElem? hrequest) hrest
    · intro done moved rest s reports hall hrun
      rw [← hall, List.length_append, List.length_cons] at hfew
      obtain ⟨hkeys, -⟩ := run_signers hlaunch hm (by omega) hrun
      exact exists_move (run_countedTo hlaunch hrun) hkeys hm (by omega) moved
  obtain ⟨t, reports, hrun⟩ := hreturns
  refine ⟨t, reports, hrun, fun id hid hdrop hturns => ?_⟩
  obtain ⟨s, reports₁, reports₂, hbefore, hafter, -⟩ :=
    (gatewayServer X settings).machine.run_append_eq_ok.mp hrun
  obtain ⟨hdrop₁, hdrop₂⟩ := List.forall_mem_append.mp hdrop
  have hlt : id < s.jobs.length := by
    rw [Server.run_length hbefore]
    exact Nat.lt_add_left _ hid
  have hrequest : s.jobs[id]? = some s.jobs[id] := List.getElem?_eq_getElem hlt
  obtain ⟨request, hrequest', -, hreturned | hlength⟩ :=
    Server.run_turns hafter hrequest (Server.run_up hbefore hdrop₁ hrequest) hdrop₂
  · obtain ⟨answer, hanswer⟩ := hreturned
    exact ⟨request, answer, hrequest', hanswer⟩
  · obtain ⟨phase, hphase⟩ := requests_stand hrun request (List.mem_of_getElem? hrequest')
    obtain ⟨answer, hanswer⟩ := hphase.answered_of_length (hturns.trans (by omega))
    exact ⟨request, answer, hrequest', hanswer⟩

end

/-- A request that is given thirteen turns, and needs ten. -/
theorem gateway_answers_timeout : ∃ g, ∃ t : Serving (plainHandler plainTls),
    ∃ reports request answer, Launched (plainHandler plainTls) none plainStart servingConfig g ∧
    (gatewayServer (plainHandler plainTls) ⟨none, .classical⟩).machine.run (Server.start g)
      ([.start rootRequest] ++ List.replicate 13 (.advance 0 timesOut)) = .ok (t, reports) ∧
    t.jobs[0]? = some request ∧ Job.answer? request = some answer := by
  obtain ⟨keys, hlaunch⟩ := exists_serving servingConfig rfl rfl
  obtain ⟨t, reports, hrun, hanswered⟩ := @gateway_answers _ ⟨none, .classical⟩ _ _ _ _
    [.start rootRequest] (List.replicate 13 (.advance 0 timesOut))
    lawful_plainResponse.signatures hlaunch (.inl ⟨_, _, rfl⟩) (by decide) (by decide)
  obtain ⟨request, answer, hrequest, hanswer⟩ := hanswered 0 (by decide) (by simp) (by decide)
  exact ⟨_, t, reports, request, answer, hlaunch, hrun, hrequest, hanswer⟩

end PqcGateway
