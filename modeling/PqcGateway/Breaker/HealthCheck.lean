import PqcGateway.Breaker.Transitions

/-!
# Breaker/HealthCheck — the task that asks upstreams for their health

    sleep ─▸ who is due ─▸ probe the first ─▸ report ─▸ probe the next ─▸ report ─▸ … ─▸ sleep

`run_health_checks` wakes up, reads which upstreams are due, and probes and reports them one after
the other; requests use the circuit breakers all the while.  Between two steps of the task stands
any number of their calls, so its run is a run of `healthMachine`.

* `round_exact` — a round asks each upstream that was due when it began, once, and no other.
* `checks_spaced` — two health checks of an upstream are its interval apart, at least.
-/

namespace PqcGateway

/-! ## Who is due -/

/-- The circuit was never checked, or not for its interval. -/
def UpstreamCircuit.isDue (now : ℕ) (circuit : UpstreamCircuit) : Bool :=
  match circuit.lastHealthCheck with
  | some last => circuit.config.healthCheckInterval ≤ now - last
  | none => true

namespace CircuitBreakerManager

/-- Check if an upstream needs a health check. -/
def needsHealthCheck (now : ℕ) (upstream : String) (mgr : CircuitBreakerManager) : Bool :=
  match mgr.circuits.get upstream with
  | some circuit => circuit.isDue now
  | none => false

/-- All upstreams needing health checks, with their health paths. -/
def upstreamsNeedingHealthCheck (order : WalkOrder String UpstreamCircuit) (now : ℕ)
    (mgr : CircuitBreakerManager) : List (String × String) :=
  ((mgr.circuits.iter order).filter fun (_, c) => c.isDue now).map fun (u, c) =>
    (u, c.config.healthCheckPath)

end CircuitBreakerManager

/-! ## The task -/

/-- The circuit breakers, and what is left of the round. -/
structure HealthLoop where
  breaker : CircuitBreakerManager
  targets : List (String × String)

/-- The call reports the health of an upstream. -/
def BreakerCall.isUpdate : BreakerCall → Bool
  | .updateHealth _ _ _ => true
  | _ => false

/-- A call of a request, which reports no health; the task wakes up, and sees the circuits in this
order; or the probe that is under way ends, with the status of the response if there is one. -/
inductive HealthEvent
  | call (call : BreakerCall) (hcall : call.isUpdate = false)
  | wake (now : ℕ) (order : WalkOrder String UpstreamCircuit)
  | probed (now : ℕ) (status? : Option ℕ)

/-- The response says that the upstream is healthy. -/
def isHealthy : Option ℕ → Bool
  | some status => 200 ≤ status && status < 300
  | none => false

/-- A probe that came back. -/
structure HealthProbe where
  now : ℕ
  upstream : String
  url : String
  healthy : Bool

/-- What has happened. -/
inductive HealthReport
  | idle
  | answered (answer : BreakerAnswer)
  | woke
  | probed (probe : HealthProbe)

/-- **The health checks**, with the calls of requests in between. -/
def healthMachine : Machine HealthLoop HealthEvent HealthReport where
  step s
    | .call call _ => do
      let (breaker, answer) ← breakerMachine.step s.breaker call
      pure ({ s with breaker }, .answered answer)
    | .wake now order =>
      match s.targets with
      | [] => pure ({ s with targets := s.breaker.upstreamsNeedingHealthCheck order now }, .woke)
      | _ => pure (s, .idle)
    | .probed now status? =>
      match s.targets with
      | [] => pure (s, .idle)
      | (upstream, healthPath) :: targets => do
        let healthy := isHealthy status?
        let breaker ← s.breaker.updateHealth now upstream healthy
        pure ({ breaker, targets }, .probed ⟨now, upstream, upstream ++ healthPath, healthy⟩)

/-- When it happens, if it reads the clock. -/
def HealthEvent.time? : HealthEvent → Option ℕ
  | .call c _ => c.time
  | .wake now _ => some now
  | .probed now _ => some now

/-- The probe, if one came back. -/
def HealthReport.probe? : HealthReport → Option HealthProbe
  | .probed probe => some probe
  | _ => none

theorem filterMap_probe_cons (report : HealthReport) (reports : List HealthReport) :
    (report :: reports).filterMap HealthReport.probe?
      = report.probe?.toList ++ reports.filterMap HealthReport.probe? := by
  cases hprobe : report.probe? <;> simp [hprobe]

/-- When the upstream was probed. -/
def timesOf (u : String) (probes : List HealthProbe) : List ℕ :=
  (probes.filter fun probe => probe.upstream = u).map HealthProbe.now

section

variable {u : String} {probe : HealthProbe} {probes : List HealthProbe}

theorem timesOf_concat_self (h : probe.upstream = u) :
    timesOf u (probes ++ [probe]) = timesOf u probes ++ [probe.now] := by
  rw [timesOf, List.filter_append, List.filter_cons_of_pos (by simpa using h), List.map_append]
  rfl

theorem timesOf_concat_of_ne (h : probe.upstream ≠ u) :
    timesOf u (probes ++ [probe]) = timesOf u probes := by
  rw [timesOf, List.filter_append, List.filter_cons_of_neg (by simpa using h), List.filter_nil,
    List.append_nil]
  rfl

end

/-! ## What the calls do to the time of the last check

Requests leave it alone: only a report sets it, to the time of the report. -/

section

variable {mgr mgr' : CircuitBreakerManager} {call : BreakerCall} {answer : BreakerAnswer}
  {u : String}

/-- The circuits agree on their configuration and on when they were last checked. -/
def SameChecks (circuit circuit' : UpstreamCircuit) : Prop :=
  circuit'.lastHealthCheck = circuit.lastHealthCheck ∧ circuit'.config = circuit.config

theorem SameChecks.checkRequest {circuit circuit' : UpstreamCircuit} {now : ℕ}
    {result : Except CircuitState Unit} (h : circuit.checkRequest now = .ok (circuit', result)) :
    SameChecks circuit circuit' := by
  obtain ⟨-, ⟨-, -, rfl⟩ | ⟨-, -, -, rfl⟩ | ⟨-, -, -, rfl⟩⟩ :=
    UpstreamCircuit.checkRequest_cases h <;> exact ⟨rfl, rfl⟩

theorem SameChecks.recordFailure {circuit circuit' : UpstreamCircuit} {now : ℕ}
    (h : circuit.recordFailure now = .ok circuit') : SameChecks circuit circuit' := by
  obtain ⟨-, -, ⟨-, -, rfl⟩ | ⟨-, -, rfl⟩ | ⟨-, rfl⟩ | ⟨-, rfl⟩⟩ :=
    UpstreamCircuit.recordFailure_cases h <;> exact ⟨rfl, rfl⟩

/-- **A call of a request changes no time of a check**; a circuit it creates was never checked. -/
theorem sameChecks_move {defaultConfig : CircuitBreakerConfig}
    {circuit? circuit?' : Option UpstreamCircuit} (hcall : call.isUpdate = false)
    (h : call.moveCircuit defaultConfig circuit? = .ok (circuit?', answer)) :
    (∀ circuit, circuit? = some circuit →
        ∃ circuit', circuit?' = some circuit' ∧ SameChecks circuit circuit') ∧
      (circuit? = none → ∀ circuit', circuit?' = some circuit' →
        circuit'.lastHealthCheck = none) := by
  cases call with
  | registerUpstream upstream config =>
    obtain ⟨rfl, -⟩ := Prod.mk.inj (Except.ok.inj h)
    refine ⟨?_, ?_⟩
    · rintro circuit rfl
      exact ⟨circuit, rfl, rfl, rfl⟩
    · rintro rfl circuit' hcircuit'
      obtain rfl := Option.some.inj hcircuit'
      rfl
  | checkRequest now upstream =>
    obtain ⟨⟨circuit₁, result⟩, hcheck, h⟩ := Checked.bind_eq_ok.mp h
    obtain ⟨rfl, -⟩ := Prod.mk.inj (Except.ok.inj h)
    refine ⟨?_, ?_⟩
    · rintro circuit rfl
      exact ⟨circuit₁, rfl, .checkRequest hcheck⟩
    · rintro rfl circuit' hcircuit'
      obtain rfl := Option.some.inj hcircuit'
      exact (SameChecks.checkRequest hcheck).1
  | recordSuccess now upstream =>
    obtain ⟨rfl, -⟩ := Prod.mk.inj (Except.ok.inj h)
    refine ⟨?_, ?_⟩
    · rintro circuit rfl
      exact ⟨_, rfl, rfl, rfl⟩
    · rintro rfl circuit' hcircuit'
      cases hcircuit'
  | recordFailure now upstream =>
    obtain ⟨circuit₁, hfailure, h⟩ := Checked.bind_eq_ok.mp h
    obtain ⟨rfl, -⟩ := Prod.mk.inj (Except.ok.inj h)
    refine ⟨?_, ?_⟩
    · rintro circuit rfl
      exact ⟨circuit₁, rfl, .recordFailure hfailure⟩
    · rintro rfl circuit' hcircuit'
      obtain rfl := Option.some.inj hcircuit'
      exact (SameChecks.recordFailure hfailure).1
  | updateHealth now upstream healthy => cases hcall

theorem sameChecks_step (hcall : call.isUpdate = false)
    (h : breakerMachine.step mgr call = .ok (mgr', answer)) (u : String) :
    (∀ circuit, mgr.circuits.get u = some circuit →
        ∃ circuit', mgr'.circuits.get u = some circuit' ∧ SameChecks circuit circuit') ∧
      (mgr.circuits.get u = none → ∀ circuit', mgr'.circuits.get u = some circuit' →
        circuit'.lastHealthCheck = none) := by
  by_cases hu : call.upstream = u
  · subst hu
    exact sameChecks_move hcall (breaker_step_self h)
  · rw [(breaker_step_other h).1 u (Ne.symm hu)]
    exact ⟨fun circuit hget => ⟨circuit, hget, rfl, rfl⟩, fun hnone circuit' hget => by
      rw [hnone] at hget
      cases hget⟩

/-- **A report of the upstream's health** is when it was last checked. -/
theorem checked_updateHealth {now : ℕ} {healthy : Bool}
    (h : mgr.updateHealth now u healthy = .ok mgr') :
    (∀ circuit, mgr.circuits.get u = some circuit → ∃ circuit',
        mgr'.circuits.get u = some circuit' ∧ circuit'.lastHealthCheck = some now ∧
        circuit'.config = circuit.config) ∧
      (mgr.circuits.get u = none → mgr'.circuits.get u = none) ∧
      ∀ v ≠ u, mgr'.circuits.get v = mgr.circuits.get v := by
  have hstep : breakerMachine.step mgr (.updateHealth now u healthy) = .ok (mgr', .done) :=
    Checked.bind_eq_ok.mpr ⟨mgr', h, rfl⟩
  have hself := breaker_step_self hstep
  refine ⟨fun circuit hget => ?_, fun hnone => ?_, (breaker_step_other hstep).1⟩
  · rw [BreakerCall.upstream, hget] at hself
    obtain ⟨circuit?, hhealth, hdone⟩ := Checked.bind_eq_ok.mp hself
    rw [Option.mapM_some] at hhealth
    obtain ⟨circuit', hmoved, hsome⟩ := Checked.bind_eq_ok.mp hhealth
    obtain rfl := Except.ok.inj hsome
    refine ⟨circuit', (Prod.mk.inj (Except.ok.inj hdone)).1.symm, ?_⟩
    obtain ⟨-, -, rfl⟩ | ⟨-, -, -, rfl⟩ | ⟨-, -, -, rfl⟩ | ⟨-, -, rfl⟩ :=
      UpstreamCircuit.updateHealth_cases hmoved <;> exact ⟨rfl, rfl⟩
  · rw [BreakerCall.upstream, hnone] at hself
    exact (Prod.mk.inj (Except.ok.inj hself)).1.symm

end

/-! ## Checks are spaced -/

/-- Up to the time `t` the checks of each upstream are its interval apart, and the targets that are
left are due. -/
structure Spaced (probes : List HealthProbe) (t : ℕ) (s : HealthLoop) : Prop where
  before : ∀ probe ∈ probes, probe.now ≤ t
  last : ∀ u circuit, s.breaker.circuits.get u = some circuit →
    circuit.lastHealthCheck = (timesOf u probes).getLast?
  spaced : ∀ u circuit, s.breaker.circuits.get u = some circuit →
    (timesOf u probes).Pairwise fun a b => a + circuit.config.healthCheckInterval ≤ b
  unseen : ∀ u, s.breaker.circuits.get u = none → timesOf u probes = []
  nodup : (s.targets.map Prod.fst).Nodup
  due : ∀ target ∈ s.targets, ∃ circuit, s.breaker.circuits.get target.1 = some circuit ∧
    ∀ a ∈ timesOf target.1 probes, a + circuit.config.healthCheckInterval ≤ t

section

variable {probes : List HealthProbe} {t t' : ℕ} {s s' : HealthLoop} {u : String}

theorem Spaced.mono (h : Spaced probes t s) (ht : t ≤ t') : Spaced probes t' s :=
  { h with
    before := fun probe hprobe => (h.before probe hprobe).trans ht
    due := fun target htarget => by
      obtain ⟨circuit, hget, hdue⟩ := h.due target htarget
      exact ⟨circuit, hget, fun a ha => (hdue a ha).trans ht⟩ }

/-- A call of a request spaces nothing differently. -/
theorem Spaced.call (h : Spaced probes t s) {call : BreakerCall} (hcall : call.isUpdate = false)
    {breaker : CircuitBreakerManager} {answer : BreakerAnswer}
    (hstep : breakerMachine.step s.breaker call = .ok (breaker, answer)) :
    Spaced probes t { s with breaker } := by
  have hsame := sameChecks_step hcall hstep
  -- a circuit there is now was there, or is new
  have hcases : ∀ u circuit', breaker.circuits.get u = some circuit' →
      (∃ circuit, s.breaker.circuits.get u = some circuit ∧ SameChecks circuit circuit') ∨
        s.breaker.circuits.get u = none ∧ circuit'.lastHealthCheck = none := by
    intro u circuit' hget'
    cases hget : s.breaker.circuits.get u with
    | none => exact .inr ⟨rfl, (hsame u).2 hget circuit' hget'⟩
    | some circuit =>
      obtain ⟨circuit'', hget'', hchecks⟩ := (hsame u).1 circuit hget
      obtain rfl := Option.some.inj (hget'.symm.trans hget'')
      exact .inl ⟨circuit, rfl, hchecks⟩
  refine ⟨h.before, fun u circuit' hget' => ?_, fun u circuit' hget' => ?_, fun u hnone => ?_,
    h.nodup, fun target htarget => ?_⟩
  · obtain ⟨circuit, hget, hchecks⟩ | ⟨hnone, hnever⟩ := hcases u circuit' hget'
    · rw [hchecks.1, h.last u circuit hget]
    · rw [hnever, h.unseen u hnone]
      rfl
  · obtain ⟨circuit, hget, hchecks⟩ | ⟨hnone, -⟩ := hcases u circuit' hget'
    · rw [hchecks.2]
      exact h.spaced u circuit hget
    · rw [h.unseen u hnone]
      exact .nil
  · cases hget : s.breaker.circuits.get u with
    | none => exact h.unseen u hget
    | some circuit =>
      obtain ⟨circuit', hget', -⟩ := (hsame u).1 circuit hget
      exact absurd (hnone.symm.trans hget') nofun
  · obtain ⟨circuit, hget, hdue⟩ := h.due target htarget
    obtain ⟨circuit', hget', hchecks⟩ := (hsame target.1).1 circuit hget
    exact ⟨circuit', hget', hchecks.2 ▸ hdue⟩

theorem mem_upstreamsNeedingHealthCheck {order : WalkOrder String UpstreamCircuit} {now : ℕ}
    {mgr : CircuitBreakerManager} {target : String × String} :
    target ∈ mgr.upstreamsNeedingHealthCheck order now ↔
      ∃ circuit, mgr.circuits.get target.1 = some circuit ∧ circuit.isDue now = true ∧
        target.2 = circuit.config.healthCheckPath := by
  have hholds : mgr.circuits.Holds mgr.circuits.pairs := .refl _
  have hmem : ∀ u circuit, (u, circuit) ∈ mgr.circuits.iter order ↔
      mgr.circuits.get u = some circuit := fun u circuit =>
    (hholds.iter order).mem_iff.trans hholds.get_eq_some.symm
  obtain ⟨u, path⟩ := target
  simp only [CircuitBreakerManager.upstreamsNeedingHealthCheck, List.mem_map, List.mem_filter,
    Prod.exists, Prod.mk.injEq, hmem]
  constructor
  · rintro ⟨_, circuit, ⟨hget, hdue⟩, rfl, rfl⟩
    exact ⟨circuit, hget, hdue, rfl⟩
  · rintro ⟨circuit, hget, hdue, rfl⟩
    exact ⟨u, circuit, ⟨hget, hdue⟩, rfl, rfl⟩

theorem mem_fst_upstreamsNeedingHealthCheck {order : WalkOrder String UpstreamCircuit} {now : ℕ}
    {mgr : CircuitBreakerManager} {u : String} :
    u ∈ (mgr.upstreamsNeedingHealthCheck order now).map Prod.fst ↔
      mgr.needsHealthCheck now u = true := by
  rw [List.mem_map, CircuitBreakerManager.needsHealthCheck]
  constructor
  · rintro ⟨target, htarget, rfl⟩
    obtain ⟨circuit, hget, hdue, -⟩ := mem_upstreamsNeedingHealthCheck.mp htarget
    rw [hget]
    exact hdue
  · intro hdue
    cases hget : mgr.circuits.get u with
    | none =>
      rw [hget] at hdue
      cases hdue
    | some circuit =>
      rw [hget] at hdue
      exact ⟨(u, circuit.config.healthCheckPath),
        mem_upstreamsNeedingHealthCheck.mpr ⟨circuit, hget, hdue, rfl⟩, rfl⟩

theorem nodup_upstreamsNeedingHealthCheck (order : WalkOrder String UpstreamCircuit) (now : ℕ)
    (mgr : CircuitBreakerManager) :
    ((mgr.upstreamsNeedingHealthCheck order now).map Prod.fst).Nodup := by
  have hholds : mgr.circuits.Holds mgr.circuits.pairs := .refl _
  have hkeys : ((mgr.circuits.iter order).map Prod.fst).Nodup :=
    ((hholds.iter order).map Prod.fst).nodup_iff.mpr hholds.nodup
  rw [CircuitBreakerManager.upstreamsNeedingHealthCheck, List.map_map]
  exact hkeys.sublist (List.filter_sublist.map Prod.fst)

/-- The last of spaced times is the latest. -/
theorem le_of_getLast? {times : List ℕ} {interval last : ℕ}
    (h : times.Pairwise fun a b => a + interval ≤ b) (hlast : times.getLast? = some last) :
    ∀ a ∈ times, a ≤ last := by
  obtain ⟨front, rfl⟩ := List.getLast?_eq_some_iff.mp hlast
  intro a ha
  obtain ha | ha := List.mem_append.mp ha
  · have := (List.pairwise_append.mp h).2.2 a ha last List.mem_cons_self
    omega
  · exact (List.mem_singleton.mp ha).le

/-- Who is due was last checked an interval ago. -/
theorem Spaced.of_isDue (h : Spaced probes t s) {circuit : UpstreamCircuit}
    (hget : s.breaker.circuits.get u = some circuit) (hdue : circuit.isDue t = true) :
    ∀ a ∈ timesOf u probes, a + circuit.config.healthCheckInterval ≤ t := by
  have hlast := h.last u circuit hget
  intro a ha
  unfold UpstreamCircuit.isDue at hdue
  cases hnever : circuit.lastHealthCheck with
  | none =>
    rw [hnever] at hlast
    rw [List.getLast?_eq_none_iff.mp hlast.symm] at ha
    exact absurd ha List.not_mem_nil
  | some last =>
    rw [hnever] at hlast hdue
    have hle := le_of_getLast? (h.spaced u circuit hget) hlast.symm a ha
    obtain ⟨probe, hprobe, rfl⟩ := List.mem_map.mp (List.mem_of_getLast? hlast.symm)
    have hbefore := h.before probe (List.mem_of_mem_filter hprobe)
    have hinterval := of_decide_eq_true hdue
    omega

/-- **The probe of a target** comes an interval after the last. -/
theorem Spaced.probed (h : Spaced probes t s) {upstream path : String}
    {targets : List (String × String)} (htargets : s.targets = (upstream, path) :: targets)
    {probe : HealthProbe} (hupstream : probe.upstream = upstream) (hnow : probe.now = t)
    {breaker : CircuitBreakerManager} {healthy : Bool}
    (hhealth : s.breaker.updateHealth t upstream healthy = .ok breaker) :
    Spaced (probes ++ [probe]) t ⟨breaker, targets⟩ := by
  obtain ⟨hself, hnone, hothers⟩ := checked_updateHealth hhealth
  have hnodup := h.nodup
  rw [htargets, List.map_cons, List.nodup_cons] at hnodup
  obtain ⟨circuit, hget, hdue⟩ := h.due (upstream, path) (htargets ▸ List.mem_cons_self)
  obtain ⟨circuit', hget', hchecked, hconfig⟩ := hself circuit hget
  have htimes : timesOf upstream (probes ++ [probe]) = timesOf upstream probes ++ [t] := by
    rw [timesOf_concat_self hupstream, hnow]
  have hold : ∀ u ≠ upstream, timesOf u (probes ++ [probe]) = timesOf u probes := fun u hu =>
    timesOf_concat_of_ne fun hprobe => hu (hprobe.symm.trans hupstream)
  refine ⟨?_, fun u c hc => ?_, fun u c hc => ?_, fun u hc => ?_, hnodup.2,
    fun target htarget => ?_⟩
  · intro p hp
    obtain hp | hp := List.mem_append.mp hp
    · exact h.before p hp
    · rw [List.mem_singleton.mp hp, hnow]
  · by_cases hu : u = upstream
    · subst hu
      obtain rfl := Option.some.inj (hget'.symm.trans hc)
      rw [hchecked, htimes, List.getLast?_concat]
    · rw [hold u hu]
      exact h.last u c ((hothers u hu).symm.trans hc)
  · by_cases hu : u = upstream
    · subst hu
      obtain rfl := Option.some.inj (hget'.symm.trans hc)
      rw [htimes, hconfig, List.pairwise_append]
      exact ⟨h.spaced u circuit hget, List.pairwise_singleton _ _, fun a ha b hb => by
        rw [List.mem_singleton.mp hb]
        exact hdue a ha⟩
    · rw [hold u hu]
      exact h.spaced u c ((hothers u hu).symm.trans hc)
  · by_cases hu : u = upstream
    · subst hu
      exact absurd (hc.symm.trans hget') nofun
    · rw [hold u hu]
      exact h.unseen u ((hothers u hu).symm.trans hc)
  · have hu : target.1 ≠ upstream := fun hu =>
      hnodup.1 (hu ▸ (List.mem_map_of_mem htarget : target.1 ∈ targets.map Prod.fst))
    obtain ⟨c, hc, hlater⟩ := h.due target (htargets ▸ List.mem_cons_of_mem _ htarget)
    rw [hold _ hu]
    exact ⟨c, (hothers _ hu).trans hc, hlater⟩

/-- **One event keeps the checks spaced.** -/
theorem Spaced.step (h : Spaced probes t s) {event : HealthEvent} {report : HealthReport}
    (htime : ∀ now, event.time? = some now → t ≤ now)
    (hstep : healthMachine.step s event = .ok (s', report)) :
    Spaced (probes ++ report.probe?.toList) (event.time?.getD t) s' := by
  cases event with
  | call call hcall =>
    obtain ⟨⟨breaker, answer⟩, hbreaker, hstep⟩ := Checked.bind_eq_ok.mp hstep
    obtain ⟨rfl, rfl⟩ := Prod.mk.inj (Except.ok.inj hstep)
    rw [show HealthReport.probe? _ = none from rfl, Option.toList_none, List.append_nil]
    refine (h.mono ?_).call hcall hbreaker
    cases hcalled : (HealthEvent.call call hcall).time? with
    | none => exact le_rfl
    | some now => exact htime now hcalled
  | wake now order =>
    have hle := htime now rfl
    simp only [healthMachine] at hstep
    split at hstep
    · obtain ⟨rfl, rfl⟩ := Prod.mk.inj (Except.ok.inj hstep)
      rw [show HealthReport.probe? _ = none from rfl, Option.toList_none, List.append_nil]
      have hmono : Spaced probes now s := h.mono hle
      refine ⟨hmono.before, hmono.last, hmono.spaced, hmono.unseen,
        nodup_upstreamsNeedingHealthCheck order now s.breaker, fun target htarget => ?_⟩
      obtain ⟨circuit, hget, hdue, -⟩ := mem_upstreamsNeedingHealthCheck.mp htarget
      exact ⟨circuit, hget, hmono.of_isDue hget hdue⟩
    · obtain ⟨rfl, rfl⟩ := Prod.mk.inj (Except.ok.inj hstep)
      rw [show HealthReport.probe? _ = none from rfl, Option.toList_none, List.append_nil]
      exact h.mono hle
  | probed now status? =>
    have hle := htime now rfl
    simp only [healthMachine] at hstep
    split at hstep
    · obtain ⟨rfl, rfl⟩ := Prod.mk.inj (Except.ok.inj hstep)
      rw [show HealthReport.probe? _ = none from rfl, Option.toList_none, List.append_nil]
      exact h.mono hle
    · rename_i upstream path targets htargets
      obtain ⟨breaker, hhealth, hstep⟩ := Checked.bind_eq_ok.mp hstep
      obtain ⟨rfl, rfl⟩ := Prod.mk.inj (Except.ok.inj hstep)
      exact (h.mono hle).probed htargets rfl rfl hhealth

/-- **The checks stay spaced** for as long as the task runs. -/
theorem Spaced.run (h : Spaced probes t s) {events : List HealthEvent}
    {reports : List HealthReport}
    (htimes : (t :: events.filterMap HealthEvent.time?).Pairwise (· ≤ ·))
    (hrun : healthMachine.run s events = .ok (s', reports)) :
    ∃ t', Spaced (probes ++ reports.filterMap HealthReport.probe?) t' s' := by
  induction events generalizing probes t s reports with
  | nil =>
    obtain ⟨rfl, rfl⟩ := Prod.mk.inj (Except.ok.inj hrun)
    exact ⟨t, by rwa [List.filterMap_nil, List.append_nil]⟩
  | cons event events ih =>
    obtain ⟨s₁, report, reports, hstep, hrest, rfl⟩ := healthMachine.run_cons_eq_ok.mp hrun
    obtain ⟨hle, hsorted⟩ := List.pairwise_cons.mp htimes
    have hnow : ∀ now, event.time? = some now → t ≤ now := fun now hnow =>
      hle now (List.mem_filterMap.mpr ⟨event, List.mem_cons_self, hnow⟩)
    have hfirst := h.step hnow hstep
    have hlater : (event.time?.getD t :: events.filterMap HealthEvent.time?).Pairwise (· ≤ ·) := by
      cases hnow : event.time? with
      | none =>
        rw [List.filterMap_cons_none hnow] at htimes
        exact htimes
      | some now =>
        rw [List.filterMap_cons_some hnow] at hsorted
        exact hsorted
    obtain ⟨t', hend⟩ := ih hfirst hlater hrest
    refine ⟨t', ?_⟩
    rwa [filterMap_probe_cons, ← List.append_assoc]

end

/-- **Health checks keep their interval.**  However requests use the circuit breakers in between,
two probes of an upstream are reported at least its health check interval apart, and its circuit
remembers the last one. -/
theorem checks_spaced {defaultConfig : CircuitBreakerConfig} {events : List HealthEvent}
    {reports : List HealthReport} {s : HealthLoop}
    (htimes : (events.filterMap HealthEvent.time?).Pairwise (· ≤ ·))
    (hrun : healthMachine.run ⟨.new defaultConfig, []⟩ events = .ok (s, reports)) {u : String}
    {circuit : UpstreamCircuit} (hget : s.breaker.circuits.get u = some circuit) :
    ((timesOf u (reports.filterMap HealthReport.probe?)).Pairwise fun a b =>
        a + circuit.config.healthCheckInterval ≤ b) ∧
      circuit.lastHealthCheck = (timesOf u (reports.filterMap HealthReport.probe?)).getLast? := by
  have hstart : Spaced [] 0 ⟨.new defaultConfig, []⟩ :=
    ⟨fun _ h => absurd h List.not_mem_nil, fun _ _ h => (nomatch h), fun _ _ h => (nomatch h),
      fun _ _ => rfl, .nil, fun _ h => absurd h List.not_mem_nil⟩
  obtain ⟨t, hend⟩ := hstart.run
    (List.pairwise_cons.mpr ⟨fun _ _ => Nat.zero_le _, htimes⟩) hrun
  exact ⟨hend.spaced u circuit hget, hend.last u circuit hget⟩

/-- An upstream is checked, a request passes, and the task wakes up too early and once more. -/
def checkedTwice : List HealthEvent :=
  [.call (.registerUpstream "http://a" none) rfl, .wake 1 (.listed _ _), .probed 2 (some 200),
    .call (.checkRequest 3 "http://a") rfl, .wake 4 (.listed _ _),
    .wake (11 * 10 ^ 9) (.listed _ _), .probed (12 * 10 ^ 9) none]

/-- The second check is ten seconds after the first. -/
theorem checks_spaced_twice : ∃ s reports circuit,
    healthMachine.run ⟨.new .default, []⟩ checkedTwice = .ok (s, reports) ∧
    s.breaker.circuits.get "http://a" = some circuit ∧
    ((timesOf "http://a" (reports.filterMap HealthReport.probe?)).Pairwise fun a b =>
      a + circuit.config.healthCheckInterval ≤ b) := by
  have hrun : ∃ s reports circuit,
      healthMachine.run ⟨.new .default, []⟩ checkedTwice = .ok (s, reports) ∧
      s.breaker.circuits.get "http://a" = some circuit := ⟨_, _, _, rfl, rfl⟩
  obtain ⟨s, reports, circuit, hrun, hget⟩ := hrun
  have htimes : checkedTwice.filterMap HealthEvent.time?
      = [1, 2, 3, 4, 11 * 10 ^ 9, 12 * 10 ^ 9] := rfl
  exact ⟨s, reports, circuit, hrun, hget, (checks_spaced (htimes ▸ by decide) hrun hget).1⟩

/-! ## One round

Who is due is read once, when the task wakes up. -/

/-- The task wakes up. -/
def HealthEvent.isWake : HealthEvent → Bool
  | .wake _ _ => true
  | _ => false

/-- The round so far: what it has probed and what is left are its targets, and whom it has probed
was last checked since it began. -/
structure Round (start : HealthLoop) (now : ℕ) (targets : List (String × String))
    (probes : List HealthProbe) (s : HealthLoop) : Prop where
  targets : probes.map (fun probe => (probe.upstream, probe.url))
    ++ s.targets.map (fun target => (target.1, target.1 ++ target.2))
      = targets.map fun target => (target.1, target.1 ++ target.2)
  circuits : ∀ u circuit, start.breaker.circuits.get u = some circuit →
    ∃ circuit', s.breaker.circuits.get u = some circuit' ∧
      if u ∈ probes.map HealthProbe.upstream then
        ∃ last, circuit'.lastHealthCheck = some last ∧ now ≤ last
      else circuit'.lastHealthCheck = circuit.lastHealthCheck

theorem Round.run {start s t : HealthLoop} {now : ℕ} {targets : List (String × String)}
    {probes : List HealthProbe} (h : Round start now targets probes s) {events : List HealthEvent}
    {reports : List HealthReport} (hwake : ∀ event ∈ events, event.isWake = false)
    (htimes : ∀ event ∈ events, ∀ time, event.time? = some time → now ≤ time)
    (hrun : healthMachine.run s events = .ok (t, reports)) :
    Round start now targets (probes ++ reports.filterMap HealthReport.probe?) t := by
  induction events generalizing probes s reports with
  | nil =>
    obtain ⟨rfl, rfl⟩ := Prod.mk.inj (Except.ok.inj hrun)
    rwa [List.filterMap_nil, List.append_nil]
  | cons event events ih =>
    obtain ⟨s₁, report, reports, hstep, hrest, rfl⟩ := healthMachine.run_cons_eq_ok.mp hrun
    obtain ⟨hfirst, hwake'⟩ := List.forall_mem_cons.mp hwake
    obtain ⟨htime, htimes'⟩ := List.forall_mem_cons.mp htimes
    rw [filterMap_probe_cons, ← List.append_assoc]
    refine ih ?_ hwake' htimes' hrest
    cases event with
    | call call hcall =>
      obtain ⟨⟨breaker, answer⟩, hbreaker, hstep⟩ := Checked.bind_eq_ok.mp hstep
      obtain ⟨rfl, rfl⟩ := Prod.mk.inj (Except.ok.inj hstep)
      rw [show HealthReport.probe? _ = none from rfl, Option.toList_none, List.append_nil]
      refine ⟨h.targets, fun u circuit hget => ?_⟩
      obtain ⟨circuit₁, hget₁, hchecked⟩ := h.circuits u circuit hget
      obtain ⟨circuit₂, hget₂, hsame⟩ := (sameChecks_step hcall hbreaker u).1 circuit₁ hget₁
      exact ⟨circuit₂, hget₂, hsame.1 ▸ hchecked⟩
    | wake now order => cases hfirst
    | probed now' status? =>
      simp only [healthMachine] at hstep
      split at hstep
      · obtain ⟨rfl, rfl⟩ := Prod.mk.inj (Except.ok.inj hstep)
        rwa [show HealthReport.probe? _ = none from rfl, Option.toList_none, List.append_nil]
      · rename_i upstream path rest htargets
        obtain ⟨breaker, hhealth, hstep⟩ := Checked.bind_eq_ok.mp hstep
        obtain ⟨rfl, rfl⟩ := Prod.mk.inj (Except.ok.inj hstep)
        obtain ⟨hself, -, hothers⟩ := checked_updateHealth hhealth
        refine ⟨?_, fun u circuit hget => ?_⟩
        · have hall := h.targets
          rw [htargets] at hall
          rw [← hall, List.map_append, List.append_assoc]
          rfl
        · obtain ⟨circuit₁, hget₁, hchecked⟩ := h.circuits u circuit hget
          by_cases hu : u = upstream
          · subst hu
            obtain ⟨circuit₂, hget₂, hlast, -⟩ := hself circuit₁ hget₁
            refine ⟨circuit₂, hget₂, ?_⟩
            rw [if_pos (by simp [HealthReport.probe?])]
            exact ⟨now', hlast, htime now' rfl⟩
          · refine ⟨circuit₁, (hothers u hu).trans hget₁, ?_⟩
            simpa [hu, HealthReport.probe?] using hchecked

/-- **A round of health checks is exact.**  Whatever requests do meanwhile, from waking up until no
target is left each upstream that was due is probed once, on its own health path, and no other is;
and those are the upstreams that were last checked in the round. -/
theorem round_exact {start t : HealthLoop} {now : ℕ} {order : WalkOrder String UpstreamCircuit}
    {events : List HealthEvent} {reports : List HealthReport} (hstart : start.targets = [])
    (hwake : ∀ event ∈ events, event.isWake = false)
    (htimes : ∀ event ∈ events, ∀ time, event.time? = some time → now ≤ time)
    (hrun : healthMachine.run start (.wake now order :: events) = .ok (t, reports))
    (hdone : t.targets = []) (u : String) :
    ((reports.filterMap HealthReport.probe?).map HealthProbe.upstream).count u
        = (start.breaker.needsHealthCheck now u).toNat ∧
      ∀ circuit, start.breaker.circuits.get u = some circuit →
        (∀ probe ∈ reports.filterMap HealthReport.probe?, probe.upstream = u →
          probe.url = u ++ circuit.config.healthCheckPath) ∧
        ∃ circuit', t.breaker.circuits.get u = some circuit' ∧
          if start.breaker.needsHealthCheck now u then
            ∃ last, circuit'.lastHealthCheck = some last ∧ now ≤ last
          else circuit'.lastHealthCheck = circuit.lastHealthCheck := by
  obtain ⟨s₁, report, reports, hstep, hrest, rfl⟩ := healthMachine.run_cons_eq_ok.mp hrun
  simp only [healthMachine, hstart] at hstep
  obtain ⟨rfl, rfl⟩ := Prod.mk.inj (Except.ok.inj hstep)
  have hround : Round start now (start.breaker.upstreamsNeedingHealthCheck order now) []
      { start with targets := start.breaker.upstreamsNeedingHealthCheck order now } :=
    ⟨rfl, fun u circuit hget => ⟨circuit, hget, rfl⟩⟩
  obtain ⟨htargets, hcircuits⟩ := hround.run hwake htimes hrest
  rw [hdone, List.map_nil, List.append_nil] at htargets
  rw [filterMap_probe_cons, show HealthReport.probe? _ = none from rfl, Option.toList_none]
  set probes := reports.filterMap HealthReport.probe?
  -- the probes are the targets
  have hupstreams : probes.map HealthProbe.upstream
      = (start.breaker.upstreamsNeedingHealthCheck order now).map Prod.fst := by
    have := congrArg (List.map Prod.fst) htargets
    simpa only [List.nil_append, List.map_map, Function.comp_def] using this
  have hmem : u ∈ probes.map HealthProbe.upstream ↔
      start.breaker.needsHealthCheck now u = true := by
    rw [hupstreams, mem_fst_upstreamsNeedingHealthCheck]
  have hnodup : (probes.map HealthProbe.upstream).Nodup :=
    hupstreams ▸ nodup_upstreamsNeedingHealthCheck order now start.breaker
  refine ⟨?_, fun circuit hget => ⟨fun probe hprobe hu => ?_, ?_⟩⟩
  · rw [List.nil_append, hnodup.count, if_congr hmem rfl rfl]
    cases start.breaker.needsHealthCheck now u <;> rfl
  · have hasked := List.mem_map_of_mem (f := fun probe => (probe.upstream, probe.url)) hprobe
    rw [htargets] at hasked
    obtain ⟨target, htarget, heq⟩ := List.mem_map.mp hasked
    obtain ⟨hupstream, hurl⟩ := Prod.mk.inj heq
    obtain ⟨c, hc, -, hpath⟩ := mem_upstreamsNeedingHealthCheck.mp htarget
    rw [hupstream, hu] at hc
    obtain rfl := Option.some.inj (hc.symm.trans hget)
    rw [← hurl, hupstream, hu, hpath]
  · obtain ⟨circuit', hget', hchecked⟩ := hcircuits u circuit hget
    rw [List.nil_append, if_congr hmem rfl rfl] at hchecked
    exact ⟨circuit', hget', hchecked⟩

/-- Nobody answers the one upstream's probe. -/
theorem round_exact_unanswered : ∃ start t reports, start.targets = [] ∧
    healthMachine.run start [.wake 1 (.listed _ _),
      .call (.checkRequest 1 "http://a") rfl, .probed 2 none] = .ok (t, reports) ∧
    ((reports.filterMap HealthReport.probe?).map HealthProbe.upstream).count "http://a"
      = (start.breaker.needsHealthCheck 1 "http://a").toNat := by
  have hrun : ∃ start : HealthLoop, ∃ t reports, start.targets = [] ∧
      healthMachine.run start [.wake 1 (.listed _ _),
        .call (.checkRequest 1 "http://a") rfl, .probed 2 none] = .ok (t, reports) ∧
      t.targets = [] :=
    ⟨⟨(CircuitBreakerManager.new .default).registerUpstream "http://a" none, []⟩, _, _, rfl, rfl,
      rfl⟩
  obtain ⟨start, t, reports, hstart, hrun, hdone⟩ := hrun
  refine ⟨start, t, reports, hstart, hrun, (round_exact hstart ?_ ?_ hrun hdone _).1⟩
  · simp [HealthEvent.isWake]
  · simp [HealthEvent.time?, BreakerCall.time]

end PqcGateway
