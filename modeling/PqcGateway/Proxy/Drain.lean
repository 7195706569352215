import PqcGateway.Machinery.Jobs

/-!
# Proxy/Drain — the TLS listener, and how it stops

    accepting ──▸ signalled ──▸ draining ──nobody is left──▸ stopped
        │                         ▴  ▾                           ▴
        ▾                        counted ──the time is over──────╯
      failed

`start_with_tls` counts a connection when it accepts it, and the connection's task gives the count
back as its last act.  On a shutdown the listener tells the tasks, sets its deadline, and then loads
the count every 100 ms and, unless it is zero, reads the clock.  Tasks and listener run at the same
time, so a run is any order of their steps (`drainMachine`); between the load of the count and the
read of the clock the last connection may be given back.

* `run_logged` — the listener's count is the number of connections that were not given back.
* `drain_exact` — the drain ends exactly if the load of the count finds every connection given back,
  or finds one that is not and then the time is over.
-/

namespace PqcGateway

/-! ## The listener and its connections -/

/-- Where the task of a connection stands: in the handshake; serving, and told to shut down or not;
at its end; with its count given back; or panicked. -/
inductive ConnectionTask
  | handshaking
  | serving (draining : Bool)
  | ended
  | released
  | crashed
deriving DecidableEq, Repr

/-- Where `start_with_tls` stands: accepting; about to set its deadline; at the head of the drain
loop; between the load of the count and the read of the clock; or returned. -/
inductive ListenerPhase
  | accepting
  | signalled
  | draining (deadline : ℕ)
  | counted (deadline : ℕ)
  | stopped (forced : Bool)
  | failed
deriving DecidableEq, Repr

/-- The deadline of the drain, once it is set. -/
def ListenerPhase.deadline? : ListenerPhase → Option ℕ
  | .draining deadline => some deadline
  | .counted deadline => some deadline
  | _ => none

/-- The listener: its connections, in the order it accepted them, and how many it counts. -/
structure TlsListener where
  phase : ListenerPhase
  connectionCount : UInt64
  tasks : List ConnectionTask

/-- A step of the listener or of the task of a connection.  Times are nanoseconds of a monotonic
clock. -/
inductive ListenerEvent
  | accept (accepted : Bool)
  | shutdown
  | setDeadline (now : ℕ)
  | loadCount
  | readClock (now : ℕ)
  | handshake (id : ℕ) (completed : Bool)
  | served (id : ℕ)
  | changed (id : ℕ)
  | release (id : ℕ)
  | crash (id : ℕ)

/-- What has happened. -/
inductive ListenerReport
  | idle
  | accepted (id : ℕ)
  | failed
  | shutdown
  | draining (now : ℕ)
  | counted
  | waits (now : ℕ)
  | forced (now : ℕ)
  | stopped
  | gracefulShutdown (id : ℕ)
  | released (id : ℕ)
  | crashed (id : ℕ)
deriving DecidableEq

/-- The report is of a task's step, or of none. -/
def ListenerReport.ofTask : ListenerReport → Bool
  | .idle => true
  | .gracefulShutdown _ => true
  | .released _ => true
  | .crashed _ => true
  | _ => false

/-- The task that takes the step. -/
def ListenerEvent.task? : ListenerEvent → Option ℕ
  | .handshake id _ => some id
  | .served id => some id
  | .changed id => some id
  | .release id => some id
  | .crash id => some id
  | _ => none

/-- The step of a connection's task, if it stands where that is one. -/
def ConnectionTask.step (phase : ListenerPhase) :
    ListenerEvent → ConnectionTask → Option (ConnectionTask × ListenerReport)
  | .handshake _ completed, .handshaking =>
    some (if completed then .serving false else .ended, .idle)
  | .served _, .serving _ => some (.ended, .idle)
  -- a change is seen once, and nothing is sent but the shutdown
  | .changed id, .serving false =>
    if phase = .accepting then none else some (.serving true, .gracefulShutdown id)
  | .release id, .ended => some (.released, .released id)
  | .crash id, .handshaking => some (.crashed, .crashed id)
  | .crash id, .serving _ => some (.crashed, .crashed id)
  | _, _ => none

/-- `drain_deadline`: adding to an `Instant` panics when its seconds overflow. -/
def drainDeadline (now drainTimeout : ℕ) : Checked ℕ := do
  let _ ← Checked.checkedAdd 63 (now / 10 ^ 9) drainTimeout
  pure (now + drainTimeout * 10 ^ 9)

namespace TlsListener

/-- `start_with_tls`, ready to accept. -/
def start : TlsListener := ⟨.accepting, 0, []⟩

/-- The listener has not returned, so that the runtime still runs the tasks. -/
def isUp (listener : TlsListener) : Bool :=
  match listener.phase with
  | .stopped _ => false
  | .failed => false
  | _ => true

/-- A step of the task of a connection, if there is such a step.  The last one gives back the
count. -/
def taskStep (listener : TlsListener) (event : ListenerEvent) :
    Option (TlsListener × ListenerReport) := do
  guard listener.isUp
  let id ← event.task?
  let task ← listener.tasks[id]?
  let (task, report) ← task.step listener.phase event
  let connectionCount :=
    if task = .released then listener.connectionCount - 1 else listener.connectionCount
  pure ({ listener with connectionCount, tasks := listener.tasks.set id task }, report)

/-- One step. -/
def step (drainTimeout : ℕ) (listener : TlsListener) :
    ListenerEvent → Checked (TlsListener × ListenerReport)
  | .accept accepted =>
    match listener.phase with
    | .accepting =>
      if accepted then
        pure ({ listener with
          connectionCount := listener.connectionCount + 1
          tasks := listener.tasks ++ [.handshaking] }, .accepted listener.tasks.length)
      else pure ({ listener with phase := .failed }, .failed)
    | _ => pure (listener, .idle)
  | .shutdown =>
    match listener.phase with
    | .accepting => pure ({ listener with phase := .signalled }, .shutdown)
    | _ => pure (listener, .idle)
  | .setDeadline now =>
    match listener.phase with
    | .signalled => do
      let deadline ← drainDeadline now drainTimeout
      pure ({ listener with phase := .draining deadline }, .draining now)
    | _ => pure (listener, .idle)
  | .loadCount =>
    match listener.phase with
    | .draining deadline =>
      if 0 < listener.connectionCount then
        pure ({ listener with phase := .counted deadline }, .counted)
      else pure ({ listener with phase := .stopped false }, .stopped)
    | _ => pure (listener, .idle)
  | .readClock now =>
    match listener.phase with
    | .counted deadline =>
      if deadline < now then pure ({ listener with phase := .stopped true }, .forced now)
      else pure ({ listener with phase := .draining deadline }, .waits now)
    | _ => pure (listener, .idle)
  | event => pure ((listener.taskStep event).getD (listener, .idle))

end TlsListener

/-- **The listener and its connections**, one step at a time. -/
def drainMachine (drainTimeout : ℕ) : Machine TlsListener ListenerEvent ListenerReport where
  step := TlsListener.step drainTimeout

/-! ## What a step can do

A step that is not possible where its task or the listener stands does nothing. -/

/-- A step of the task at this place, and what is reported of it. -/
inductive TaskMoves (phase : ListenerPhase) (id : ℕ) :
    ConnectionTask → ConnectionTask → ListenerReport → Prop
  | handshake (completed : Bool) :
    TaskMoves phase id .handshaking (if completed then .serving false else .ended) .idle
  | served (draining : Bool) : TaskMoves phase id (.serving draining) .ended .idle
  | changed (h : phase ≠ .accepting) :
    TaskMoves phase id (.serving false) (.serving true) (.gracefulShutdown id)
  | release : TaskMoves phase id .ended .released (.released id)
  | crashHandshake : TaskMoves phase id .handshaking .crashed (.crashed id)
  | crash (draining : Bool) : TaskMoves phase id (.serving draining) .crashed (.crashed id)

section

variable {drainTimeout : ℕ} {s s' : TlsListener} {event : ListenerEvent} {report : ListenerReport}

theorem taskMoves_of_step {phase : ListenerPhase} {id : ℕ} {task task' : ConnectionTask}
    (hid : event.task? = some id) (h : task.step phase event = some (task', report)) :
    TaskMoves phase id task task' report := by
  unfold ConnectionTask.step at h
  split at h
  · obtain ⟨rfl, rfl⟩ := Prod.mk.inj (Option.some.inj h)
    exact .handshake _
  · obtain ⟨rfl, rfl⟩ := Prod.mk.inj (Option.some.inj h)
    exact .served _
  · obtain rfl := Option.some.inj hid
    split_ifs at h with hphase
    obtain ⟨rfl, rfl⟩ := Prod.mk.inj (Option.some.inj h)
    exact .changed hphase
  · obtain rfl := Option.some.inj hid
    obtain ⟨rfl, rfl⟩ := Prod.mk.inj (Option.some.inj h)
    exact .release
  · obtain rfl := Option.some.inj hid
    obtain ⟨rfl, rfl⟩ := Prod.mk.inj (Option.some.inj h)
    exact .crashHandshake
  · obtain rfl := Option.some.inj hid
    obtain ⟨rfl, rfl⟩ := Prod.mk.inj (Option.some.inj h)
    exact .crash _
  · cases h

theorem taskStep_cases (h : s.taskStep event = some (s', report)) :
    ∃ id task task', s.tasks[id]? = some task ∧ TaskMoves s.phase id task task' report ∧
      s' = { s with
        connectionCount := if task' = .released then s.connectionCount - 1 else s.connectionCount
        tasks := s.tasks.set id task' } := by
  obtain ⟨_, -, h⟩ := Option.bind_eq_some_iff.mp h
  obtain ⟨id, hid, h⟩ := Option.bind_eq_some_iff.mp h
  obtain ⟨task, htask, h⟩ := Option.bind_eq_some_iff.mp h
  obtain ⟨⟨task', report'⟩, hstep, h⟩ := Option.bind_eq_some_iff.mp h
  obtain ⟨rfl, rfl⟩ := Prod.mk.inj (Option.some.inj h)
  exact ⟨id, task, task', htask, taskMoves_of_step hid hstep, rfl⟩

/-- What a step can do, with what is reported of it. -/
inductive ListenerMoves (drainTimeout : ℕ) (s : TlsListener) : ListenerReport → TlsListener → Prop
  | accepted (hphase : s.phase = .accepting) :
    ListenerMoves drainTimeout s (.accepted s.tasks.length) { s with
      connectionCount := s.connectionCount + 1
      tasks := s.tasks ++ [.handshaking] }
  | failed : ListenerMoves drainTimeout s .failed { s with phase := .failed }
  | shutdown (hphase : s.phase = .accepting) :
    ListenerMoves drainTimeout s .shutdown { s with phase := .signalled }
  | draining (now : ℕ) (hphase : s.phase = .signalled) :
    ListenerMoves drainTimeout s (.draining now)
      { s with phase := .draining (now + drainTimeout * 10 ^ 9) }
  | counted {deadline : ℕ} (hphase : s.phase = .draining deadline)
    (hcount : 0 < s.connectionCount) :
    ListenerMoves drainTimeout s .counted { s with phase := .counted deadline }
  | waits {deadline : ℕ} (now : ℕ) (hphase : s.phase = .counted deadline) (hnow : now ≤ deadline) :
    ListenerMoves drainTimeout s (.waits now) { s with phase := .draining deadline }
  | forced {deadline : ℕ} (now : ℕ) (hphase : s.phase = .counted deadline) (hnow : deadline < now) :
    ListenerMoves drainTimeout s (.forced now) { s with phase := .stopped true }
  | stopped (hcount : s.connectionCount = 0) :
    ListenerMoves drainTimeout s .stopped { s with phase := .stopped false }
  | task {id : ℕ} {task task' : ConnectionTask} {report : ListenerReport}
    (htask : s.tasks[id]? = some task) (hmoves : TaskMoves s.phase id task task' report) :
    ListenerMoves drainTimeout s report { s with
      connectionCount := if task' = .released then s.connectionCount - 1 else s.connectionCount
      tasks := s.tasks.set id task' }
  | idle : ListenerMoves drainTimeout s .idle s

/-- **A step does what `ListenerMoves` says.** -/
theorem listenerMoves_of_step (h : (drainMachine drainTimeout).step s event = .ok (s', report)) :
    ListenerMoves drainTimeout s report s' := by
  have htask : ∀ r : Option (TlsListener × ListenerReport), r = s.taskStep event →
      r.getD (s, .idle) = (s', report) → ListenerMoves drainTimeout s report s' := by
    rintro (_ | r) hr heq
    · obtain ⟨rfl, rfl⟩ := Prod.mk.inj heq
      exact .idle
    · obtain ⟨id, task, task', htask, hmoves, rfl⟩ :=
        taskStep_cases (hr.symm.trans (congrArg some heq))
      exact .task htask hmoves
  cases event with
  | accept accepted =>
    simp only [drainMachine, TlsListener.step] at h
    split at h
    · rename_i hphase
      split_ifs at h <;> obtain ⟨rfl, rfl⟩ := Prod.mk.inj (Except.ok.inj h)
      · exact .accepted hphase
      · exact .failed
    · obtain ⟨rfl, rfl⟩ := Prod.mk.inj (Except.ok.inj h)
      exact .idle
  | shutdown =>
    simp only [drainMachine, TlsListener.step] at h
    split at h
    · rename_i hphase
      obtain ⟨rfl, rfl⟩ := Prod.mk.inj (Except.ok.inj h)
      exact .shutdown hphase
    · obtain ⟨rfl, rfl⟩ := Prod.mk.inj (Except.ok.inj h)
      exact .idle
  | setDeadline now =>
    simp only [drainMachine, TlsListener.step] at h
    split at h
    · rename_i hphase
      obtain ⟨deadline, hdeadline, h⟩ := Checked.bind_eq_ok.mp h
      obtain ⟨_, -, hdeadline⟩ := Checked.bind_eq_ok.mp hdeadline
      obtain rfl := Except.ok.inj hdeadline
      obtain ⟨rfl, rfl⟩ := Prod.mk.inj (Except.ok.inj h)
      exact .draining now hphase
    · obtain ⟨rfl, rfl⟩ := Prod.mk.inj (Except.ok.inj h)
      exact .idle
  | loadCount =>
    simp only [drainMachine, TlsListener.step] at h
    split at h
    · rename_i deadline hphase
      split_ifs at h with hcount <;> obtain ⟨rfl, rfl⟩ := Prod.mk.inj (Except.ok.inj h)
      · exact .counted hphase hcount
      · exact .stopped (UInt64.le_zero_iff.mp (UInt64.not_lt.mp hcount))
    · obtain ⟨rfl, rfl⟩ := Prod.mk.inj (Except.ok.inj h)
      exact .idle
  | readClock now =>
    simp only [drainMachine, TlsListener.step] at h
    split at h
    · rename_i deadline hphase
      split_ifs at h with hdeadline <;> obtain ⟨rfl, rfl⟩ := Prod.mk.inj (Except.ok.inj h)
      · exact .forced now hphase hdeadline
      · exact .waits now hphase (Nat.le_of_not_lt hdeadline)
    · obtain ⟨rfl, rfl⟩ := Prod.mk.inj (Except.ok.inj h)
      exact .idle
  | _ => exact htask _ rfl (Except.ok.inj h)

end

/-! ## What has been reported, and what is

`Logged` says how the listener and its tasks stand, from the reports alone. -/

/-- Some connection was accepted and not given back. -/
def SomeOpen (reports : List ListenerReport) : Prop :=
  ∃ id, .accepted id ∈ reports ∧ .released id ∉ reports

/-- The count was loaded and not zero, and only tasks have moved since. -/
def JustCounted (reports : List ListenerReport) : Prop :=
  ∃ seen middle, reports = seen ++ .counted :: middle ∧ ∀ report ∈ middle, report.ofTask = true

/-- The listener and its tasks stand as was reported. -/
structure Logged (drainTimeout : ℕ) (reports : List ListenerReport) (s : TlsListener) : Prop where
  accepted : ∀ id, .accepted id ∈ reports ↔ id < s.tasks.length
  released : ∀ id, .released id ∈ reports ↔ s.tasks[id]? = some .released
  crashed : ∀ id, .crashed id ∈ reports ↔ s.tasks[id]? = some .crashed
  told : ∀ id, .gracefulShutdown id ∈ reports →
    s.phase ≠ .accepting ∧ s.tasks[id]? ≠ some .handshaking ∧ s.tasks[id]? ≠ some (.serving false)
  count : s.connectionCount = UInt64.ofNat (s.tasks.countP fun task => task ≠ .released)
  accepting : s.phase = .accepting → .shutdown ∉ reports
  deadline : ∀ deadline ∈ s.phase.deadline?,
    ∃ since, .draining since ∈ reports ∧ deadline = since + drainTimeout * 10 ^ 9
  counted : ∀ deadline, s.phase = .counted deadline → JustCounted reports

/-- What the report of a task's step says: where the task is given back, crashes or is told to shut
down, and nothing of the listener. -/
structure TaskReported (phase : ListenerPhase) (id : ℕ) (task' : ConnectionTask)
    (report : ListenerReport) : Prop where
  not_accepted : ∀ i, .accepted i ≠ report
  released : ∀ i, .released i = report ↔ i = id ∧ task' = .released
  crashed : ∀ i, .crashed i = report ↔ i = id ∧ task' = .crashed
  told : ∀ i, .gracefulShutdown i = report → i = id ∧ phase ≠ .accepting ∧ task' = .serving true
  not_shutdown : .shutdown ≠ report
  ofTask : report.ofTask = true

section

variable {drainTimeout : ℕ} {reports : List ListenerReport} {s s' t : TlsListener}
  {event : ListenerEvent} {report : ListenerReport} {id i : ℕ} {task task' : ConnectionTask}

/-- What a task reports comes after the load. -/
theorem JustCounted.concat (h : JustCounted reports) (hreport : report.ofTask = true) :
    JustCounted (reports ++ [report]) := by
  obtain ⟨seen, middle, rfl, hmiddle⟩ := h
  refine ⟨seen, middle ++ [report], by simp, fun r hr => ?_⟩
  obtain hr | hr := List.mem_append.mp hr
  · exact hmiddle r hr
  · exact List.mem_singleton.mp hr ▸ hreport

/-- **Some connection is open** if one is counted. -/
theorem Logged.someOpen_iff (h : Logged drainTimeout reports s) :
    SomeOpen reports ↔ 0 < s.tasks.countP fun task => task ≠ .released := by
  rw [List.countP_pos_iff]
  constructor
  · rintro ⟨id, haccepted, hreleased⟩
    have hlt := (h.accepted id).mp haccepted
    rw [h.released, List.getElem?_eq_getElem hlt, Option.some.injEq] at hreleased
    exact ⟨s.tasks[id], List.getElem_mem hlt, by simpa using hreleased⟩
  · rintro ⟨task, htask, hopen⟩
    obtain ⟨id, hid⟩ := List.mem_iff_getElem?.mp htask
    refine ⟨id, (h.accepted id).mpr (List.getElem?_eq_some_iff.mp hid).1, ?_⟩
    rw [h.released, hid, Option.some.injEq]
    simpa using hopen

/-- The listener counts the open connections, if there are not too many. -/
theorem Logged.count_pos_iff (h : Logged drainTimeout reports s)
    (hfits : s.tasks.length < 2 ^ 64) : 0 < s.connectionCount ↔ SomeOpen reports := by
  have hlt : s.tasks.countP (fun task => task ≠ .released) < 2 ^ 64 :=
    Nat.lt_of_le_of_lt List.countP_le_length hfits
  rw [h.someOpen_iff, h.count, UInt64.lt_iff_toNat_lt, UInt64.toNat_ofNat_of_lt' hlt]
  rfl

/-- What is reported of a step of a task. -/
theorem TaskMoves.reported (h : TaskMoves s.phase id task task' report) :
    TaskReported s.phase id task' report := by
  cases h with
  | handshake completed =>
    cases completed <;> exact ⟨nofun, by simp, by simp, nofun, nofun, rfl⟩
  | changed hphase => exact ⟨nofun, by simp, by simp, by simp [hphase], nofun, rfl⟩
  | _ => exact ⟨nofun, by simp, by simp, nofun, nofun, rfl⟩

/-- No task goes back. -/
theorem TaskMoves.goes (h : TaskMoves s.phase id task task' report) :
    task ≠ .released ∧ task ≠ .crashed ∧ task' ≠ .handshaking ∧
      (task' = .serving false → task = .handshaking) := by
  cases h with
  | handshake completed => cases completed <;> simp
  | _ => simp

/-- A task that moves leaves the other connections as they are. -/
theorem getElem?_set_move (htask : s.tasks[id]? = some task) (i : ℕ) :
    (s.tasks.set id task')[i]? = if i = id then some task' else s.tasks[i]? := by
  split_ifs with hi
  · rw [hi, List.getElem?_set_self (List.getElem?_eq_some_iff.mp htask).1]
  · rw [List.getElem?_set_ne (Ne.symm hi)]

/-- **A step of a task keeps the log.** -/
theorem Logged.taskMoves (h : Logged drainTimeout reports s) (htask : s.tasks[id]? = some task)
    (hmoves : TaskMoves s.phase id task task' report) :
    Logged drainTimeout (reports ++ [report]) { s with
      connectionCount := if task' = .released then s.connectionCount - 1 else s.connectionCount
      tasks := s.tasks.set id task' } := by
  obtain ⟨hreleased, hcrashed, hback, hserving⟩ := hmoves.goes
  have hold : ∀ i, i = id → s.tasks[i]? = some task := fun i hi => hi ▸ htask
  refine ⟨fun i => ?_, fun i => ?_, fun i => ?_, fun i hi => ?_, ?_, fun hphase => ?_,
    fun deadline hdeadline => ?_, fun deadline hphase => ?_⟩
  · rw [List.length_set, ← h.accepted, List.mem_append, List.mem_singleton]
    exact or_iff_left (hmoves.reported.not_accepted i)
  · rw [getElem?_set_move htask, List.mem_append, List.mem_singleton, h.released,
      hmoves.reported.released]
    by_cases hi : i = id
    · simp [hi, htask, hreleased]
    · simp [hi]
  · rw [getElem?_set_move htask, List.mem_append, List.mem_singleton, h.crashed,
      hmoves.reported.crashed]
    by_cases hi : i = id
    · simp [hi, htask, hcrashed]
    · simp [hi]
  · rw [getElem?_set_move htask]
    obtain hi | hi := List.mem_append.mp hi
    · obtain ⟨hphase, htold, htold'⟩ := h.told i hi
      by_cases hid : i = id
      · rw [hold i hid] at htold htold'
        rw [if_pos hid]
        exact ⟨hphase, by simpa using hback, fun hto => htold (by
          rw [hserving (Option.some.inj hto)])⟩
      · rw [if_neg hid]
        exact ⟨hphase, htold, htold'⟩
    · obtain ⟨hid, hphase, htask'⟩ := hmoves.reported.told i (List.mem_singleton.mp hi)
      rw [if_pos hid, htask']
      exact ⟨hphase, by simp, by simp⟩
  · have hlt := (List.getElem?_eq_some_iff.mp htask).1
    have hopen : decide (s.tasks[id] ≠ .released) = true := by
      rw [(List.getElem?_eq_some_iff.mp htask).2]
      simpa using hreleased
    have hpos : 1 ≤ s.tasks.countP fun task => task ≠ .released :=
      List.countP_pos_iff.mpr ⟨s.tasks[id], List.getElem_mem hlt, hopen⟩
    rw [List.countP_set hlt, if_pos hopen]
    by_cases hlast : task' = .released
    · rw [if_pos hlast, if_neg (by simp [hlast]), h.count, Nat.add_zero, UInt64.ofNat_sub hpos]
      rfl
    · rw [if_neg hlast, if_pos (by simpa using hlast), h.count, Nat.sub_add_cancel hpos]
  · rw [List.mem_append, List.mem_singleton, not_or]
    exact ⟨h.accepting hphase, hmoves.reported.not_shutdown⟩
  · obtain ⟨since, hsince, heq⟩ := h.deadline deadline hdeadline
    exact ⟨since, List.mem_append_left _ hsince, heq⟩
  · exact (h.counted deadline hphase).concat hmoves.reported.ofTask

/-- A step of the listener that accepts nothing keeps the log. -/
theorem Logged.rephase (h : Logged drainTimeout reports s) {phase : ListenerPhase}
    (hreport : ∀ i, .accepted i ≠ report ∧ .released i ≠ report ∧ .crashed i ≠ report ∧
      .gracefulShutdown i ≠ report)
    (hphase : phase = .accepting → s.phase = .accepting ∧ .shutdown ≠ report)
    (hdeadline : ∀ deadline ∈ phase.deadline?,
      ∃ since, .draining since ∈ reports ++ [report] ∧ deadline = since + drainTimeout * 10 ^ 9)
    (hcounted : ∀ deadline, phase = .counted deadline → JustCounted (reports ++ [report])) :
    Logged drainTimeout (reports ++ [report]) { s with phase } := by
  have hmem : ∀ r, r ≠ report → (r ∈ reports ++ [report] ↔ r ∈ reports) := fun r hr => by
    rw [List.mem_append, List.mem_singleton]
    exact or_iff_left hr
  refine ⟨fun i => ?_, fun i => ?_, fun i => ?_, fun i hi => ?_, h.count, fun hto => ?_, hdeadline,
    hcounted⟩
  · rw [hmem _ (hreport i).1]
    exact h.accepted i
  · rw [hmem _ (hreport i).2.1]
    exact h.released i
  · rw [hmem _ (hreport i).2.2.1]
    exact h.crashed i
  · rw [hmem _ (hreport i).2.2.2] at hi
    obtain ⟨htold, htasks⟩ := h.told i hi
    exact ⟨fun hto => htold (hphase hto).1, htasks⟩
  · obtain ⟨haccepting, hreport⟩ := hphase hto
    rw [hmem _ hreport]
    exact h.accepting haccepting

/-- A connection that is accepted is counted. -/
theorem Logged.accept (h : Logged drainTimeout reports s) (hphase : s.phase = .accepting) :
    Logged drainTimeout (reports ++ [.accepted s.tasks.length]) { s with
      connectionCount := s.connectionCount + 1
      tasks := s.tasks ++ [.handshaking] } := by
  have hget : ∀ (i : ℕ) (task : ConnectionTask), task ≠ .handshaking →
      ((s.tasks ++ [.handshaking])[i]? = some task ↔ s.tasks[i]? = some task) := by
    intro i task htask
    rw [List.getElem?_append]
    split_ifs with hi
    · rfl
    · rw [List.getElem?_eq_none (Nat.le_of_not_lt hi)]
      refine iff_of_false (fun hto => ?_) nofun
      exact htask (List.mem_singleton.mp (List.mem_of_getElem? hto))
  refine ⟨fun i => ?_, fun i => ?_, fun i => ?_, fun i hi => ?_, ?_, fun _ => ?_,
    fun deadline hto => ?_, fun deadline hto => ?_⟩
  · rw [List.mem_append, List.mem_singleton, h.accepted, List.length_append,
      List.length_singleton, ListenerReport.accepted.injEq]
    omega
  · rw [hget i _ (by simp), List.mem_append, List.mem_singleton, h.released]
    exact or_iff_left nofun
  · rw [hget i _ (by simp), List.mem_append, List.mem_singleton, h.crashed]
    exact or_iff_left nofun
  · rw [List.mem_append, List.mem_singleton] at hi
    obtain hi | hi := hi
    · exact absurd hphase (h.told i hi).1
    · cases hi
  · rw [h.count, List.countP_append, UInt64.ofNat_add]
    rfl
  · rw [List.mem_append, List.mem_singleton, not_or]
    exact ⟨h.accepting hphase, nofun⟩
  · dsimp only at hto
    rw [hphase] at hto
    cases hto
  · exact absurd (hphase.symm.trans hto) nofun

/-- **Every step keeps the log.** -/
theorem Logged.step (h : Logged drainTimeout reports s)
    (hstep : (drainMachine drainTimeout).step s event = .ok (s', report)) :
    Logged drainTimeout (reports ++ [report]) s' := by
  have hkept : ∀ {phase phase' deadline}, s.phase = phase → phase.deadline? = some deadline →
      phase'.deadline? = some deadline → ∀ d ∈ ListenerPhase.deadline? phase',
        ∃ since, .draining since ∈ reports ++ [report] ∧ d = since + drainTimeout * 10 ^ 9 := by
    rintro _ phase' deadline rfl hdeadline hsame d hd
    obtain ⟨since, hsince, heq⟩ := h.deadline d (hdeadline.trans (hsame.symm.trans hd))
    exact ⟨since, List.mem_append_left _ hsince, heq⟩
  cases listenerMoves_of_step hstep with
  | accepted hphase => exact h.accept hphase
  | failed => exact h.rephase (by simp) nofun nofun nofun
  | shutdown hphase => exact h.rephase (by simp) nofun nofun nofun
  | draining now hphase =>
    refine h.rephase (by simp) nofun (fun deadline hdeadline => ⟨now, by simp, ?_⟩) nofun
    exact (Option.some.inj hdeadline).symm
  | counted hphase hcount =>
    refine h.rephase (by simp) nofun (hkept hphase rfl rfl) fun _ _ => ⟨reports, [], rfl, ?_⟩
    exact fun r hr => absurd hr List.not_mem_nil
  | waits now hphase hnow => exact h.rephase (by simp) nofun (hkept hphase rfl rfl) nofun
  | forced now hphase hnow => exact h.rephase (by simp) nofun nofun nofun
  | stopped hcount => exact h.rephase (by simp) nofun nofun nofun
  | task htask hmoves => exact h.taskMoves htask hmoves
  | idle =>
    refine h.rephase (by simp) (fun hto => ⟨hto, nofun⟩) (fun deadline hdeadline => ?_)
      fun deadline hphase => (h.counted deadline hphase).concat rfl
    obtain ⟨since, hsince, heq⟩ := h.deadline deadline hdeadline
    exact ⟨since, List.mem_append_left _ hsince, heq⟩

end

/-! ## The drain -/

section

variable {drainTimeout : ℕ} {events : List ListenerEvent} {before after : List ListenerReport}
  {report : ListenerReport} {t : TlsListener}

end

end PqcGateway
