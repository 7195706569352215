import PqcGateway.Proxy.Quota

/-!
# Proxy/Memory — the clients that the rate limiter remembers

A client names itself, by `x-forwarded-for`, so the keys of the rate limiter are as many as clients
care to make up.  What keeps them in bounds is the background task: a key is remembered exactly if
it was checked within the age of eviction of every cleanup (`limiter_memory`), so there are never
more keys than requests were checked since then.

* `run_tracking` — what the limiter remembers after any checks and cleanups.
-/

namespace PqcGateway

/-- Number of tracked keys. -/
def RateLimiter.keyCount (limiter : RateLimiter) : ℕ := limiter.buckets.len

/-! ## Buckets and their age

A check makes a key's bucket young, and a cleanup drops those that are old. -/

/-- The key was checked at this time. -/
def CheckedAt (events : List LimiterEvent) (key : RateLimitKey) (time : ℚ) : Prop :=
  ∃ call, .check call ∈ events ∧ call.key = key ∧ call.now = time

/-- No cleanup came the age of eviction after this time, or later. -/
def Survives (events : List LimiterEvent) (time : ℚ) : Prop :=
  ∀ now, .cleanup now ∈ events → now < time + cleanupAge

/-- What the limiter remembers of the events. -/
structure Tracking (events : List LimiterEvent) (limiter : RateLimiter) : Prop where
  last : ∀ key bucket, limiter.buckets.get key = some bucket →
    CheckedAt events key bucket.lastRefill ∧
      ∀ time, CheckedAt events key time → time ≤ bucket.lastRefill
  tracked : ∀ key, (limiter.buckets.get key).isSome = true ↔
    ∃ time, CheckedAt events key time ∧ Survives events time

section

variable {events : List LimiterEvent} {key : RateLimitKey} {time : ℚ} {limiter : RateLimiter}

theorem checkedAt_check_iff {call : LimitCheck} :
    CheckedAt (events ++ [.check call]) key time ↔
      CheckedAt events key time ∨ call.key = key ∧ call.now = time := by
  simp only [CheckedAt, List.mem_append, List.mem_singleton, LimiterEvent.check.injEq, or_and_right,
    exists_or, exists_eq_left]

theorem checkedAt_cleanup_iff {now : ℚ} :
    CheckedAt (events ++ [.cleanup now]) key time ↔ CheckedAt events key time := by
  simp [CheckedAt]

theorem survives_check_iff {call : LimitCheck} :
    Survives (events ++ [.check call]) time ↔ Survives events time := by
  simp [Survives]

theorem survives_cleanup_iff {now : ℚ} :
    Survives (events ++ [.cleanup now]) time ↔ Survives events time ∧ now < time + cleanupAge := by
  simp only [Survives, List.mem_append, List.mem_singleton, LimiterEvent.cleanup.injEq, or_imp,
    forall_and, forall_eq]

theorem Survives.mono {time' : ℚ} (h : Survives events time) (hle : time ≤ time') :
    Survives events time' := fun now hnow =>
  (h now hnow).trans_le (add_le_add_left hle cleanupAge)

/-- A check is remembered. -/
theorem Tracking.check (h : Tracking events limiter) {call : LimitCheck}
    (hlast : ∀ event ∈ events, event.now ≤ call.now) :
    Tracking (events ++ [.check call]) (limiter.check call.now call.key call.routeLimit).1 := by
  have hself : (limiter.check call.now call.key call.routeLimit).1.buckets.get call.key
      = some ((limiter.entry call.now call.key call.routeLimit).tryConsume call.now).1 :=
    EntryMap.get_insert_self ..
  have hother : ∀ key ≠ call.key,
      (limiter.check call.now call.key call.routeLimit).1.buckets.get key
        = limiter.buckets.get key := fun key hkey => EntryMap.get_insert_of_ne _ hkey _
  have hrefilled : ((limiter.entry call.now call.key call.routeLimit).tryConsume
      call.now).1.lastRefill = call.now := by
    dsimp only [Bucket.tryConsume]
    split <;> rfl
  constructor
  · intro key bucket hget
    by_cases hkey : key = call.key
    · subst hkey
      obtain rfl := Option.some.inj (hself.symm.trans hget)
      rw [hrefilled]
      refine ⟨checkedAt_check_iff.mpr (.inr ⟨rfl, rfl⟩), fun time hchecked => ?_⟩
      obtain ⟨earlier, hmem, -, rfl⟩ | ⟨-, rfl⟩ := checkedAt_check_iff.mp hchecked
      · exact hlast _ hmem
      · exact le_rfl
    · obtain ⟨hchecked, hle⟩ := h.last key bucket ((hother key hkey).symm.trans hget)
      refine ⟨checkedAt_check_iff.mpr (.inl hchecked), fun time htime => hle time ?_⟩
      exact (checkedAt_check_iff.mp htime).resolve_right fun hnew => hkey hnew.1.symm
  · intro key
    by_cases hkey : key = call.key
    · subst hkey
      rw [hself]
      refine iff_of_true rfl ⟨call.now, checkedAt_check_iff.mpr (.inr ⟨rfl, rfl⟩),
        survives_check_iff.mpr fun now hnow => ?_⟩
      have hle : now ≤ call.now := hlast _ hnow
      rw [cleanupAge]
      linarith
    · rw [hother key hkey, h.tracked key]
      refine exists_congr fun time => and_congr ?_ survives_check_iff.symm
      exact (or_iff_left fun hnew => hkey hnew.1.symm).symm.trans checkedAt_check_iff.symm

/-- A cleanup forgets the keys that nothing has asked for. -/
theorem Tracking.cleanup (h : Tracking events limiter) {now : ℚ}
    (hlast : ∀ event ∈ events, event.now ≤ now) :
    Tracking (events ++ [.cleanup now]) (limiter.cleanup now cleanupAge) := by
  have hget : ∀ key, (limiter.cleanup now cleanupAge).buckets.get key
      = (limiter.buckets.get key).filter fun bucket =>
        max (now - bucket.lastRefill) 0 < cleanupAge := fun key => EntryMap.get_retain _ _ key
  have hage : ∀ key bucket, limiter.buckets.get key = some bucket →
      (max (now - bucket.lastRefill) 0 < cleanupAge ↔ now < bucket.lastRefill + cleanupAge) := by
    intro key bucket hbucket
    obtain ⟨⟨call, hmem, -, hcall⟩, -⟩ := h.last key bucket hbucket
    rw [max_eq_left (sub_nonneg.mpr (hcall ▸ hlast _ hmem)), sub_lt_iff_lt_add']
  constructor
  · intro key bucket hkept
    rw [hget, Option.filter_eq_some_iff] at hkept
    obtain ⟨hchecked, hle⟩ := h.last key bucket hkept.1
    exact ⟨checkedAt_cleanup_iff.mpr hchecked,
      fun time htime => hle time (checkedAt_cleanup_iff.mp htime)⟩
  · intro key
    simp only [checkedAt_cleanup_iff, survives_cleanup_iff]
    rw [hget]
    cases hbucket : limiter.buckets.get key with
    | none =>
      refine iff_of_false (by simp) ?_
      rintro ⟨time, hchecked, hsurvives, -⟩
      have hheld := (h.tracked key).mpr ⟨time, hchecked, hsurvives⟩
      rw [hbucket] at hheld
      cases hheld
    | some bucket =>
      obtain ⟨hchecked, hle⟩ := h.last key bucket hbucket
      rw [Option.filter_some, Option.isSome_ite, decide_eq_true_iff, hage key bucket hbucket]
      constructor
      · intro hnow
        obtain ⟨time, htime, hsurvives⟩ := (h.tracked key).mp (by rw [hbucket]; rfl)
        exact ⟨bucket.lastRefill, hchecked, hsurvives.mono (hle time htime), hnow⟩
      · rintro ⟨time, htime, -, hnow⟩
        exact hnow.trans_le (add_le_add_left (hle time htime) cleanupAge)

/-- **What the limiter remembers**, after any run in the order of time. -/
theorem run_tracking {c w : ℕ} {answers : List (Option RateLimitResult)}
    (hsorted : (events.map LimiterEvent.now).Pairwise (· ≤ ·))
    (hrun : cleanedMachine.run (.new c w) events = .ok (limiter, answers)) :
    Tracking events limiter := by
  induction events using List.reverseRecOn generalizing limiter answers with
  | nil =>
    obtain ⟨rfl, -⟩ := Prod.mk.inj (Except.ok.inj hrun)
    constructor
    · intro key bucket hget
      cases hget
    · intro key
      refine iff_of_false (fun hheld => by cases hheld) ?_
      rintro ⟨time, ⟨call, hmem, -⟩, -⟩
      exact absurd hmem List.not_mem_nil
  | append_singleton events event ih =>
    rw [List.map_append, List.map_singleton, List.pairwise_append] at hsorted
    obtain ⟨hpast, -, hlast⟩ := hsorted
    obtain ⟨middle, answers₁, answers₂, hbefore, hstep, -⟩ :=
      cleanedMachine.run_append_eq_ok.mp hrun
    obtain ⟨limiter', answer, answers₃, hstep, hnil, -⟩ := cleanedMachine.run_cons_eq_ok.mp hstep
    obtain ⟨rfl, -⟩ := Prod.mk.inj (Except.ok.inj hnil)
    have htracking := ih hpast hbefore
    have hle : ∀ earlier ∈ events, earlier.now ≤ event.now := fun earlier hmem =>
      hlast _ (List.mem_map_of_mem hmem) _ (List.mem_singleton_self _)
    cases event with
    | check call =>
      obtain ⟨rfl, -⟩ := Prod.mk.inj (Except.ok.inj hstep)
      exact htracking.check hle
    | cleanup now =>
      obtain ⟨rfl, -⟩ := Prod.mk.inj (Except.ok.inj hstep)
      exact htracking.cleanup hle

end

/-! ## The gateway's limiter -/

section

variable {X : HandlerCrates}

/-- The key that is checked after this time, if one is. -/
def keySince? (since : ℚ) : RunReport X → Option RateLimitKey
  | .served _ d ⟨.checkLimit key _, _⟩ => if since < seconds d.now then some key else none
  | _ => none

theorem mem_limiterCalls_check {reports : List (RunReport X)} {call : LimitCheck} :
    .check call ∈ (reports.flatMap limiterCalls).map Prod.fst ↔
      ∃ id d routeLimit result, call = ⟨seconds d.now, call.key, routeLimit⟩ ∧
        .served id d ⟨.checkLimit call.key routeLimit, result⟩ ∈ reports := by
  rw [List.map_flatMap, List.mem_flatMap]
  constructor
  · rintro ⟨report, hreport, hmem⟩
    cases report with
    | idle => exact absurd hmem List.not_mem_nil
    | moved moved =>
      cases moved with
      | cleanup now => cases List.mem_singleton.mp hmem
      | _ => exact absurd hmem List.not_mem_nil
    | served id d e =>
      obtain ⟨handlerCall, answer⟩ := e
      cases handlerCall with
      | checkLimit key routeLimit =>
        obtain rfl := LimiterEvent.check.inj (List.mem_singleton.mp hmem)
        exact ⟨id, d, routeLimit, answer, rfl, hreport⟩
      | _ => exact absurd hmem List.not_mem_nil
  · rintro ⟨id, d, routeLimit, result, hcall, hreport⟩
    exact ⟨_, hreport, List.mem_singleton.mpr (congrArg LimiterEvent.check hcall)⟩

theorem mem_limiterCalls_cleanup {reports : List (RunReport X)} {time : ℚ} :
    .cleanup time ∈ (reports.flatMap limiterCalls).map Prod.fst ↔
      ∃ now, time = seconds now ∧ .moved (.cleanup now) ∈ reports := by
  rw [List.map_flatMap, List.mem_flatMap]
  constructor
  · rintro ⟨report, hreport, hmem⟩
    cases report with
    | idle => exact absurd hmem List.not_mem_nil
    | moved moved =>
      cases moved with
      | cleanup now => exact ⟨now, LimiterEvent.cleanup.inj (List.mem_singleton.mp hmem), hreport⟩
      | _ => exact absurd hmem List.not_mem_nil
    | served id d e =>
      obtain ⟨handlerCall, answer⟩ := e
      cases handlerCall with
      | checkLimit key routeLimit => cases List.mem_singleton.mp hmem
      | _ => exact absurd hmem List.not_mem_nil
  · rintro ⟨now, rfl, hreport⟩
    exact ⟨_, hreport, List.mem_singleton_self _⟩

/-- The keys that the limiter remembers of the requests' checks and of the cleanups. -/
theorem Tracking.tracked_iff {reports : List (RunReport X)} {limiter : RateLimiter}
    (h : Tracking ((reports.flatMap limiterCalls).map Prod.fst) limiter) (key : RateLimitKey) :
    (limiter.buckets.get key).isSome = true ↔
      ∃ id d routeLimit result, .served id d ⟨.checkLimit key routeLimit, result⟩ ∈ reports ∧
        ∀ now, .moved (.cleanup now) ∈ reports → seconds now < seconds d.now + cleanupAge := by
  rw [h.tracked key]
  constructor
  · rintro ⟨time, ⟨call, hcall, rfl, rfl⟩, hsurvives⟩
    obtain ⟨id, d, routeLimit, result, heq, hreport⟩ := mem_limiterCalls_check.mp hcall
    refine ⟨id, d, routeLimit, result, hreport, fun now hnow => ?_⟩
    have hlt := hsurvives _ (mem_limiterCalls_cleanup.mpr ⟨now, rfl, hnow⟩)
    rwa [heq] at hlt
  · rintro ⟨id, d, routeLimit, result, hreport, hcleanups⟩
    refine ⟨seconds d.now, ⟨⟨seconds d.now, key, routeLimit⟩,
      mem_limiterCalls_check.mpr ⟨id, d, routeLimit, result, rfl, hreport⟩, rfl, rfl⟩, ?_⟩
    intro time htime
    obtain ⟨now, rfl, hnow⟩ := mem_limiterCalls_cleanup.mp htime
    exact hcleanups now hnow

variable {settings : SigningSettings} {t : Serving X} {events : List (RunEvent X)}
  {reports : List (RunReport X)} {env : Option String} {draw : StartDraw X.mlDsa}
  {config : GatewayConfig} {g : RunningGateway X}

/-- **The rate limiter remembers** exactly the keys that were checked within the age of eviction of
every cleanup; after a cleanup they are no more than the checks of that age. -/
theorem limiter_memory (hlaunch : Launched X env draw config g)
    (hrun : (gatewayServer X settings).machine.run (Server.start g) events = .ok (t, reports))
    (htime : OnTime events) :
    (∀ key, (t.shared.rateLimiter.buckets.get key).isSome = true ↔
      ∃ id d routeLimit result, .served id d ⟨.checkLimit key routeLimit, result⟩ ∈ reports ∧
        ∀ now, .moved (.cleanup now) ∈ reports → seconds now < seconds d.now + cleanupAge) ∧
    ∀ now, .moved (.cleanup now) ∈ reports → t.shared.rateLimiter.keyCount
      ≤ reports.countP fun report => (keySince? (seconds now - cleanupAge) report).isSome := by
  obtain ⟨keys, -, hstate⟩ := ProxyState.new_eq_ok.mp hlaunch.state
  have hlimiter : g.rateLimiter
      = .new config.rateLimit.defaultRequests config.rateLimit.defaultWindowSeconds :=
    congrArg ProxyState.rateLimiter hstate
  have hcleaned := run_limiter hrun
  rw [show (Server.start g : Serving X).shared.rateLimiter = _ from hlimiter] at hcleaned
  have htracking := run_tracking (limiterCalls_sorted hrun htime) hcleaned
  refine ⟨htracking.tracked_iff, fun now hnow => ?_⟩
  have hsubset : t.shared.rateLimiter.buckets.pairs.map Prod.fst
      ⊆ reports.filterMap (keySince? (seconds now - cleanupAge)) := by
    intro key hkey
    obtain ⟨⟨key, bucket⟩, hmem, rfl⟩ := List.mem_map.mp hkey
    have hget : t.shared.rateLimiter.buckets.get key = some bucket :=
      EntryMap.Holds.get_eq_some (.refl _) |>.mpr hmem
    obtain ⟨id, d, routeLimit, result, hreport, hcleanups⟩ :=
      (htracking.tracked_iff key).mp (by rw [hget]; rfl)
    exact List.mem_filterMap.mpr
      ⟨_, hreport, if_pos (sub_lt_iff_lt_add.mpr (hcleanups now hnow))⟩
  calc t.shared.rateLimiter.keyCount
      = (t.shared.rateLimiter.buckets.pairs.map Prod.fst).length := by
        rw [List.length_map]
        exact EntryMap.Holds.len (.refl _)
    _ ≤ (reports.filterMap (keySince? (seconds now - cleanupAge))).length :=
        (List.subperm_of_subset (EntryMap.nodup_map_fst_pairs _) hsubset).length_le
    _ = _ := List.length_filterMap_eq_countP

end

/-! ## Two clients ten minutes apart -/

/-- A request that another client is behind. -/
def namedRequest : ProxyRequest :=
  { rootRequest with headers := EntryMap.new.insert "x-forwarded-for" ["10.0.0.1"] }

/-- The upstream does not answer, ten minutes later. -/
def timesOutLater : Delivery := { timesOut with now := 600000000000 }

/-- A request is checked at once and another ten minutes later, and then the limiter is cleaned. -/
def apartRequests : List (RunEvent (plainHandler plainTls)) :=
  [.start rootRequest, .advance 0 timesOut, .advance 0 timesOut, .advance 0 timesOut,
    .start namedRequest, .advance 1 timesOutLater, .advance 1 timesOutLater,
    .advance 1 timesOutLater, .move (.cleanup 600000000000)]

/-- What the two requests do until they are checked. -/
def apartReports (result result' : RateLimitResult) : List (RunReport (plainHandler plainTls)) :=
  [.idle, .served 0 timesOut ⟨.loadConfig, guardedConfig "http://a"⟩,
    .served 0 timesOut ⟨.loadMatcher, servingMatcher⟩,
    .served 0 timesOut ⟨.checkLimit ⟨"all", "unknown"⟩ none, result⟩, .idle,
    .served 1 timesOutLater ⟨.loadConfig, guardedConfig "http://a"⟩,
    .served 1 timesOutLater ⟨.loadMatcher, servingMatcher⟩,
    .served 1 timesOutLater ⟨.checkLimit ⟨"all", "10.0.0.1"⟩ none, result'⟩,
    .moved (.cleanup 600000000000)]

/-- Of the two the later one alone is remembered. -/
theorem limiter_memory_apart : ∃ g t reports,
    Launched (plainHandler plainTls) none plainStart (guardedConfig "http://a") g ∧
    (gatewayServer (plainHandler plainTls) ⟨none, .classical⟩).machine.run (Server.start g)
      apartRequests = .ok (t, reports) ∧
    (t.shared.rateLimiter.buckets.get ⟨"all", "10.0.0.1"⟩).isSome = true ∧
    t.shared.rateLimiter.keyCount ≤ 1 := by
  obtain ⟨keys, hlaunch⟩ := exists_serving (guardedConfig "http://a") rfl rfl
  have hrun : ∃ t result result',
      (gatewayServer (plainHandler plainTls) ⟨none, .classical⟩).machine.run
        (Server.start (servingGateway (guardedConfig "http://a") keys)) apartRequests
          = .ok (t, apartReports result result') := ⟨_, _, _, rfl⟩
  obtain ⟨t, result, result', hrun⟩ := hrun
  have htimes : apartRequests.filterMap RunEvent.time?
      = [0, 0, 0, 600000000000, 600000000000, 600000000000, 600000000000] := rfl
  obtain ⟨htracked, hbound⟩ := limiter_memory hlaunch hrun (by rw [OnTime, htimes]; decide)
  refine ⟨_, t, _, hlaunch, hrun, (htracked _).mpr ⟨1, timesOutLater, none, result', ?_,
    fun now hnow => ?_⟩, ?_⟩
  · simp [apartReports]
  · obtain rfl : now = 600000000000 := by simpa [apartReports] using hnow
    norm_num [timesOutLater, cleanupAge]
  · have hlast := hbound 600000000000 (by simp [apartReports])
    have hearly : ¬ seconds 600000000000 - cleanupAge < seconds timesOut.now := by
      norm_num [seconds, timesOut, cleanupAge]
    have hlate : seconds 600000000000 - cleanupAge < seconds timesOutLater.now := by
      norm_num [seconds, timesOutLater, cleanupAge]
    simpa [apartReports, List.countP_cons, keySince?, hearly, hlate] using hlast

end PqcGateway
