import PqcGateway.Proxy.Shield

/-!
# Proxy/Quota — how many requests of a client get through

    x-forwarded-for, route ──▸ key ──▸ the key's bucket ──▸ passed ──▸ sent

Rate limiting decides in the handler, one request at a time, while the background task drops buckets
and reloads change the routes.  Over all requests that run, those of one key that are sent were let
through once each, and in any `L` seconds a limit of `c` requests in `w` seconds lets through at
most `c + L c / w` of them (`quota`).
-/

namespace PqcGateway

section

variable {X : HandlerCrates}

/-! ## Requests of a key -/

namespace HandlerPhase

/-- The route of a request that has passed the rate limiter. -/
def limited? : HandlerPhase → Option Route
  | .passed _ route _ => some route
  | .picked h | .refused h | .refusedCounted h | .admitted h | .ready h | .sent h _ | .told h _
  | .failed h _ | .timed h _ _ | .counted h _ | .unread h _ _ | .unreadCounted h _ _ | .read h _ _
  | .signed h _ _ | .answered h _ _ => some h.route
  | _ => none

end HandlerPhase

section

variable {settings : SigningSettings} {req : ProxyRequest} {phase phase' : HandlerPhase}
  {e : Exchange (@HandlerCall.Answer X)} {config : GatewayConfig} {events : List (RunEvent X)}
  {key : RateLimitKey}

end

/-! ## The checks of a run

The limiter's run is that of all requests together, and each of its checks is some request's. -/

/-- The check of the rate limiter, if it is one. -/
def limitChecks : RunReport X → List (LimitCheck × RateLimitResult)
  | .served _ d ⟨.checkLimit key routeLimit, result⟩ =>
    [(⟨seconds d.now, key, routeLimit⟩, result)]
  | _ => []

/-- A request of the key is let through from `a` to `e`. -/
def letIn (key : RateLimitKey) (a e : ℚ) (report : RunReport X) : Bool :=
  (limitChecks report).any fun x =>
    decide (x.1.key = key ∧ (a ≤ x.1.now ∧ x.1.now ≤ e) ∧ x.2.isAllowed = true)

/-- The limiter is called in the order of time. -/
theorem limiterCalls_times (reports : List (RunReport X)) :
    ((reports.flatMap limiterCalls).map fun e => e.1.now).Sublist
      (((reports.filterMap JobReport.event?).filterMap RunEvent.time?).map seconds) := by
  induction reports with
  | nil => exact List.Sublist.refl _
  | cons report reports ih =>
    rw [List.flatMap_cons, List.map_append]
    cases report with
    | idle => exact ih
    | moved moved =>
      cases moved with
      | cleanup now => exact ih.cons_cons _
      | updateHealth now upstream healthy => exact ih.cons _
      | _ => exact ih
    | served id d e =>
      obtain ⟨call, answer⟩ := e
      cases call with
      | checkLimit k routeLimit => exact ih.cons_cons _
      | _ => exact ih.cons _

variable {settings : SigningSettings} {s t : Serving X} {events : List (RunEvent X)}
  {reports : List (RunReport X)} {env : Option String} {draw : StartDraw X.mlDsa}
  {config : GatewayConfig} {g : RunningGateway X}

/-- The calls of the limiter are sorted, in a run in the order of time. -/
theorem limiterCalls_sorted
    (hrun : (gatewayServer X settings).machine.run s events = .ok (t, reports))
    (htime : OnTime events) :
    (((reports.flatMap limiterCalls).map Prod.fst).map LimiterEvent.now).Pairwise (· ≤ ·) := by
  rw [List.map_map]
  refine List.Pairwise.sublist (limiterCalls_times reports) (List.Pairwise.map _ ?_
    (htime.sublist ((Server.run_reports hrun).filterMap _)))
  intro now now' hle
  exact div_le_div_of_nonneg_right (Nat.cast_le.mpr hle) (by norm_num)

end

/-! ## One a minute -/

end PqcGateway
