import PqcGateway.Machinery.EntryMap
import PqcGateway.Machinery.Text

/-!
# Proxy/Metrics — what the gateway counts

    calls ──▸ counters by route, method and status ──┬─▸ renderPrometheus
                                                     └─▸ toJson

Requests are counted once in all and once under their key.  After any calls, in whatever order, the
counters are the numbers of calls, as far as a `u64` can tell (`counts_afterCalls`).

* `Counts.recordRequest` — a request is counted, and nothing else is.
-/

namespace PqcGateway

/-! ## The registry -/

structure RequestKey where
  routeId : String
  method : String
  status : UInt16
deriving DecidableEq, Repr

/-- `MetricsInner`; the atomic counters wrap around. -/
structure GatewayMetrics where
  requestCounters : EntryMap RequestKey UInt64
  upstreamFailures : UInt64
  rateLimitRejections : UInt64
  circuitBreakerRejections : UInt64
  authFailures : UInt64
  totalRequests : UInt64
  activeConnections : UInt64
  durationBuckets : EntryMap String (List UInt64)
  ready : Bool

namespace GatewayMetrics

def new : GatewayMetrics where
  requestCounters := .new
  upstreamFailures := 0
  rateLimitRejections := 0
  circuitBreakerRejections := 0
  authFailures := 0
  totalRequests := 0
  activeConnections := 0
  durationBuckets := .new
  ready := true

def recordRequest (m : GatewayMetrics) (routeId method : String) (status : UInt16)
    (durationMs : UInt64) : GatewayMetrics :=
  let key : RequestKey := ⟨routeId, method, status⟩
  { m with
    totalRequests := m.totalRequests + 1
    requestCounters := m.requestCounters.insert key ((m.requestCounters.get key).getD 0 + 1)
    durationBuckets := m.durationBuckets.insert routeId
      ((m.durationBuckets.get routeId).getD [] ++ [durationMs]) }

def recordUpstreamFailure (m : GatewayMetrics) : GatewayMetrics :=
  { m with upstreamFailures := m.upstreamFailures + 1 }

def recordRateLimitRejection (m : GatewayMetrics) : GatewayMetrics :=
  { m with rateLimitRejections := m.rateLimitRejections + 1 }

def recordCircuitBreakerRejection (m : GatewayMetrics) : GatewayMetrics :=
  { m with circuitBreakerRejections := m.circuitBreakerRejections + 1 }

def recordAuthFailure (m : GatewayMetrics) : GatewayMetrics :=
  { m with authFailures := m.authFailures + 1 }

def incActiveConnections (m : GatewayMetrics) : GatewayMetrics :=
  { m with activeConnections := m.activeConnections + 1 }

def decActiveConnections (m : GatewayMetrics) : GatewayMetrics :=
  { m with activeConnections := m.activeConnections - 1 }

def setReady (m : GatewayMetrics) (ready : Bool) : GatewayMetrics := { m with ready }

end GatewayMetrics

/-! ## The exports -/

/-- The metric `name` of one value, with its help and its type. -/
def renderMetric (name help kind : String) (value : UInt64) : String :=
  "# HELP " ++ name ++ " " ++ help ++ "\n" ++
  "# TYPE " ++ name ++ " " ++ kind ++ "\n" ++
  name ++ " " ++ toString value.toNat ++ "\n"

/-- One line of `gateway_requests_total`. -/
def renderCounter (k : RequestKey) (v : UInt64) : String :=
  "gateway_requests_total\x7broute=\"" ++ k.routeId ++ "\",method=\"" ++ k.method ++
  "\",status=\"" ++ toString k.status.toNat ++ "\"\x7d " ++ toString v.toNat ++ "\n"

/-- The name of a counter in `routes`. -/
def RequestKey.dotted (k : RequestKey) : String :=
  k.routeId ++ "." ++ k.method ++ "." ++ toString k.status.toNat

/-- The object of `to_json`. -/
structure MetricsSummary where
  totalRequests : UInt64
  upstreamFailures : UInt64
  rateLimitRejections : UInt64
  circuitBreakerRejections : UInt64
  authFailures : UInt64
  activeConnections : UInt64
  ready : Bool
  routes : EntryMap String UInt64

namespace GatewayMetrics

/-- Render Prometheus text exposition format. -/
def renderPrometheus (order : WalkOrder RequestKey UInt64) (m : GatewayMetrics) : String :=
  "# HELP gateway_requests_total Total requests proxied.\n" ++
  "# TYPE gateway_requests_total counter\n" ++
  String.join ((m.requestCounters.iter order).map fun (k, v) => renderCounter k v) ++
  renderMetric "gateway_upstream_failures_total" "Total upstream failures." "counter"
    m.upstreamFailures ++
  renderMetric "gateway_rate_limit_rejections_total" "Total rate limit rejections." "counter"
    m.rateLimitRejections ++
  renderMetric "gateway_circuit_breaker_rejections_total" "Total circuit breaker rejections."
    "counter" m.circuitBreakerRejections ++
  renderMetric "gateway_auth_failures_total" "Total authentication failures." "counter"
    m.authFailures ++
  renderMetric "gateway_active_connections" "Current active connections." "gauge"
    m.activeConnections

/-- A JSON summary; an object keeps the last value that is inserted under a name. -/
def toJson (order : WalkOrder RequestKey UInt64) (m : GatewayMetrics) : MetricsSummary where
  totalRequests := m.totalRequests
  upstreamFailures := m.upstreamFailures
  rateLimitRejections := m.rateLimitRejections
  circuitBreakerRejections := m.circuitBreakerRejections
  authFailures := m.authFailures
  activeConnections := m.activeConnections
  ready := m.ready
  routes := (m.requestCounters.iter order).foldl
    (fun routeStats (k, v) => routeStats.insert k.dotted v) .new

end GatewayMetrics

/-! ## Runs

Whatever the order of the calls, only how many there were of each kind is left in the counters. -/

/-- A call that changes the metrics. -/
inductive MetricsCall
  | recordRequest (routeId method : String) (status : UInt16) (durationMs : UInt64)
  | recordUpstreamFailure
  | recordRateLimitRejection
  | recordCircuitBreakerRejection
  | recordAuthFailure
  | incActiveConnections
  | decActiveConnections
  | setReady (ready : Bool)
deriving DecidableEq, Repr

def GatewayMetrics.call (m : GatewayMetrics) : MetricsCall → GatewayMetrics
  | .recordRequest routeId method status durationMs =>
    m.recordRequest routeId method status durationMs
  | .recordUpstreamFailure => m.recordUpstreamFailure
  | .recordRateLimitRejection => m.recordRateLimitRejection
  | .recordCircuitBreakerRejection => m.recordCircuitBreakerRejection
  | .recordAuthFailure => m.recordAuthFailure
  | .incActiveConnections => m.incActiveConnections
  | .decActiveConnections => m.decActiveConnections
  | .setReady ready => m.setReady ready

/-- The metrics after calls, from the start on. -/
def afterCalls (calls : List MetricsCall) : GatewayMetrics :=
  calls.foldl GatewayMetrics.call .new

/-- What a call counts a request under. -/
def MetricsCall.key : MetricsCall → Option RequestKey
  | .recordRequest routeId method status _ => some ⟨routeId, method, status⟩
  | _ => none

/-- The requests that the calls record. -/
def recordedKeys (calls : List MetricsCall) : List RequestKey := calls.filterMap MetricsCall.key

/-- The metrics count these requests. -/
structure Counts (keys : List RequestKey) (m : GatewayMetrics) : Prop where
  total : m.totalRequests = UInt64.ofNat keys.length
  counter : ∀ key, m.requestCounters.get key =
    if key ∈ keys then some (UInt64.ofNat (keys.count key)) else none

theorem counts_new : Counts [] .new := ⟨rfl, fun _ => rfl⟩

/-- A request is counted, and nothing else is. -/
theorem Counts.recordRequest {keys : List RequestKey} {m : GatewayMetrics} (h : Counts keys m)
    (routeId method : String) (status : UInt16) (durationMs : UInt64) :
    Counts (keys ++ [⟨routeId, method, status⟩])
      (m.recordRequest routeId method status durationMs) where
  total := by
    rw [GatewayMetrics.recordRequest, h.total, List.length_append, List.length_singleton,
      UInt64.ofNat_add]
    rfl
  counter key := by
    by_cases hkey : key = ⟨routeId, method, status⟩
    · subst hkey
      have hold : (m.requestCounters.get ⟨routeId, method, status⟩).getD 0
          = UInt64.ofNat (keys.count ⟨routeId, method, status⟩) := by
        rw [h.counter]
        split_ifs with hmem
        · rfl
        · rw [List.count_eq_zero_of_not_mem hmem]
          rfl
      rw [GatewayMetrics.recordRequest, if_pos (by simp)]
      refine (EntryMap.get_insert_self _ _ _).trans ?_
      rw [hold, List.count_append, List.count_singleton_self, UInt64.ofNat_add]
      rfl
    · have hcount : (keys ++ [(⟨routeId, method, status⟩ : RequestKey)]).count key
          = keys.count key := by
        rw [List.count_append, List.count_singleton, if_neg (by simpa using Ne.symm hkey),
          Nat.add_zero]
      rw [GatewayMetrics.recordRequest, hcount]
      refine (EntryMap.get_insert_of_ne m.requestCounters hkey _).trans ((h.counter key).trans ?_)
      simp [hkey]

theorem Counts.call {keys : List RequestKey} {m : GatewayMetrics} (h : Counts keys m)
    (c : MetricsCall) : Counts (keys ++ c.key.toList) (m.call c) := by
  cases c with
  | recordRequest routeId method status durationMs =>
    exact h.recordRequest routeId method status durationMs
  | _ => exact (List.append_nil keys).symm ▸ ⟨h.total, h.counter⟩

/-- **The counters are the numbers of calls.** -/
theorem counts_afterCalls (calls : List MetricsCall) :
    Counts (recordedKeys calls) (afterCalls calls) := by
  have hrun : ∀ keys m, Counts keys m →
      Counts (keys ++ recordedKeys calls) (calls.foldl GatewayMetrics.call m) := by
    induction calls with
    | nil =>
      intro keys m h
      rwa [recordedKeys, List.filterMap_nil, List.append_nil]
    | cons c calls ih =>
      intro keys m h
      have hrecorded : recordedKeys (c :: calls) = c.key.toList ++ recordedKeys calls := by
        cases hkey : c.key <;> simp [recordedKeys, hkey]
      rw [hrecorded, ← List.append_assoc]
      exact ih _ _ (h.call c)
  exact hrun [] .new counts_new

end PqcGateway
