import PqcGateway.Machinery.PlainText
import PqcGateway.Proxy.Metrics
import Mathlib.Algebra.BigOperators.Group.List.Lemmas

/-!
# Proxy/MetricsExport — what the exports keep of the requests

Both exports flatten the key of a counter into one text: `renderPrometheus` puts the route and the
method between quotes as they are, and `toJson` joins the parts with dots.  So the text loses
requests if there was something to escape (`samplesKept_iff`), and the object does if two keys have
the same dotted name (`losesNoRequest_iff`).

* `routesSum_add_overwrittenCalls` — what the object keeps and what is overwritten are all requests.
* `names_collide` — two routes of one dotted name, and a route with a quote in its name.
-/

namespace PqcGateway

open Exposition

/-! ## What is exported -/

/-- The sample of a counter. -/
def RequestKey.sample (k : RequestKey) (n : ℕ) : Sample ℕ where
  name := "gateway_requests_total"
  labels := [("route", k.routeId), ("method", k.method), ("status", toString k.status.toNat)]
  value := n

/-- The values in `routes`, added up. -/
def MetricsSummary.routesSum (s : MetricsSummary) : ℕ :=
  (s.routes.pairs.map fun e => e.2.toNat).sum

/-- **The text keeps the requests**: it can be read, and has one sample for each key with the number
of its requests. -/
def SamplesKept (order : WalkOrder RequestKey UInt64) (calls : List MetricsCall) : Prop :=
  ∃ samples,
    readText Text.parseU64 ((afterCalls calls).renderPrometheus order) = some samples ∧
    (samples.filter fun s => s.name = "gateway_requests_total").Perm
      ((recordedKeys calls).dedup.map fun k => k.sample ((recordedKeys calls).count k))

/-- **The exports lose no request**: the values in `routes` add up to `total_requests`, and the text
keeps the requests. -/
structure LosesNoRequest (jsonOrder textOrder : WalkOrder RequestKey UInt64)
    (calls : List MetricsCall) : Prop where
  routes : ((afterCalls calls).toJson jsonOrder).routesSum
    = ((afterCalls calls).toJson jsonOrder).totalRequests.toNat
  samples : SamplesKept textOrder calls

/-! ## The counters -/

section

variable {keys : List RequestKey} {m : GatewayMetrics}

/-- **One counter for each key.** -/
theorem Counts.holds (h : Counts keys m) :
    m.requestCounters.Holds (keys.dedup.map fun k => (k, UInt64.ofNat (keys.count k))) := by
  have hinj : Function.Injective fun k => (k, UInt64.ofNat (keys.count k)) :=
    fun _ _ hk => (Prod.mk.inj hk).1
  refine (List.perm_ext_iff_of_nodup m.requestCounters.nodup_map_fst_pairs.of_map
    (keys.nodup_dedup.map hinj)).mpr ?_
  rintro ⟨k, v⟩
  have hself : m.requestCounters.Holds m.requestCounters.pairs := .refl _
  rw [← hself.get_eq_some, h.counter, List.mem_map]
  constructor
  · intro hv
    split_ifs at hv with hk
    exact ⟨k, List.mem_dedup.mpr hk, Prod.ext rfl (Option.some.inj hv)⟩
  · rintro ⟨k', hk', heq⟩
    obtain ⟨rfl, rfl⟩ := Prod.mk.inj heq
    rw [if_pos (List.mem_dedup.mp hk')]

theorem Counts.iter (h : Counts keys m) (order : WalkOrder RequestKey UInt64) :
    (m.requestCounters.iter order).Perm
      (keys.dedup.map fun k => (k, UInt64.ofNat (keys.count k))) := h.holds.iter order

/-! ## The text

A label is written between quotes as it is, so a quote in it ends it. -/

/-- The samples of the counters. -/
def counterSamples (order : WalkOrder RequestKey UInt64) (m : GatewayMetrics) : List (Sample ℕ) :=
  (m.requestCounters.iter order).map fun e => e.1.sample e.2.toNat

/-- The other samples. -/
def otherSamples (m : GatewayMetrics) : List (Sample ℕ) :=
  [⟨"gateway_upstream_failures_total", [], m.upstreamFailures.toNat⟩,
    ⟨"gateway_rate_limit_rejections_total", [], m.rateLimitRejections.toNat⟩,
    ⟨"gateway_circuit_breaker_rejections_total", [], m.circuitBreakerRejections.toNat⟩,
    ⟨"gateway_auth_failures_total", [], m.authFailures.toNat⟩,
    ⟨"gateway_active_connections", [], m.activeConnections.toNat⟩]

theorem named_of_toNat {name : String} {labels : List (String × String)}
    (hname : isMetricName name.toList) (hlabels : ∀ l ∈ labels, isLabelName l.1.toList)
    (v : UInt64) :
    (Sample.mk name labels v.toNat).Named Text.parseU64 toString where
  name := hname
  labels := hlabels
  word := by
    obtain ⟨hne, hdigit⟩ := Text.toList_toString v.toNat
    exact ⟨hne, fun c hc => isWordChar_of_isDigit (hdigit c hc)⟩
  read := Text.parseU64_toString v.toNat_lt

theorem named_sample (k : RequestKey) (v : UInt64) :
    (k.sample v.toNat).Named Text.parseU64 toString :=
  named_of_toNat (by decide) (by simp; decide) v

theorem isPlain_sample_iff {k : RequestKey} {n : ℕ} :
    (k.sample n).IsPlain ↔ IsPlain k.routeId ∧ IsPlain k.method := by
  have hstatus : IsPlain (toString k.status.toNat) := by
    obtain ⟨-, hdigit⟩ := Text.toList_toString k.status.toNat
    exact ⟨fun hc => absurd (hdigit _ hc) (by decide), fun hc => absurd (hdigit _ hc) (by decide),
      fun hc => absurd (hdigit _ hc) (by decide)⟩
  simp only [RequestKey.sample, Sample.IsPlain, List.forall_mem_cons, hstatus, List.not_mem_nil,
    false_imp_iff, implies_true, and_true]

theorem toList_renderCounter (k : RequestKey) (v : UInt64) :
    (renderCounter k v).toList = (k.sample v.toNat).plain toString ++ ['\n'] := by
  have hroute : "gateway_requests_total\x7broute=\"".toList
      = "gateway_requests_total".toList ++ '{' :: ("route".toList ++ ['=', '"']) := rfl
  have hmethod : "\",method=\"".toList = '"' :: ',' :: ("method".toList ++ ['=', '"']) := rfl
  have hstatus : "\",status=\"".toList = '"' :: ',' :: ("status".toList ++ ['=', '"']) := rfl
  have hclose : "\"\x7d ".toList = ['"', '}', ' '] := rfl
  have hfeed : "\n".toList = ['\n'] := rfl
  unfold renderCounter
  simp only [RequestKey.sample, Sample.plain, plainBraces, plainLabels, plainLabel,
    String.toList_append, hroute, hmethod, hstatus, hclose, hfeed, List.append_assoc,
    List.cons_append, List.nil_append]

theorem toList_renderCounters (order : WalkOrder RequestKey UInt64) (m : GatewayMetrics) :
    (String.join ((m.requestCounters.iter order).map fun (k, v) => renderCounter k v)).toList
      = plainText toString (counterSamples order m) := by
  rw [Text.toList_join, List.flatMap_map, counterSamples, plainText, List.flatMap_map]
  exact List.flatMap_congr fun e _ => toList_renderCounter e.1 e.2

/-- **One metric reads back**: its help and its type are comments. -/
theorem readFrom_renderMetric_append (name help kind : String) (v : UInt64) {rest : List Char}
    {samples : List (Sample ℕ)} (hname : isMetricName name.toList) (hhelp : '\n' ∉ help.toList)
    (hkind : '\n' ∉ kind.toList) (hrest : readFrom Text.parseU64 [] rest = some samples) :
    readFrom Text.parseU64 [] ((renderMetric name help kind v).toList ++ rest)
      = some (⟨name, [], v.toNat⟩ :: samples) := by
  have hfeed : '\n' ∉ name.toList := fun hc =>
    absurd ((of_isMetricName hname).2 _ hc).1 (by decide)
  have hsample : readFrom Text.parseU64 [] (plainText toString [Sample.mk name [] v.toNat])
      = some [Sample.mk name [] v.toNat] :=
    readFrom_plainText <| List.forall_mem_singleton.mpr
      ⟨named_of_toNat hname (List.forall_mem_nil _) v, List.forall_mem_nil _⟩
  have htext : (renderMetric name help kind v).toList ++ rest
      = ('#' :: (" HELP ".toList ++ name.toList ++ ' ' :: help.toList) ++ ['\n']) ++
        (('#' :: (" TYPE ".toList ++ name.toList ++ ' ' :: kind.toList) ++ ['\n']) ++
          (plainText toString [Sample.mk name [] v.toNat] ++ rest)) := by
    have hhelp : "# HELP ".toList = '#' :: " HELP ".toList := rfl
    have hkind : "# TYPE ".toList = '#' :: " TYPE ".toList := rfl
    have hblank : " ".toList = [' '] := rfl
    have hfeed : "\n".toList = ['\n'] := rfl
    unfold renderMetric
    simp only [plainText, Sample.plain, plainBraces, String.toList_append, hhelp, hkind, hblank,
      hfeed, List.flatMap_cons, List.flatMap_nil, List.append_assoc, List.cons_append,
      List.nil_append, List.append_nil]
  rw [htext, readFrom_append_of_eq_some (readFrom_comment (by simp [hfeed, hhelp])),
    readFrom_append_of_eq_some (readFrom_comment (by simp [hfeed, hkind])),
    readFrom_append_of_eq_some hsample, hrest]
  rfl

/-- **The text reads as the counters do**: all else in it can be read. -/
theorem readText_renderPrometheus (order : WalkOrder RequestKey UInt64) (m : GatewayMetrics) :
    readText Text.parseU64 (m.renderPrometheus order)
      = (readFrom Text.parseU64 [] (plainText toString (counterSamples order m))).map
          (· ++ otherSamples m) := by
  have hhead : readFrom Text.parseU64 []
      ("# HELP gateway_requests_total Total requests proxied.\n" ++
        "# TYPE gateway_requests_total counter\n").toList = some [] := by
    decide
  have hothers :=
    readFrom_renderMetric_append "gateway_upstream_failures_total" "Total upstream failures."
      "counter" m.upstreamFailures (by decide) (by decide) (by decide) <|
    readFrom_renderMetric_append "gateway_rate_limit_rejections_total"
      "Total rate limit rejections." "counter" m.rateLimitRejections (by decide) (by decide)
      (by decide) <|
    readFrom_renderMetric_append "gateway_circuit_breaker_rejections_total"
      "Total circuit breaker rejections." "counter" m.circuitBreakerRejections (by decide)
      (by decide) (by decide) <|
    readFrom_renderMetric_append "gateway_auth_failures_total" "Total authentication failures."
      "counter" m.authFailures (by decide) (by decide) (by decide) <|
    @readFrom_renderMetric_append "gateway_active_connections" "Current active connections."
      "gauge" m.activeConnections [] [] (by decide) (by decide) (by decide) rfl
  rw [List.append_nil] at hothers
  unfold readText GatewayMetrics.renderPrometheus
  simp only [String.toList_append, toList_renderCounters, List.append_assoc]
  rw [← List.append_assoc, ← String.toList_append, readFrom_append_of_eq_some hhead,
    readFrom_append (fun _ => rfl) (getLast?_plainText _), hothers]
  cases readFrom Text.parseU64 [] (plainText toString (counterSamples order m)) <;> rfl

/-- **The labels tell the keys apart.** -/
theorem RequestKey.eq_of_labels_eq {k k' : RequestKey} {n n' : ℕ}
    (h : (k.sample n).labels = (k'.sample n').labels) : k = k' := by
  obtain ⟨routeId, method, status⟩ := k
  obtain ⟨routeId', method', status'⟩ := k'
  simp only [RequestKey.sample, List.cons.injEq, Prod.mk.injEq, true_and, and_true] at h
  obtain ⟨rfl, rfl, hstatus⟩ := h
  have hlt : ∀ code : UInt16, code.toNat < 2 ^ 64 := fun code => code.toNat_lt.trans (by decide)
  have hread := Text.parseU64_toString (hlt status)
  rw [hstatus, Text.parseU64_toString (hlt status')] at hread
  rw [UInt16.toNat_inj.mp (Option.some.inj hread).symm]

theorem Counts.samples (h : Counts keys m) (order : WalkOrder RequestKey UInt64) :
    (counterSamples order m).Perm
      (keys.dedup.map fun k => k.sample (UInt64.ofNat (keys.count k)).toNat) := by
  have := (h.iter order).map fun e => e.1.sample e.2.toNat
  rwa [List.map_map] at this

/-- **A counter that wraps around** is another number. -/
theorem count_lt_of_samples_perm
    (h : (keys.dedup.map fun k => k.sample (UInt64.ofNat (keys.count k)).toNat).Perm
      (keys.dedup.map fun k => k.sample (keys.count k))) (k : RequestKey) :
    keys.count k < 2 ^ 64 := by
  by_cases hk : k ∈ keys
  · have hmem : k.sample (UInt64.ofNat (keys.count k)).toNat ∈
        keys.dedup.map fun k => k.sample (keys.count k) :=
      h.mem_iff.mp (List.mem_map.mpr ⟨k, List.mem_dedup.mpr hk, rfl⟩)
    obtain ⟨k', -, hk'⟩ := List.mem_map.mp hmem
    obtain rfl := RequestKey.eq_of_labels_eq (congrArg Sample.labels hk')
    have hvalue : keys.count k' = (UInt64.ofNat (keys.count k')).toNat :=
      congrArg Sample.value hk'
    rw [hvalue]
    exact UInt64.toNat_lt _
  · rw [List.count_eq_zero_of_not_mem hk]
    decide

theorem filter_counterSamples (order : WalkOrder RequestKey UInt64) (m : GatewayMetrics) :
    (counterSamples order m).filter (fun s => s.name = "gateway_requests_total")
      = counterSamples order m := by
  rw [List.filter_eq_self, counterSamples, List.forall_mem_map]
  exact fun _ _ => rfl

/-- Requests are counted by no other sample. -/
theorem filter_append_otherSamples (samples : List (Sample ℕ)) (m : GatewayMetrics) :
    (samples ++ otherSamples m).filter (fun s => s.name = "gateway_requests_total")
      = samples.filter fun s => s.name = "gateway_requests_total" := by
  rw [List.filter_append, List.append_right_eq_self]
  rfl

/-- **When the text keeps the requests**: nothing in their routes and methods was to be escaped, and
no counter wraps around. -/
theorem samplesKept_iff {order : WalkOrder RequestKey UInt64} {calls : List MetricsCall} :
    SamplesKept order calls ↔
      (∀ k ∈ recordedKeys calls, IsPlain k.routeId ∧ IsPlain k.method) ∧
      ∀ k, (recordedKeys calls).count k < 2 ^ 64 := by
  have hcounts := counts_afterCalls calls
  set keys := recordedKeys calls
  set m := afterCalls calls
  have hsamples := hcounts.samples order
  have hnamed : ∀ s ∈ counterSamples order m, s.Named Text.parseU64 toString :=
    List.forall_mem_map.mpr fun e _ => named_sample e.1 e.2
  have hplain : (∀ s ∈ counterSamples order m, s.IsPlain) ↔
      ∀ k ∈ keys, IsPlain k.routeId ∧ IsPlain k.method := by
    simp only [hsamples.mem_iff, List.forall_mem_map, List.mem_dedup, isPlain_sample_iff]
  constructor
  · rintro ⟨samples, hread, hback⟩
    rw [readText_renderPrometheus] at hread
    obtain ⟨counted, hcounted, rfl⟩ := Option.map_eq_some_iff.mp hread
    rw [filter_append_otherSamples] at hback
    have hlabels : ((counted.filter fun s => s.name = "gateway_requests_total").map
        Sample.labels).Perm ((counterSamples order m).map Sample.labels) := by
      refine (hback.map _).trans (.trans (.of_eq ?_) (hsamples.map _).symm)
      rw [List.map_map, List.map_map]
      rfl
    have hclean :=
      isPlain_of_readFrom_plainText hnamed hcounted List.filter_sublist hlabels
    refine ⟨hplain.mp hclean, ?_⟩
    have hself := readFrom_plainText fun s hs => ⟨hnamed s hs, hclean s hs⟩
    obtain rfl : counterSamples order m = counted := Option.some.inj (hself.symm.trans hcounted)
    rw [filter_counterSamples] at hback
    exact count_lt_of_samples_perm (hsamples.symm.trans hback)
  · rintro ⟨hkeys, hfew⟩
    refine ⟨counterSamples order m ++ otherSamples m, ?_, ?_⟩
    · rw [readText_renderPrometheus, readFrom_plainText fun s hs =>
        ⟨hnamed s hs, hplain.mpr hkeys s hs⟩]
      rfl
    · rw [filter_append_otherSamples, filter_counterSamples]
      refine hsamples.trans (.of_eq (List.map_congr_left fun k _ => ?_))
      rw [UInt64.toNat_ofNat_of_lt' (hfew k)]

end

/-! ## The object

Under one name an object has one value, the last that was inserted. -/

/-- The calls whose counter is overwritten in `routes`: the walk comes to another key of the same
name. -/
def overwrittenCalls (order : WalkOrder RequestKey UInt64) (calls : List MetricsCall) : ℕ :=
  ((EntryMap.overwritten (((afterCalls calls).requestCounters.iter order).map fun e =>
    (e.1.dotted, (recordedKeys calls).count e.1))).map Prod.snd).sum

section

variable {order : WalkOrder RequestKey UInt64} {calls : List MetricsCall}

theorem holds_routes (order : WalkOrder RequestKey UInt64) (m : GatewayMetrics) :
    (m.toJson order).routes.Holds
      (EntryMap.kept ((m.requestCounters.iter order).map fun e => (e.1.dotted, e.2))) := by
  have h := EntryMap.holds_new.foldl_insert
    ((m.requestCounters.iter order).map fun e => (e.1.dotted, e.2))
  rwa [List.foldl_map, List.filter_nil, List.nil_append] at h

/-- While no counter wraps around, each is the number of its requests. -/
theorem count_eq_of_mem_iter (hfew : ∀ k, (recordedKeys calls).count k < 2 ^ 64)
    {e : RequestKey × UInt64} (he : e ∈ (afterCalls calls).requestCounters.iter order) :
    (recordedKeys calls).count e.1 = e.2.toNat := by
  obtain ⟨k, -, rfl⟩ := List.mem_map.mp (((counts_afterCalls calls).iter order).mem_iff.mp he)
  exact (UInt64.toNat_ofNat_of_lt' (hfew k)).symm

/-- **What is kept and what is overwritten** are all the requests. -/
theorem routesSum_add_overwrittenCalls (hfew : ∀ k, (recordedKeys calls).count k < 2 ^ 64) :
    ((afterCalls calls).toJson order).routesSum + overwrittenCalls order calls
      = (recordedKeys calls).length := by
  set walk := (afterCalls calls).requestCounters.iter order with hwalk
  set named := walk.map fun e => (e.1.dotted, e.2) with hnamed
  have hcounts : (walk.map fun e => (e.1.dotted, (recordedKeys calls).count e.1))
      = named.map (Prod.map id UInt64.toNat) := by
    rw [hnamed, List.map_map]
    exact List.map_congr_left fun e he => Prod.ext rfl (count_eq_of_mem_iter hfew he)
  have hkept : ((afterCalls calls).toJson order).routesSum
      = ((EntryMap.kept named).map fun e => e.2.toNat).sum :=
    ((holds_routes order (afterCalls calls)).map fun e : String × UInt64 => e.2.toNat).sum_eq
  have hoverwritten : overwrittenCalls order calls
      = ((EntryMap.overwritten named).map fun e => e.2.toNat).sum := by
    rw [overwrittenCalls, ← hwalk, hcounts, EntryMap.overwritten_map, List.map_map]
    rfl
  have hwhole : (named.map fun e => e.2.toNat).sum = (recordedKeys calls).length := by
    have hperm := (((counts_afterCalls calls).iter order).map fun e => e.2.toNat).sum_eq
    rw [hnamed, List.map_map, ← List.sum_map_count_dedup_eq_length]
    refine hperm.trans ?_
    rw [List.map_map]
    exact congrArg List.sum (List.map_congr_left fun k _ => UInt64.toNat_ofNat_of_lt' (hfew k))
  have hsplit := ((EntryMap.kept_append_overwritten_perm named).map fun e => e.2.toNat).sum_eq
  rw [List.map_append, List.sum_append] at hsplit
  rw [hkept, hoverwritten, hsplit, hwhole]

/-- **Nothing is overwritten** if no two keys have the same dotted name. -/
theorem overwrittenCalls_eq_zero_iff : overwrittenCalls order calls = 0 ↔
    ∀ k ∈ recordedKeys calls, ∀ k' ∈ recordedKeys calls, k.dotted = k'.dotted → k = k' := by
  have hperm := (counts_afterCalls calls).iter order
  set walk := (afterCalls calls).requestCounters.iter order with hwalk
  set named := walk.map fun e => (e.1.dotted, (recordedKeys calls).count e.1) with hnamed
  have hmem : ∀ k, k ∈ walk.map Prod.fst ↔ k ∈ recordedKeys calls := by
    intro k
    rw [(hperm.map Prod.fst).mem_iff, List.map_map]
    simp
  have hpos : ∀ e ∈ EntryMap.overwritten named, e.2 ≠ 0 := by
    intro e he
    have he' : e ∈ named := (EntryMap.kept_append_overwritten_perm named).mem_iff.mp
      (List.mem_append_right _ he)
    obtain ⟨d, hd, rfl⟩ := List.mem_map.mp he'
    have hd' := (hmem d.1).mp (List.mem_map_of_mem hd)
    exact (List.count_pos_iff.mpr hd').ne'
  have hnil : overwrittenCalls order calls = 0 ↔ EntryMap.overwritten named = [] := by
    rw [overwrittenCalls, ← hwalk, List.sum_eq_zero_iff_forall_eq_nat, List.forall_mem_map]
    refine ⟨fun h => List.eq_nil_iff_forall_not_mem.mpr fun e he => hpos e he (h e he), fun h => ?_⟩
    rw [h]
    exact List.forall_mem_nil _
  have hnodup : (walk.map Prod.fst).Nodup := by
    refine (hperm.map Prod.fst).nodup_iff.mpr ?_
    rw [List.map_map]
    exact (List.map_id _).symm ▸ (recordedKeys calls).nodup_dedup
  have hfst : named.map Prod.fst = (walk.map Prod.fst).map RequestKey.dotted := by
    rw [hnamed, List.map_map, List.map_map]
    rfl
  rw [hnil, EntryMap.overwritten_eq_nil_iff, hfst, List.nodup_map_iff_inj_on hnodup]
  simp only [hmem]

/-- **When the object keeps the requests**: as many calls are overwritten in `routes` as
`total_requests` drops by wrapping around. -/
theorem routes_iff (hfew : ∀ k, (recordedKeys calls).count k < 2 ^ 64) :
    ((afterCalls calls).toJson order).routesSum
        = ((afterCalls calls).toJson order).totalRequests.toNat ↔
      overwrittenCalls order calls = 2 ^ 64 * ((recordedKeys calls).length / 2 ^ 64) := by
  have hsum : ((afterCalls calls).toJson order).routesSum + overwrittenCalls order calls
      = (recordedKeys calls).length := routesSum_add_overwrittenCalls hfew
  have htotal : ((afterCalls calls).toJson order).totalRequests.toNat
      = (recordedKeys calls).length % 2 ^ 64 := by
    rw [GatewayMetrics.toJson, (counts_afterCalls calls).total]
    exact UInt64.toNat_ofNat'
  have hdiv := Nat.div_add_mod (recordedKeys calls).length (2 ^ 64)
  rw [htotal]
  omega

end

/-- **When the exports lose no request**: nothing in the routes and methods was to be escaped, no
counter wraps around, and as many calls are overwritten in `routes` as `total_requests` drops by
wrapping around; of fewer than `2 ^ 64` calls, if no two keys have the same dotted name. -/
theorem losesNoRequest_iff (jsonOrder textOrder : WalkOrder RequestKey UInt64)
    (calls : List MetricsCall) :
    (LosesNoRequest jsonOrder textOrder calls ↔
      (∀ k ∈ recordedKeys calls, IsPlain k.routeId ∧ IsPlain k.method) ∧
      (∀ k, (recordedKeys calls).count k < 2 ^ 64) ∧
      overwrittenCalls jsonOrder calls = 2 ^ 64 * ((recordedKeys calls).length / 2 ^ 64)) ∧
    ((recordedKeys calls).length < 2 ^ 64 →
      (LosesNoRequest jsonOrder textOrder calls ↔
        (∀ k ∈ recordedKeys calls, IsPlain k.routeId ∧ IsPlain k.method) ∧
        ∀ k ∈ recordedKeys calls, ∀ k' ∈ recordedKeys calls, k.dotted = k'.dotted → k = k')) := by
  have hiff : LosesNoRequest jsonOrder textOrder calls ↔
      (∀ k ∈ recordedKeys calls, IsPlain k.routeId ∧ IsPlain k.method) ∧
      (∀ k, (recordedKeys calls).count k < 2 ^ 64) ∧
      overwrittenCalls jsonOrder calls = 2 ^ 64 * ((recordedKeys calls).length / 2 ^ 64) := by
    constructor
    · rintro ⟨hroutes, hsamples⟩
      obtain ⟨hplain, hfew⟩ := samplesKept_iff.mp hsamples
      exact ⟨hplain, hfew, (routes_iff hfew).mp hroutes⟩
    · rintro ⟨hplain, hfew, hover⟩
      exact ⟨(routes_iff hfew).mpr hover, samplesKept_iff.mpr ⟨hplain, hfew⟩⟩
  refine ⟨hiff, fun hlength => ?_⟩
  have hfew : ∀ k, (recordedKeys calls).count k < 2 ^ 64 := fun k =>
    List.count_le_length.trans_lt hlength
  rw [hiff, Nat.div_eq_of_lt hlength, Nat.mul_zero, overwrittenCalls_eq_zero_iff]
  exact and_congr_right fun _ => and_iff_right hfew

/-! ## Requests that are lost -/

/-- **Two routes of one name**: `api` with the method `v1.GET` and `api.v1` with `GET`.  And a route
with a quote in its name spoils the text. -/
theorem names_collide :
    ¬ LosesNoRequest (.listed _ _) (.listed _ _)
      [.recordRequest "api" "v1.GET" 200 3, .recordRequest "api.v1" "GET" 200 4] ∧
    ¬ SamplesKept (.listed _ _) [.recordRequest "the \"old\" api" "GET" 200 3] := by
  constructor
  · intro h
    have hsum : (1 : ℕ) = 2 := h.routes
    omega
  · intro h
    obtain ⟨hplain, -⟩ := samplesKept_iff.mp h
    exact absurd (hplain _ List.mem_cons_self).1 (by decide)

end PqcGateway
