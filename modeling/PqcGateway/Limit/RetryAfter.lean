import PqcGateway.Limit.Eviction

/-!
# Limit/RetryAfter — when a refused client may come back

A refused check says how long the client is to wait.  Every further check refills the bucket and
moves the time it was counted at, so the wait is right only if refilling in pieces is refilling at
once: the time the bucket is ready at is what refused checks leave alone.

* `retryAfter_exact` — before the wait is over every check of the key is refused, and the first one
  after it is allowed.
* `retryAfter_nine_seconds` — with one request in ten seconds, a check a second late has nine to
  wait.
-/

namespace PqcGateway

/-! ## A bucket under one limit

All checks of the key name one limit, so its bucket has that limit's capacity and rate. -/

/-- What checks under the limit of `c` requests in `w` seconds, and cleanups, make of a key's bucket
by the time `t`. -/
inductive Filled (c w : ℕ) (t : ℚ) : Option Bucket → Prop
  | unseen : Filled c w t none
  | seen (b : TokenBucket ℚ) (htokens : 0 ≤ b.tokens) (hsince : b.since ≤ t) :
    Filled c w t (some (.ofTokens c (c / w) b))

section

variable {c w : ℕ} {t t' : ℚ} {bucket? : Option Bucket} {defaults : ℕ × ℕ} {call : LimitCheck}

theorem Filled.mono (h : Filled c w t bucket?) (ht : t ≤ t') : Filled c w t' bucket? := by
  cases h with
  | unseen => exact .unseen
  | seen b htokens hsince => exact .seen b htokens (hsince.trans ht)

/-- A cleanup drops the bucket or leaves it. -/
theorem Filled.filter (h : Filled c w t bucket?) (p : Bucket → Bool) :
    Filled c w t (bucket?.filter p) := by
  cases h with
  | unseen => exact .unseen
  | seen b htokens hsince =>
    cases hp : p (.ofTokens c (c / w) b) with
    | true =>
      rw [Option.filter_some_pos hp]
      exact .seen b htokens hsince
    | false =>
      rw [Option.filter_some_neg (by simp [hp])]
      exact .unseen

/-- **A check of the key draws from a token bucket**: the one there is, or a full one. -/
theorem Filled.step_eq (h : Filled c w t bucket?) (hw : 1 ≤ w) (ht : t ≤ call.now)
    (hlimit : call.routeLimit.getD defaults = (c, w)) :
    ∃ b : TokenBucket ℚ, 0 ≤ b.tokens ∧ b.since ≤ call.now ∧
      (bucketMachine defaults).step bucket? call
        = (bucketMachine defaults).step (some (.ofTokens c (c / w) b)) call := by
  cases h with
  | unseen => exact ⟨⟨c, call.now⟩, Nat.cast_nonneg c, le_rfl, bucket_step_none hw hlimit⟩
  | seen b htokens hsince => exact ⟨b, htokens, hsince.trans ht, rfl⟩

end

/-! ## The limiter, for one key -/

/-- The limiter, as a key under the limit sees it at the time `t`. -/
structure UnderLimit (defaults : ℕ × ℕ) (c w : ℕ) (key : RateLimitKey) (t : ℚ)
    (limiter : RateLimiter) : Prop where
  defaults_eq : (limiter.defaultCapacity, limiter.defaultWindow) = defaults
  bucket : Filled c w t (limiter.buckets.get key)

section

variable {defaults : ℕ × ℕ} {c w : ℕ} {key : RateLimitKey} {t t' : ℚ} {s s' : RateLimiter}
  {call : LimitCheck}

theorem UnderLimit.check (h : UnderLimit defaults c w key t s) (hw : 1 ≤ w) (ht : t ≤ call.now)
    (hlimit : call.key = key → call.routeLimit.getD defaults = (c, w)) {result : RateLimitResult}
    (hstep : limiterMachine.step s call = .ok (s', result)) :
    UnderLimit defaults c w key call.now s' := by
  obtain ⟨hothers, hcapacity, hwindow⟩ := limiter_step_other hstep
  have hdefaults : (s'.defaultCapacity, s'.defaultWindow) = defaults := by
    rw [hcapacity, hwindow, h.defaults_eq]
  by_cases hkey : call.key = key
  · obtain ⟨b, htokens, hsince, hdraw⟩ := h.bucket.step_eq hw ht (hlimit hkey)
    have hself := limiter_step_self hstep
    rw [h.defaults_eq, hkey, hdraw, bucket_step_ofTokens hsince] at hself
    obtain ⟨hget, -⟩ := Prod.mk.inj (Except.ok.inj hself)
    refine ⟨hdefaults, hget ▸ .seen _ ?_ TokenBucket.draw_since.le⟩
    exact TokenBucket.tokens_draw_nonneg (Nat.cast_nonneg c)
      (div_nonneg (Nat.cast_nonneg c) (Nat.cast_nonneg w)) htokens hsince
  · refine ⟨hdefaults, ?_⟩
    rw [hothers key (Ne.symm hkey)]
    exact h.bucket.mono ht

theorem UnderLimit.cleanup (h : UnderLimit defaults c w key t s) (ht : t ≤ t') :
    UnderLimit defaults c w key t' (s.cleanup t' cleanupAge) where
  defaults_eq := h.defaults_eq
  bucket := by
    have hget : (s.cleanup t' cleanupAge).buckets.get key = _ := EntryMap.get_retain _ _ _
    rw [hget]
    exact (h.bucket.mono ht).filter _

/-- **A key under one limit has a bucket under it**, whatever is checked and cleaned. -/
theorem UnderLimit.run (h : UnderLimit defaults c w key t s) (hw : 1 ≤ w)
    {events : List LimiterEvent}
    (htimes : (t :: events.map LimiterEvent.now).Pairwise (· ≤ ·))
    (hlimit : ∀ call, .check call ∈ events → call.key = key →
      call.routeLimit.getD defaults = (c, w))
    {answers : List (Option RateLimitResult)}
    (hrun : cleanedMachine.run s events = .ok (s', answers))
    (hend : ∀ t₁ ∈ t :: events.map LimiterEvent.now, t₁ ≤ t') :
    UnderLimit defaults c w key t' s' := by
  induction events generalizing s t answers with
  | nil =>
    obtain ⟨rfl, -⟩ := Prod.mk.inj (Except.ok.inj hrun)
    exact ⟨h.defaults_eq, h.bucket.mono (hend t List.mem_cons_self)⟩
  | cons event events ih =>
    obtain ⟨s₁, answer, answers, hstep, hrest, rfl⟩ := cleanedMachine.run_cons_eq_ok.mp hrun
    obtain ⟨hnow, htail⟩ := List.pairwise_cons.mp htimes
    have ht : t ≤ event.now := hnow event.now List.mem_cons_self
    have hlater : ∀ call, .check call ∈ events → call.key = key →
        call.routeLimit.getD defaults = (c, w) := fun call hcall =>
      hlimit call (List.mem_cons_of_mem event hcall)
    have hend' := (List.forall_mem_cons.mp hend).2
    cases event with
    | cleanup now =>
      obtain ⟨rfl, -⟩ := Prod.mk.inj (Except.ok.inj hstep)
      exact ih (t := now) (h.cleanup ht) htail hlater hrest hend'
    | check call =>
      obtain ⟨result, hcheck, -⟩ := cleaned_step_check hstep
      exact ih (h.check hw ht (hlimit call List.mem_cons_self) hcheck) htail hlater hrest hend'

/-- **A refused check** leaves a bucket that is ready when the wait it is told is over. -/
theorem UnderLimit.limited (h : UnderLimit defaults c w call.key t s) (ht : t ≤ call.now)
    (hc : 1 ≤ c) (hw : 1 ≤ w) (hlimit : call.routeLimit.getD defaults = (c, w))
    {retry : F64} (hstep : limiterMachine.step s call = .ok (s', .limited retry)) :
    ∃ b : TokenBucket ℚ, s'.buckets.get call.key = some (.ofTokens c (c / w) b) ∧
      b.since = call.now ∧ call.now < b.ready ((c : ℚ) / w) ∧
      retry = .rational (b.ready ((c : ℚ) / w) - call.now) := by
  have hc' : (1 : ℚ) ≤ c := Nat.one_le_cast.mpr hc
  have hr : (0 : ℚ) < c / w := div_pos (Nat.cast_pos.mpr hc) (Nat.cast_pos.mpr hw)
  obtain ⟨b, -, hsince, hdraw⟩ := h.bucket.step_eq hw ht hlimit
  have hself := limiter_step_self hstep
  rw [h.defaults_eq, hdraw, bucket_step_ofTokens hsince] at hself
  obtain ⟨hget, hanswer⟩ := Prod.mk.inj (Except.ok.inj hself)
  by_cases hready : b.ready ((c : ℚ) / w) ≤ call.now
  · rw [(TokenBucket.snd_draw_eq_true_iff hc' hr).mpr hready] at hanswer
    cases hanswer
  · have hlevel := mt (TokenBucket.one_le_level_iff (c := (c : ℚ)) hc' hr).mp hready
    have hkeeps := TokenBucket.ready_draw_of_lt hc' hr (not_le.mp hready)
    rw [TokenBucket.draw_of_lt (not_le.mp hlevel)] at hget hanswer hkeeps
    refine ⟨_, hget.symm, rfl, hkeeps ▸ not_le.mp hready, ?_⟩
    rw [if_neg Bool.false_ne_true] at hanswer
    rw [← RateLimitResult.limited.inj hanswer, Bucket.retryAfter, Bucket.ofTokens, if_neg hlevel,
      F64.divide, F64.quotient_of_ne hr.ne', TokenBucket.ready, add_sub_cancel_left]

end

/-! ## The wait is exact -/

/-- **Retry-after is exact.**  For a key whose limit stays `c` requests in `w` seconds, a check
refused at `call.now` with a wait of `r`: the wait is positive, every check of the key before it is
over is refused, and the first one from then on is allowed. -/
theorem retryAfter_exact {dc dw : ℕ} {limiter limiter₁ limiter₂ : RateLimiter}
    {history : List LimiterEvent} {call : LimitCheck} {later : List LimitCheck}
    {answers : List (Option RateLimitResult)} {retry : F64} {answers' : List RateLimitResult}
    (hhistory : cleanedMachine.run (.new dc dw) history = .ok (limiter, answers))
    (hcheck : limiterMachine.step limiter call = .ok (limiter₁, .limited retry))
    (hlater : limiterMachine.run limiter₁ later = .ok (limiter₂, answers'))
    (htimes : (history.map LimiterEvent.now ++ call.now :: later.map LimitCheck.now).Pairwise
      (· ≤ ·))
    {c w : ℕ} (hc : 1 ≤ c) (hw : 1 ≤ w)
    (hlimit : ∀ other, .check other ∈ history ∨ other ∈ call :: later → other.key = call.key →
      other.routeLimit.getD (dc, dw) = (c, w)) :
    ∃ r : ℚ, retry = .rational r ∧ 0 < r ∧
      (∀ e ∈ checksOf call.key later answers', e.1.now < call.now + r → e.2.isAllowed = false) ∧
      ∀ early first rest, checksOf call.key later answers' = early ++ first :: rest →
        (∀ e ∈ early, e.1.now < call.now + r) → call.now + r ≤ first.1.now →
          first.2 = .allowed := by
  have hc' : (1 : ℚ) ≤ c := Nat.one_le_cast.mpr hc
  have hr : (0 : ℚ) < c / w := div_pos (Nat.cast_pos.mpr hc) (Nat.cast_pos.mpr hw)
  obtain ⟨hbefore, hafter, hcross⟩ := List.pairwise_append.mp htimes
  have hunder : UnderLimit (dc, dw) c w call.key call.now limiter := by
    cases history with
    | nil =>
      obtain ⟨rfl, -⟩ := Prod.mk.inj (Except.ok.inj hhistory)
      exact ⟨rfl, .unseen⟩
    | cons event events =>
      have hstart : UnderLimit (dc, dw) c w call.key event.now (.new dc dw) := ⟨rfl, .unseen⟩
      have hsorted : (event.now :: (event :: events).map LimiterEvent.now).Pairwise (· ≤ ·) :=
        TokenBucket.pairwise_cons_self hbefore
      refine hstart.run hw hsorted (fun other hother => hlimit other (.inl hother)) hhistory
        fun t ht => ?_
      exact hcross t (by simpa using ht) call.now List.mem_cons_self
  obtain ⟨b, hget, hsince, hready, rfl⟩ := hunder.limited le_rfl hc hw
    (hlimit call (.inr List.mem_cons_self) rfl) hcheck
  have hdraws := limiter_run_draws_of_get hget hlater (by rwa [hsince])
  have hsorted : ((checksOf call.key later answers').map fun e => e.1.now).Pairwise (· ≤ ·) :=
    (List.pairwise_cons.mp hafter).2.sublist
      (checksOf_times_sublist (limiterMachine.length_answers hlater) call.key)
  refine ⟨_, rfl, sub_pos.mpr hready, ?_, ?_⟩
  · intro e he hlt
    rw [add_sub_cancel] at hlt
    have hdraw := List.mem_map_of_mem (f := fun e => (e.1.now, e.2.isAllowed)) he
    rw [hdraws] at hdraw
    exact TokenBucket.snd_of_mem_draws_of_lt hc' hr hsorted hdraw hlt
  · intro early first rest hsplit hearly hfirst
    rw [add_sub_cancel] at hearly hfirst
    rw [hsplit, List.map_append, List.map_append, List.map_cons, List.map_cons] at hdraws
    have htimes : ∀ t ∈ early.map fun e => e.1.now, t < b.ready ((c : ℚ) / w) :=
      List.forall_mem_map.mpr hearly
    obtain ⟨late, hlate⟩ := TokenBucket.draws_at_ready hc' hr htimes hfirst
      (rest.map fun e => e.1.now)
    rw [hlate] at hdraws
    obtain ⟨-, htail⟩ := List.append_inj hdraws (by simp)
    exact RateLimitResult.isAllowed_iff.mp (Prod.mk.inj (List.cons.inj htail).1).2

/-- One request in ten seconds: refused after one of them, the client is to wait for nine. -/
theorem retryAfter_nine_seconds : ∃ limiter limiter₁ limiter₂ answers answers',
    cleanedMachine.run (.new 1 10) [.check ⟨0, ⟨"r", "c"⟩, none⟩] = .ok (limiter, answers) ∧
    limiterMachine.step limiter ⟨1, ⟨"r", "c"⟩, none⟩ = .ok (limiter₁, .limited (.rational 9)) ∧
    limiterMachine.run limiter₁ [⟨5, ⟨"r", "c"⟩, none⟩, ⟨10, ⟨"r", "c"⟩, none⟩]
      = .ok (limiter₂, answers') ∧
    ∃ r : ℚ, F64.rational 9 = .rational r ∧ 0 < r ∧
      ∀ e ∈ checksOf ⟨"r", "c"⟩ [⟨5, ⟨"r", "c"⟩, none⟩, ⟨10, ⟨"r", "c"⟩, none⟩] answers',
        e.1.now < 1 + r → e.2.isAllowed = false := by
  have hhistory : cleanedMachine.run (.new 1 10) [.check ⟨0, ⟨"r", "c"⟩, none⟩]
      = .ok (((RateLimiter.new 1 10).check 0 ⟨"r", "c"⟩ none).1, _) := rfl
  have hanswer : (((RateLimiter.new 1 10).check 0 ⟨"r", "c"⟩ none).1.check 1 ⟨"r", "c"⟩ none).2
      = .limited (.rational 9) := by decide +kernel
  have hcheck : limiterMachine.step ((RateLimiter.new 1 10).check 0 ⟨"r", "c"⟩ none).1
      ⟨1, ⟨"r", "c"⟩, none⟩ = .ok (_, .limited (.rational 9)) :=
    congrArg Except.ok (Prod.ext rfl hanswer)
  have hlater : limiterMachine.run
      (((RateLimiter.new 1 10).check 0 ⟨"r", "c"⟩ none).1.check 1 ⟨"r", "c"⟩ none).1
      [⟨5, ⟨"r", "c"⟩, none⟩, ⟨10, ⟨"r", "c"⟩, none⟩] = .ok (_, _) := rfl
  obtain ⟨r, hr, hpos, hbefore, -⟩ := retryAfter_exact hhistory hcheck hlater
    (by norm_num [LimiterEvent.now]) le_rfl (by norm_num : 1 ≤ 10) (by simp)
  exact ⟨_, _, _, _, _, hhistory, hcheck, hlater, r, hr, hpos, hbefore⟩

end PqcGateway
