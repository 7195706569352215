import PqcGateway.Limit.RateLimiter
import Mathlib.Data.List.ReduceOption

/-!
# Limit/Eviction — the buckets the cleanup task drops

The gateway's background task drops the buckets that nothing has asked for ten minutes.  A key that
comes back gets a full bucket, so a bucket dropped before it has refilled is forgiven what it spent.

* `evictionHarmless_iff` — which limits hold whatever is evicted: those whose window is no longer
  than the age at which buckets are dropped.
* `eviction_loosens` — one request an hour, and a second one is allowed after ten minutes.
-/

namespace PqcGateway

/-! ## Checks and cleanups

`EvictionHarmless` compares two runs over the same checks: one with the cleanups where they fell,
and one without. -/

/-- The age the background task evicts at: `Duration::from_secs(600)`. -/
def cleanupAge : ℚ := 600

/-- A check, or a turn of the background task. -/
inductive LimiterEvent
  | check (call : LimitCheck)
  | cleanup (now : ℚ)

namespace LimiterEvent

/-- When it happens. -/
def now : LimiterEvent → ℚ
  | check call => call.now
  | cleanup now => now

/-- The check, if it is one. -/
def check? : LimiterEvent → Option LimitCheck
  | check call => some call
  | cleanup _ => none

end LimiterEvent

/-- **The rate limiter under its background task.**  A cleanup answers nothing. -/
def cleanedMachine : Machine RateLimiter LimiterEvent (Option RateLimitResult) where
  step limiter
    | .check call => do
      let (limiter, result) ← limiterMachine.step limiter call
      pure (limiter, some result)
    | .cleanup now => pure (limiter.cleanup now cleanupAge, none)

/-- The decisions on the checks of one key. -/
def decisions (key : RateLimitKey) (calls : List LimitCheck) (answers : List RateLimitResult) :
    List Bool :=
  (checksOf key calls answers).map fun e => e.2.isAllowed

/-- **Eviction is harmless** to a limit of `c` requests in `w` seconds: with cleanups anywhere, the
checks of a key that has this limit are decided as they are without. -/
def EvictionHarmless (c w : ℕ) : Prop :=
  ∀ (dc dw : ℕ) (key : RateLimitKey) (events : List LimiterEvent) (cleaned kept : RateLimiter)
    (answers : List (Option RateLimitResult)) (answers' : List RateLimitResult),
    (events.map LimiterEvent.now).Pairwise (· ≤ ·) →
    (∀ call, .check call ∈ events → call.key = key → call.routeLimit.getD (dc, dw) = (c, w)) →
    cleanedMachine.run (.new dc dw) events = .ok (cleaned, answers) →
    limiterMachine.run (.new dc dw) (events.filterMap LimiterEvent.check?) = .ok (kept, answers') →
    decisions key (events.filterMap LimiterEvent.check?) answers.reduceOption
      = decisions key (events.filterMap LimiterEvent.check?) answers'

/-! ## One key's bucket, cleaned and kept

Where the window is no longer than the age, a bucket that was dropped would be full by now, and its
successor is made full. -/

/-- What cleanups may have made by the time `t` of a bucket that is still there without them:
nothing, or they dropped it when it was idle. -/
inductive Cleaned (c w : ℕ) (t : ℚ) : Option Bucket → Option Bucket → Prop
  | unseen : Cleaned c w t none none
  | kept (b : TokenBucket ℚ) (htokens : 0 ≤ b.tokens) (hsince : b.since ≤ t) :
    Cleaned c w t (some (.ofTokens c (c / w) b)) (some (.ofTokens c (c / w) b))
  | dropped (b : TokenBucket ℚ) (htokens : 0 ≤ b.tokens) (hidle : b.since + cleanupAge ≤ t) :
    Cleaned c w t none (some (.ofTokens c (c / w) b))

section

variable {c w : ℕ} {t t' : ℚ} {cleaned kept : Option Bucket} {defaults : ℕ × ℕ}

theorem Cleaned.mono (h : Cleaned c w t cleaned kept) (ht : t ≤ t') :
    Cleaned c w t' cleaned kept := by
  cases h with
  | unseen => exact .unseen
  | kept b htokens hsince => exact .kept b htokens (hsince.trans ht)
  | dropped b htokens hidle => exact .dropped b htokens (hidle.trans ht)

/-- A cleanup drops the bucket only if it is idle. -/
theorem Cleaned.cleanup (h : Cleaned c w t cleaned kept) (ht : t ≤ t') :
    Cleaned c w t'
      (cleaned.filter fun bucket => max (t' - bucket.lastRefill) 0 < cleanupAge) kept := by
  cases h with
  | unseen => exact .unseen
  | kept b htokens hsince =>
    by_cases hage : max (t' - b.since) 0 < cleanupAge
    · rw [Option.filter_some_pos (by simpa [Bucket.ofTokens] using hage)]
      exact .kept b htokens (hsince.trans ht)
    · rw [Option.filter_some_neg (by simpa [Bucket.ofTokens] using hage)]
      refine .dropped b htokens ?_
      rw [max_eq_left (sub_nonneg.mpr (hsince.trans ht)), not_lt] at hage
      linarith
  | dropped b htokens hidle => exact .dropped b htokens (hidle.trans ht)

/-- A bucket that is drawn from is not idle. -/
theorem Cleaned.of_draw {b : TokenBucket ℚ} (htokens : 0 ≤ b.tokens) (hsince : b.since ≤ t) :
    Cleaned c w t (some (.ofTokens c (c / w) (b.draw (c : ℚ) (c / w) t).1))
      (some (.ofTokens c (c / w) (b.draw (c : ℚ) (c / w) t).1)) :=
  .kept _ (TokenBucket.tokens_draw_nonneg (Nat.cast_nonneg c)
    (div_nonneg (Nat.cast_nonneg c) (Nat.cast_nonneg w)) htokens hsince) TokenBucket.draw_since.le

/-- **A check is answered alike**, and the bucket is the same from then on, if an idle bucket is
full. -/
theorem Cleaned.check (h : Cleaned c w t cleaned kept)
    (hw : 1 ≤ w) (hfull : (c : ℚ) ≤ cleanupAge * (c / w)) {call : LimitCheck}
    (ht : t ≤ call.now) (hlimit : call.routeLimit.getD defaults = (c, w)) :
    ∃ bucket answer, (bucketMachine defaults).step cleaned call = .ok (bucket, answer) ∧
      (bucketMachine defaults).step kept call = .ok (bucket, answer) ∧
      Cleaned c w call.now bucket bucket := by
  have hfresh : (bucketMachine defaults).step none call = .ok _ :=
    (bucket_step_none hw hlimit).trans (bucket_step_ofTokens le_rfl)
  have hfilled : Cleaned c w call.now _ _ :=
    .of_draw (b := ⟨c, call.now⟩) (Nat.cast_nonneg c) le_rfl
  cases h with
  | unseen => exact ⟨_, _, hfresh, hfresh, hfilled⟩
  | kept b htokens hsince =>
    have hnow : b.since ≤ call.now := hsince.trans ht
    exact ⟨_, _, bucket_step_ofTokens hnow, bucket_step_ofTokens hnow, .of_draw htokens hnow⟩
  | dropped b htokens hidle =>
    have hage : (0 : ℚ) ≤ cleanupAge := by norm_num [cleanupAge]
    have hnow : b.since ≤ call.now := by linarith
    have hdraw := TokenBucket.draw_of_full (TokenBucket.full_of_idle
      (div_nonneg (Nat.cast_nonneg c) (Nat.cast_nonneg w)) hfull htokens (hidle.trans ht))
    have hstep : (bucketMachine defaults).step (some (.ofTokens c (c / w) b)) call = .ok _ :=
      bucket_step_ofTokens hnow
    rw [hdraw] at hstep
    exact ⟨_, _, hfresh, hstep, hfilled⟩

end

/-! ## Runs -/

/-- The limiter that is cleaned and the one that is not, as the key sees them at the time `t`. -/
structure Coupled (defaults : ℕ × ℕ) (c w : ℕ) (key : RateLimitKey) (t : ℚ)
    (cleaned kept : RateLimiter) : Prop where
  defaults_cleaned : (cleaned.defaultCapacity, cleaned.defaultWindow) = defaults
  defaults_kept : (kept.defaultCapacity, kept.defaultWindow) = defaults
  bucket : Cleaned c w t (cleaned.buckets.get key) (kept.buckets.get key)

section

variable {defaults : ℕ × ℕ} {c w : ℕ} {key : RateLimitKey} {t t' : ℚ}
  {s s' u u' : RateLimiter}

theorem Coupled.cleanup (h : Coupled defaults c w key t s u) (ht : t ≤ t') :
    Coupled defaults c w key t' (s.cleanup t' cleanupAge) u where
  defaults_cleaned := h.defaults_cleaned
  defaults_kept := h.defaults_kept
  bucket := by
    have hget : (s.cleanup t' cleanupAge).buckets.get key = _ := EntryMap.get_retain _ _ _
    rw [hget]
    exact h.bucket.cleanup ht

/-- **A check keeps the limiters coupled**, and is answered alike if it is one of the key's. -/
theorem Coupled.check (h : Coupled defaults c w key t s u) (hw : 1 ≤ w)
    (hfull : (c : ℚ) ≤ cleanupAge * (c / w)) {call : LimitCheck} (ht : t ≤ call.now)
    (hlimit : call.key = key → call.routeLimit.getD defaults = (c, w))
    {result result' : RateLimitResult} (hs : limiterMachine.step s call = .ok (s', result))
    (hu : limiterMachine.step u call = .ok (u', result')) :
    Coupled defaults c w key call.now s' u' ∧ (call.key = key → result = result') := by
  obtain ⟨hothers, hcapacity, hwindow⟩ := limiter_step_other hs
  obtain ⟨hothers', hcapacity', hwindow'⟩ := limiter_step_other hu
  have hdefaults : (s'.defaultCapacity, s'.defaultWindow) = defaults := by
    rw [hcapacity, hwindow, h.defaults_cleaned]
  have hdefaults' : (u'.defaultCapacity, u'.defaultWindow) = defaults := by
    rw [hcapacity', hwindow', h.defaults_kept]
  by_cases hkey : call.key = key
  · obtain ⟨bucket, answer, hstep, hstep', hbucket⟩ := h.bucket.check hw hfull ht (hlimit hkey)
    have hself := limiter_step_self hs
    have hself' := limiter_step_self hu
    rw [h.defaults_cleaned, hkey, hstep] at hself
    rw [h.defaults_kept, hkey, hstep'] at hself'
    obtain ⟨hget, rfl⟩ := Prod.mk.inj (Except.ok.inj hself)
    obtain ⟨hget', rfl⟩ := Prod.mk.inj (Except.ok.inj hself')
    exact ⟨⟨hdefaults, hdefaults', hget ▸ hget' ▸ hbucket⟩, fun _ => rfl⟩
  · refine ⟨⟨hdefaults, hdefaults', ?_⟩, fun h => absurd h hkey⟩
    rw [hothers key (Ne.symm hkey), hothers' key (Ne.symm hkey)]
    exact h.bucket.mono ht

/-- A check moves the limiter as it does without the background task. -/
theorem cleaned_step_check {call : LimitCheck} {answer : Option RateLimitResult}
    (h : cleanedMachine.step s (.check call) = .ok (s', answer)) :
    ∃ result, limiterMachine.step s call = .ok (s', result) ∧ answer = some result := by
  obtain ⟨rfl, rfl⟩ := Prod.mk.inj (Except.ok.inj h)
  exact ⟨_, rfl, rfl⟩

theorem decisions_cons (call : LimitCheck) (calls : List LimitCheck) (answer : RateLimitResult)
    (answers : List RateLimitResult) :
    decisions key (call :: calls) (answer :: answers)
      = if call.key = key then answer.isAllowed :: decisions key calls answers
        else decisions key calls answers := by
  by_cases hkey : call.key = key
  · rw [if_pos hkey, decisions, checksOf_cons_self hkey]
    rfl
  · rw [if_neg hkey, decisions, checksOf_cons_of_ne hkey]
    rfl

/-- **Coupled limiters decide alike** for as long as they run. -/
theorem Coupled.decisions_eq (h : Coupled defaults c w key t s u) (hw : 1 ≤ w)
    (hfull : (c : ℚ) ≤ cleanupAge * (c / w)) {events : List LimiterEvent}
    (htimes : (t :: events.map LimiterEvent.now).Pairwise (· ≤ ·))
    (hlimit : ∀ call, .check call ∈ events → call.key = key →
      call.routeLimit.getD defaults = (c, w))
    {answers : List (Option RateLimitResult)} {answers' : List RateLimitResult}
    (hs : cleanedMachine.run s events = .ok (s', answers))
    (hu : limiterMachine.run u (events.filterMap LimiterEvent.check?) = .ok (u', answers')) :
    decisions key (events.filterMap LimiterEvent.check?) answers.reduceOption
      = decisions key (events.filterMap LimiterEvent.check?) answers' := by
  induction events generalizing s u t answers answers' with
  | nil => rfl
  | cons event events ih =>
    obtain ⟨s₁, answer, answers, hstep, hrest, rfl⟩ := cleanedMachine.run_cons_eq_ok.mp hs
    obtain ⟨hnow, htail⟩ := List.pairwise_cons.mp htimes
    have ht : t ≤ event.now := hnow event.now List.mem_cons_self
    have hlater : ∀ call, .check call ∈ events → call.key = key →
        call.routeLimit.getD defaults = (c, w) := fun call hcall =>
      hlimit call (List.mem_cons_of_mem event hcall)
    cases event with
    | cleanup now =>
      obtain ⟨rfl, rfl⟩ := Prod.mk.inj (Except.ok.inj hstep)
      rw [List.reduceOption_cons_of_none]
      exact ih (t := now) (h.cleanup ht) htail hlater hrest hu
    | check call =>
      obtain ⟨result, hcheck, rfl⟩ := cleaned_step_check hstep
      obtain ⟨u₁, result', answers', hcheck', hrest', rfl⟩ := limiterMachine.run_cons_eq_ok.mp hu
      obtain ⟨h₁, hresult⟩ := h.check hw hfull ht (hlimit call List.mem_cons_self) hcheck hcheck'
      have hdecisions := ih h₁ htail hlater hrest hrest'
      have hcalls : (LimiterEvent.check call :: events).filterMap LimiterEvent.check?
          = call :: events.filterMap LimiterEvent.check? := rfl
      rw [hcalls, List.reduceOption_cons_of_some, decisions_cons, decisions_cons, hdecisions]
      by_cases hkey : call.key = key
      · rw [hresult hkey]
      · rw [if_neg hkey, if_neg hkey]

/-! ## Which limits eviction leaves alone -/

/-- In the age of eviction a bucket refills whole, unless its window is longer. -/
theorem le_refill_iff (hw : 1 ≤ w) : (c : ℚ) ≤ cleanupAge * (c / w) ↔ c = 0 ∨ w ≤ 600 := by
  have hpos : (0 : ℚ) < w := Nat.cast_pos.mpr hw
  rw [← mul_div_assoc, le_div_iff₀ hpos, mul_comm cleanupAge, cleanupAge]
  norm_cast
  obtain rfl | hc := Nat.eq_zero_or_pos c
  · simp
  · rw [Nat.mul_le_mul_left_iff hc, or_iff_right hc.ne']

/-- **A limit whose window is no longer than the age of eviction** is not loosened. -/
theorem evictionHarmless_of_le (h : c = 0 ∨ w ≤ 600) (hw : 1 ≤ w) : EvictionHarmless c w := by
  intro dc dw key events cleaned kept answers answers' htimes hlimit hcleaned hkept
  rcases events with _ | ⟨event, events⟩
  · rfl
  · have hstart : Coupled (dc, dw) c w key event.now (.new dc dw) (.new dc dw) :=
      ⟨rfl, rfl, .unseen⟩
    have hsorted : (event.now :: (event :: events).map LimiterEvent.now).Pairwise (· ≤ ·) :=
      TokenBucket.pairwise_cons_self htimes
    exact hstart.decisions_eq hw ((le_refill_iff hw).mpr h) hsorted hlimit hcleaned hkept

/-- As many checks of one key as its limit has requests, all at one time. -/
def burst (key : RateLimitKey) (c w : ℕ) (t : ℚ) : List LimitCheck :=
  List.replicate c ⟨t, key, some (c, w)⟩

theorem map_now_burst : (burst key c w t).map LimitCheck.now = List.replicate c t :=
  List.map_replicate

theorem checksOf_burst (answers : List RateLimitResult) :
    checksOf key (burst key c w t) answers = (burst key c w t).zip answers := by
  refine List.filter_eq_self.mpr fun e he => decide_eq_true ?_
  rw [List.eq_of_mem_replicate (List.of_mem_zip he).1]

/-- Times that stand still, twice. -/
theorem replicate_append_sorted (m n : ℕ) (ht : t ≤ t') :
    (List.replicate m t ++ List.replicate n t').Pairwise (· ≤ ·) := by
  simp only [List.pairwise_append, List.pairwise_replicate_of_refl, List.mem_replicate, true_and]
  rintro a ⟨-, ha⟩ b ⟨-, hb⟩
  rwa [ha, hb]

/-- Draws at one time, as many as there are tokens, keep to the bound. -/
theorem conforms_replicate : TokenBucket.Conforms (c : ℚ) (c / w) (List.replicate c t) := by
  intro a e hae
  have hcount : (List.replicate c t).countP (fun s => a ≤ s ∧ s ≤ e) ≤ c := by
    simpa using List.countP_le_length (p := fun s => a ≤ s ∧ s ≤ e) (l := List.replicate c t)
  have hrefill : (0 : ℚ) ≤ (e - a) * (c / w) :=
    mul_nonneg (sub_nonneg.mpr hae) (div_nonneg (Nat.cast_nonneg c) (Nat.cast_nonneg w))
  calc ((List.replicate c t).countP fun s => a ≤ s ∧ s ≤ e : ℚ) ≤ c := by exact_mod_cast hcount
    _ ≤ c + (e - a) * (c / w) := le_add_of_nonneg_right hrefill

/-- **A key without a bucket is allowed the whole burst.** -/
theorem isAllowed_of_burst (hw : 1 ≤ w) {bucket : Option Bucket} {answers : List RateLimitResult}
    (hrun : (bucketMachine defaults).run none (burst key c w t) = .ok (bucket, answers)) :
    ∀ e ∈ (burst key c w t).zip answers, e.2.isAllowed = true := by
  rcases c with _ | n
  · exact fun e he => absurd he List.not_mem_nil
  · have hsorted : (t :: (burst key (n + 1) w t).map LimitCheck.now).Pairwise (· ≤ ·) := by
      rw [map_now_burst, ← List.replicate_succ]
      exact List.pairwise_replicate.mpr (.inr le_rfl)
    have hfull : (bucketMachine defaults).run
        (some (.ofTokens (n + 1 : ℕ) ((n + 1 : ℕ) / w) ⟨(n + 1 : ℕ), t⟩))
        (burst key (n + 1) w t) = .ok (bucket, answers) := by
      rw [← hrun, burst, List.replicate_succ]
      exact (bucket_run_none hw rfl _).symm
    have hdraws := bucket_run_draws hfull hsorted
    intro e he
    have hdraw := List.mem_map_of_mem (f := fun e => (e.1.now, e.2.isAllowed)) he
    rw [map_now_burst] at hdraws hsorted
    exact conforms_replicate.draws hsorted _ (hdraws ▸ hdraw)

theorem decisions_burst (hw : 1 ≤ w) {answers : List RateLimitResult}
    (hunseen : s.buckets.get key = none)
    (hrun : limiterMachine.run s (burst key c w t) = .ok (s', answers)) :
    decisions key (burst key c w t) answers = List.replicate c true := by
  have hlen : answers.length = (burst key c w t).length := limiterMachine.length_answers hrun
  have hbucket := limiter_run_bucket hrun key
  rw [checksOf_burst, hunseen, List.map_fst_zip hlen.ge, List.map_snd_zip hlen.le] at hbucket
  rw [decisions, checksOf_burst, List.eq_replicate_iff, List.length_map, List.length_zip, hlen,
    min_self]
  refine ⟨List.length_replicate, fun d hd => ?_⟩
  obtain ⟨e, he, rfl⟩ := List.mem_map.mp hd
  exact isAllowed_of_burst hw hbucket e he

/-- Without a cleanup, the background task changes nothing. -/
theorem cleaned_run_checks {calls : List LimitCheck} {answers : List (Option RateLimitResult)}
    (hrun : cleanedMachine.run s (calls.map .check) = .ok (s', answers)) :
    limiterMachine.run s calls = .ok (s', answers.reduceOption) := by
  induction calls generalizing s answers with
  | nil =>
    obtain ⟨rfl, rfl⟩ := Prod.mk.inj (Except.ok.inj hrun)
    rfl
  | cons call calls ih =>
    rw [List.map_cons] at hrun
    obtain ⟨s₁, answer, answers, hstep, hrest, rfl⟩ := cleanedMachine.run_cons_eq_ok.mp hrun
    obtain ⟨result, hcheck, rfl⟩ := cleaned_step_check hstep
    rw [List.reduceOption_cons_of_some]
    exact limiterMachine.run_cons_eq_ok.mpr ⟨s₁, result, _, hcheck, ih hrest, rfl⟩

theorem lastRefill_tryConsume (now : ℚ) (bucket : Bucket) :
    (bucket.tryConsume now).1.lastRefill = now := by
  rw [Bucket.tryConsume]
  split_ifs <;> rfl

/-- A bucket remembers the time of the last check. -/
theorem lastRefill_of_step {bucket? : Option Bucket} {bucket : Bucket} {call : LimitCheck}
    {answer : RateLimitResult}
    (h : (bucketMachine defaults).step bucket? call = .ok (some bucket, answer)) :
    bucket.lastRefill = call.now := by
  obtain ⟨hbucket, -⟩ := Prod.mk.inj (Except.ok.inj h)
  rw [← Option.some.inj hbucket]
  exact lastRefill_tryConsume _ _

/-- **Ten minutes after a burst its bucket is dropped.** -/
theorem get_cleanup_of_burst {answers : List RateLimitResult} (hunseen : s.buckets.get key = none)
    (hrun : limiterMachine.run s (burst key c w t) = .ok (s', answers)) :
    (s'.cleanup (t + cleanupAge) cleanupAge).buckets.get key = none := by
  have hlast : ∀ bucket, s'.buckets.get key = some bucket → bucket.lastRefill = t := by
    refine limiterMachine.run_along (P := fun _ call => call.key = key ∧ call.now = t)
      (I := fun _ s => ∀ bucket, s.buckets.get key = some bucket → bucket.lastRefill = t)
      (h := []) (fun _ s call s' answer _ hcall hstep bucket hget => ?_) ?_
      (limiterMachine.along_of_forall_mem (fun call hcall _ => ?_) s) hrun
    · have hself := limiter_step_self hstep
      rw [hcall.1, hget] at hself
      exact (lastRefill_of_step hself).trans hcall.2
    · intro bucket hget
      rw [hunseen] at hget
      cases hget
    · rw [List.eq_of_mem_replicate hcall]
      exact ⟨rfl, rfl⟩
  have hget : (s'.cleanup (t + cleanupAge) cleanupAge).buckets.get key = _ :=
    EntryMap.get_retain _ _ _
  rw [hget, Option.filter_eq_none_iff]
  intro bucket hbucket
  rw [hlast bucket hbucket, add_sub_cancel_left]
  simp

theorem decisions_append {calls calls' : List LimitCheck} {answers answers' : List RateLimitResult}
    (hlen : answers.length = calls.length) :
    decisions key (calls ++ calls') (answers ++ answers')
      = decisions key calls answers ++ decisions key calls' answers' := by
  rw [decisions, checksOf, List.zip_append hlen.symm, List.filter_append, List.map_append]
  rfl

/-- Two bursts, and the buckets dropped in between. -/
def burstTwice (key : RateLimitKey) (c w : ℕ) : List LimiterEvent :=
  (burst key c w 0).map .check ++ .cleanup cleanupAge :: (burst key c w cleanupAge).map .check

theorem check?_burstTwice : (burstTwice key c w).filterMap LimiterEvent.check?
    = burst key c w 0 ++ burst key c w cleanupAge := by
  rw [burstTwice, List.filterMap_append, List.filterMap_cons_none rfl, List.filterMap_map,
    List.filterMap_map]
  exact congrArg₂ _ (List.filterMap_some ..) (List.filterMap_some ..)

/-- **With the cleanup both bursts are allowed.** -/
theorem decisions_burstTwice (hw : 1 ≤ w) {answers : List (Option RateLimitResult)} {dc dw : ℕ}
    (hrun : cleanedMachine.run (.new dc dw) (burstTwice key c w) = .ok (s', answers)) :
    decisions key (burst key c w 0 ++ burst key c w cleanupAge) answers.reduceOption
      = List.replicate (c + c) true := by
  obtain ⟨s₁, first, _, hfirst, hrest, rfl⟩ := cleanedMachine.run_append_eq_ok.mp hrun
  obtain ⟨s₂, answer, second, hcleanup, hsecond, rfl⟩ := cleanedMachine.run_cons_eq_ok.mp hrest
  obtain ⟨rfl, rfl⟩ := Prod.mk.inj (Except.ok.inj hcleanup)
  have hfirst' := cleaned_run_checks hfirst
  have hunseen := get_cleanup_of_burst rfl hfirst'
  rw [zero_add] at hunseen
  rw [List.reduceOption_append, List.reduceOption_cons_of_none,
    decisions_append (limiterMachine.length_answers hfirst'), decisions_burst hw rfl hfirst',
    decisions_burst hw hunseen (cleaned_run_checks hsecond), List.replicate_append_replicate]

/-- The checks of the two bursts, under the limit and in its time. -/
theorem of_mem_bursts {call : LimitCheck}
    (h : call ∈ burst key c w 0 ++ burst key c w cleanupAge) :
    call.routeLimit = some (c, w) ∧ 0 ≤ call.now ∧ call.now ≤ cleanupAge := by
  obtain h | h := List.mem_append.mp h <;>
    rw [List.eq_of_mem_replicate h] <;> norm_num [cleanupAge]

/-- **Without it they are not**: the limiter refills less than a burst in between. -/
theorem decisions_bursts_ne {answers : List RateLimitResult} {dc dw : ℕ} (hc : c ≠ 0)
    (hw : 600 < w)
    (hrun : limiterMachine.run (.new dc dw) (burst key c w 0 ++ burst key c w cleanupAge)
      = .ok (s', answers)) :
    decisions key (burst key c w 0 ++ burst key c w cleanupAge) answers
      ≠ List.replicate (c + c) true := by
  intro hall
  have htimes : ((burst key c w 0 ++ burst key c w cleanupAge).map LimitCheck.now).Pairwise
      (· ≤ ·) := by
    rw [List.map_append, map_now_burst, map_now_burst]
    exact replicate_append_sorted c c (by norm_num [cleanupAge])
  have hlimit : ∀ call ∈ burst key c w 0 ++ burst key c w cleanupAge, call.key = key →
      call.routeLimit.getD (dc, dw) = (c, w) := fun call hcall _ => by
    rw [(of_mem_bursts hcall).1, Option.getD_some]
  obtain ⟨t₀, hsorted, hdraws⟩ := limiter_run_draws hrun htimes (Nat.one_le_of_lt hw)
    fun call hfirst => hlimit call (mem_of_find?_key hfirst).1 (mem_of_find?_key hfirst).2
  rw [decisions, List.eq_replicate_iff, List.length_map, List.forall_mem_map] at hall
  have hwindow := TokenBucket.countP_draws_le (c := (c : ℚ)) (Nat.cast_nonneg c)
    (div_nonneg (Nat.cast_nonneg c) (Nat.cast_nonneg w)) (b := ⟨c, t₀⟩) (Nat.cast_nonneg c) hsorted
    (by norm_num [cleanupAge] : 0 ≤ cleanupAge)
  rw [← hdraws, List.countP_eq_length.mpr, List.length_map, hall.1, sub_zero] at hwindow
  · have hrefill := mt (le_refill_iff (c := c) (Nat.one_le_of_lt hw)).mp
      (not_or.mpr ⟨hc, Nat.not_le.mpr hw⟩)
    push_cast at hwindow
    linarith
  · intro d hd
    obtain ⟨e, he, rfl⟩ := List.mem_map.mp hd
    have hcall := of_mem_bursts (List.of_mem_zip (List.mem_of_mem_filter he)).1
    exact decide_eq_true ⟨hcall.2.1, hcall.2.2, hall.2 e he⟩

/-- The bursts are made one after the other. -/
theorem burstTwice_sorted :
    ((burstTwice key c w).map LimiterEvent.now).Pairwise (· ≤ ·) := by
  have hnow : ∀ t, ((burst key c w t).map LimiterEvent.check).map LimiterEvent.now
      = List.replicate c t := fun t => by simp [burst, LimiterEvent.now]
  rw [burstTwice, List.map_append, List.map_cons, hnow, hnow, LimiterEvent.now,
    ← List.replicate_succ]
  exact replicate_append_sorted c (c + 1) (by norm_num [cleanupAge])

theorem routeLimit_of_mem_burstTwice {call : LimitCheck}
    (h : .check call ∈ burstTwice key c w) : call.routeLimit = some (c, w) := by
  simp only [burstTwice, burst, List.map_replicate, List.mem_append, List.mem_cons,
    List.mem_replicate, reduceCtorEq, LimiterEvent.check.injEq, false_or] at h
  obtain ⟨-, rfl⟩ | ⟨-, rfl⟩ := h <;> rfl

/-- **A limit with a longer window is loosened**: what it allows is spent, forgotten, and spent
again. -/
theorem not_evictionHarmless (hc : c ≠ 0) (hw : 600 < w) : ¬ EvictionHarmless c w := by
  intro h
  obtain ⟨cleaned, answers, hcleaned⟩ := cleanedMachine.run_total
    (fun s event => by cases event <;> exact ⟨_, rfl⟩) (.new 0 0) (burstTwice ⟨"r", "c"⟩ c w)
  obtain ⟨kept, answers', hkept⟩ := limiterMachine.run_total (fun s call => ⟨_, rfl⟩) (.new 0 0)
    ((burstTwice ⟨"r", "c"⟩ c w).filterMap LimiterEvent.check?)
  have heq := h 0 0 ⟨"r", "c"⟩ _ _ _ _ _ burstTwice_sorted
    (fun call hcall _ => by rw [routeLimit_of_mem_burstTwice hcall, Option.getD_some])
    hcleaned hkept
  rw [check?_burstTwice] at heq hkept
  have hspent := decisions_burstTwice (Nat.one_le_of_lt hw) hcleaned
  exact decisions_bursts_ne hc hw hkept (heq.symm.trans hspent)

end

/-- **Eviction never loosens a limit** whose window is at most ten minutes, and loosens every
other that allows anything. -/
theorem evictionHarmless_iff {c w : ℕ} (hw : 1 ≤ w) : EvictionHarmless c w ↔ c = 0 ∨ w ≤ 600 := by
  refine ⟨fun h => ?_, fun h => evictionHarmless_of_le h hw⟩
  by_contra hlong
  rw [not_or, not_le] at hlong
  exact not_evictionHarmless hlong.1 hlong.2 h

/-- A hundred requests a minute stay a hundred. -/
theorem evictionHarmless_minute : EvictionHarmless 100 60 :=
  (evictionHarmless_iff (by decide)).mpr (.inr (by decide))

/-- **One request an hour.**  The second one, after ten minutes, is refused; but it is allowed if
the bucket has been dropped. -/
theorem eviction_loosens :
    (cleanedMachine.run (.new 1 3600) [.check ⟨0, ⟨"r", "c"⟩, none⟩, .cleanup 600,
      .check ⟨600, ⟨"r", "c"⟩, none⟩]).map Prod.snd = .ok [some .allowed, none, some .allowed] ∧
    (limiterMachine.run (.new 1 3600) [⟨0, ⟨"r", "c"⟩, none⟩, ⟨600, ⟨"r", "c"⟩, none⟩]).map
      Prod.snd = .ok [.allowed, .limited (.rational 3000)] ∧
    ¬ EvictionHarmless 1 3600 :=
  ⟨by decide +kernel, by decide +kernel, not_evictionHarmless (by decide) (by decide)⟩

end PqcGateway
