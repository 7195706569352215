import PqcGateway.Limit.Eviction
import Mathlib.Algebra.Order.Archimedean.Basic
import Mathlib.Data.Finset.Dedup
import Mathlib.Data.Finset.Order

/-!
# Limit/LimitChange — a route's limit changes, and its buckets stay

The limit is an argument of every check, but a bucket keeps the capacity and the rate it was made
with: once a key has a bucket, the limit it is checked under is not looked at.

* `limitTakesEffect_iff` — a changed limit holds from then on exactly if the limit of the key's
  first check is no looser.
* `capacity_le_of_takesEffect` / `rate_le_of_takesEffect` — a looser one shows: the old capacity
  passes at once, and the old rate for good.
* `eq_zero_of_takesEffect` — a limit without a window is looser than any, unless it lets nothing
  through.
* `old_limit_stays` — five requests a second become one a minute, and five pass at once.
-/

namespace PqcGateway

/-- **The limit takes effect**: whatever is checked after the history, with the key's checks under
the limit of `c` requests in `w` seconds, no window of length `L` lets through more than
`c + L c / w` of them. -/
def LimitTakesEffect (dc dw : ℕ) (key : RateLimitKey) (history : List LimitCheck) (c w : ℕ) :
    Prop :=
  ∀ (later : List LimitCheck) (limiter limiter' : RateLimiter)
    (answers answers' : List RateLimitResult),
    ((history ++ later).map LimitCheck.now).Pairwise (· ≤ ·) →
    (∀ call ∈ later, call.key = key → call.routeLimit.getD (dc, dw) = (c, w)) →
    limiterMachine.run (.new dc dw) history = .ok (limiter, answers) →
    limiterMachine.run limiter later = .ok (limiter', answers') →
    ∀ a L : ℚ, 0 ≤ L → (allowedIn key a (a + L) later answers' : ℚ) ≤ c + L * c / w

section

variable {dc dw c₀ w₀ c w : ℕ} {key : RateLimitKey} {history calls : List LimitCheck}

/-! ## A limit no looser than the new one

What the key's first check is under bounds the whole run, and so what comes later. -/

theorem rate_le_iff (hw₀ : 1 ≤ w₀) (hw : 1 ≤ w) :
    (c₀ : ℚ) / w₀ ≤ c / w ↔ c₀ * w ≤ c * w₀ := by
  rw [div_le_div_iff₀ (Nat.cast_pos.mpr hw₀) (Nat.cast_pos.mpr hw)]
  norm_cast

/-- What is allowed later is allowed in the whole run. -/
theorem allowedIn_append {later : List LimitCheck} {answers answers' : List RateLimitResult}
    (hlen : answers.length = history.length) (a e : ℚ) :
    allowedIn key a e (history ++ later) (answers ++ answers')
      = allowedIn key a e history answers + allowedIn key a e later answers' := by
  rw [allowedIn, List.zip_append hlen.symm, List.countP_append]
  rfl

/-- **A run bounded by a limit that is no looser is bounded by the new one.** -/
theorem allowedIn_le_of_first {later : List LimitCheck} {limiter limiter' : RateLimiter}
    {answers answers' : List RateLimitResult}
    (htimes : ((history ++ later).map LimitCheck.now).Pairwise (· ≤ ·))
    (hrun : limiterMachine.run (.new dc dw) history = .ok (limiter, answers))
    (hlater : limiterMachine.run limiter later = .ok (limiter', answers'))
    (hw₀ : 1 ≤ w₀)
    (hfirst : ∀ call, (history ++ later).find? (fun call => call.key = key) = some call →
      call.routeLimit.getD (dc, dw) = (c₀, w₀))
    (hcapacity : c₀ ≤ c) (hrate : (c₀ : ℚ) / w₀ ≤ c / w) {a L : ℚ} (hL : 0 ≤ L) :
    (allowedIn key a (a + L) later answers' : ℚ) ≤ c + L * c / w := by
  have hwhole := limiterMachine.run_append_eq_ok.mpr ⟨limiter, answers, answers', hrun, hlater, rfl⟩
  have hbound := allowedIn_le hwhole htimes hw₀ hfirst (a := a) hL
  rw [allowedIn_append (limiterMachine.length_answers hrun), mul_div_assoc] at hbound
  push_cast at hbound
  have hbefore : (0 : ℚ) ≤ allowedIn key a (a + L) history answers := Nat.cast_nonneg _
  have hcapacity' : (c₀ : ℚ) ≤ c := Nat.cast_le.mpr hcapacity
  have hrefill : L * (c₀ / w₀ : ℚ) ≤ L * (c / w) := mul_le_mul_of_nonneg_left hrate hL
  rw [mul_div_assoc]
  linarith

/-- Checks of the key that go on from its first one, and are all refused, let nothing through. -/
theorem allowedIn_eq_zero {later : List LimitCheck} {limiter limiter' : RateLimiter}
    {answers answers' : List RateLimitResult} {call : LimitCheck}
    (hrun : limiterMachine.run (.new dc dw) history = .ok (limiter, answers))
    (hlater : limiterMachine.run limiter later = .ok (limiter', answers'))
    (hfirst : history.find? (fun call => call.key = key) = some call)
    (hlimit : call.routeLimit.getD (dc, dw) = (0, w₀)) (a e : ℚ) :
    allowedIn key a e later answers' = 0 := by
  have hwhole := limiterMachine.run_append_eq_ok.mpr ⟨limiter, answers, answers', hrun, hlater, rfl⟩
  have hfind : (history ++ later).find? (fun call => call.key = key) = some call := by
    rw [List.find?_append, hfirst, Option.some_or]
  have hrefused := limiter_run_refused hwhole hfind hlimit
  have hnone : allowedIn key a e (history ++ later) (answers ++ answers') = 0 := by
    refine List.countP_eq_zero.mpr fun x hx hallowed => ?_
    obtain ⟨hkey, -, hpass⟩ := of_decide_eq_true hallowed
    have hmem : x ∈ checksOf key (history ++ later) (answers ++ answers') :=
      List.mem_filter.mpr ⟨hx, decide_eq_true hkey⟩
    exact Bool.false_ne_true ((hrefused x hmem).symm.trans hpass)
  rw [allowedIn_append (limiterMachine.length_answers hrun)] at hnone
  exact (Nat.add_eq_zero_iff.mp hnone).2

/-- **A limit takes effect** if the key's first check, if any, was under one no looser. -/
theorem limitTakesEffect_of_first (hw : 1 ≤ w)
    (hfirst : ∀ call, history.find? (fun call => call.key = key) = some call →
      ∀ c₀ w₀, call.routeLimit.getD (dc, dw) = (c₀, w₀) → c₀ ≤ c ∧ c₀ * w ≤ c * w₀) :
    LimitTakesEffect dc dw key history c w := by
  intro later limiter limiter' answers answers' htimes hlimit hrun hlater a L hL
  cases hseen : history.find? (fun call => call.key = key) with
  | none =>
    refine allowedIn_le_of_first htimes hrun hlater hw (fun call hcall => ?_) le_rfl le_rfl hL
    rw [List.find?_append, hseen, Option.none_or] at hcall
    exact hlimit call (mem_of_find?_key hcall).1 (mem_of_find?_key hcall).2
  | some call₀ =>
    obtain ⟨c₀, w₀, hlimit₀⟩ : ∃ c₀ w₀, call₀.routeLimit.getD (dc, dw) = (c₀, w₀) := ⟨_, _, rfl⟩
    obtain ⟨hcapacity, hrate⟩ := hfirst call₀ hseen c₀ w₀ hlimit₀
    obtain rfl | hw₀ := Nat.eq_zero_or_pos w₀
    · -- without a window the first limit is no looser only if it is of no requests
      obtain rfl : c₀ = 0 := by simpa [(Nat.one_le_iff_ne_zero.mp hw)] using hrate
      rw [allowedIn_eq_zero hrun hlater hseen hlimit₀, Nat.cast_zero]
      exact add_nonneg (Nat.cast_nonneg c)
        (div_nonneg (mul_nonneg hL (Nat.cast_nonneg c)) (Nat.cast_nonneg w))
    · refine allowedIn_le_of_first htimes hrun hlater hw₀ (fun call hcall => ?_) hcapacity
        ((rate_le_iff hw₀ hw).mpr hrate) hL
      rw [List.find?_append, hseen, Option.some_or] at hcall
      obtain rfl := Option.some.inj hcall
      exact hlimit₀

/-! ## A looser one stays in force

Where the first limit has a window, its bucket is a token bucket after the history as well: left to
fill, it lets its whole capacity through, and then a request whenever it has a token. -/

/-- A run from a token bucket leaves a token bucket, of the same capacity and rate. -/
theorem bucket_run_ofTokens {defaults : ℕ × ℕ} {c r : ℚ} (hc : 0 ≤ c) (hr : 0 ≤ r)
    {b : TokenBucket ℚ} {bucket? : Option Bucket} {answers : List RateLimitResult}
    (hrun : (bucketMachine defaults).run (some (.ofTokens c r b)) calls = .ok (bucket?, answers))
    (hb : 0 ≤ b.tokens) {t : ℚ} (htimes : (b.since :: calls.map LimitCheck.now).Pairwise (· ≤ ·))
    (hend : ∀ s ∈ b.since :: calls.map LimitCheck.now, s ≤ t) :
    ∃ b' : TokenBucket ℚ, bucket? = some (.ofTokens c r b') ∧ 0 ≤ b'.tokens ∧ b'.since ≤ t := by
  induction calls generalizing b answers with
  | nil =>
    obtain ⟨rfl, -⟩ := Prod.mk.inj (Except.ok.inj hrun)
    exact ⟨b, rfl, hb, hend b.since List.mem_cons_self⟩
  | cons call calls ih =>
    obtain ⟨bucket?₁, answer, answers, hstep, hrest, rfl⟩ :=
      (bucketMachine defaults).run_cons_eq_ok.mp hrun
    obtain ⟨hsince, htail⟩ := List.pairwise_cons.mp htimes
    have hnow : b.since ≤ call.now := hsince call.now List.mem_cons_self
    rw [bucket_step_ofTokens hnow] at hstep
    rw [← (Prod.mk.inj (Except.ok.inj hstep)).1] at hrest
    refine ih hrest (TokenBucket.tokens_draw_nonneg hc hr hb hnow) ?_ ?_
    · rwa [TokenBucket.draw_since]
    · rw [TokenBucket.draw_since]
      exact (List.forall_mem_cons.mp hend).2

/-- **Once a key has been checked its bucket is made**, under the limit of the first check. -/
theorem get_of_first {limiter : RateLimiter} {answers : List RateLimitResult}
    {call : LimitCheck} (hw₀ : 1 ≤ w₀)
    (hrun : limiterMachine.run (.new dc dw) history = .ok (limiter, answers))
    (htimes : (history.map LimitCheck.now).Pairwise (· ≤ ·))
    (hfirst : history.find? (fun call => call.key = key) = some call)
    (hlimit : call.routeLimit.getD (dc, dw) = (c₀, w₀)) {t : ℚ}
    (hend : ∀ s ∈ history.map LimitCheck.now, s ≤ t) :
    ∃ b : TokenBucket ℚ, limiter.buckets.get key = some (.ofTokens c₀ (c₀ / w₀) b) ∧
      0 ≤ b.tokens ∧ b.since ≤ t := by
  have hlen := limiterMachine.length_answers hrun
  have hbucket := limiter_run_bucket hrun key
  have hhead := (head?_checksOf hlen key).trans hfirst
  have hsub := (checksOf_sublist hlen key).map LimitCheck.now
  generalize (checksOf key history answers).map Prod.fst = calls at hbucket hhead hsub
  obtain ⟨calls, rfl⟩ := List.head?_eq_some_iff.mp hhead
  have hfull := (bucket_run_none hw₀ hlimit calls).symm.trans hbucket
  exact bucket_run_ofTokens (Nat.cast_nonneg c₀)
    (div_nonneg (Nat.cast_nonneg c₀) (Nat.cast_nonneg w₀)) hfull (Nat.cast_nonneg c₀)
    (TokenBucket.pairwise_cons_self (htimes.sublist hsub)) fun s hs =>
      hend s (hsub.subset (by simpa using hs))

/-- Checks of the key at these times, under the limit of `c` requests in `w` seconds. -/
def asks (key : RateLimitKey) (c w : ℕ) (ts : List ℚ) : List LimitCheck :=
  ts.map fun t => ⟨t, key, some (c, w)⟩

theorem map_now_asks (ts : List ℚ) : (asks key c w ts).map LimitCheck.now = ts :=
  List.map_map.trans (List.map_id ts)

theorem checksOf_asks {ts : List ℚ} {answers : List RateLimitResult}
    (hlen : answers.length = (asks key c w ts).length) :
    (checksOf key (asks key c w ts) answers).map (fun e => e.1.now) = ts := by
  have hall : checksOf key (asks key c w ts) answers = (asks key c w ts).zip answers := by
    refine List.filter_eq_self.mpr fun e he => decide_eq_true ?_
    obtain ⟨t, -, hcall⟩ := List.mem_map.mp (List.of_mem_zip he).1
    rw [← hcall]
  have hcalls : ((asks key c w ts).zip answers).map Prod.fst = asks key c w ts :=
    List.map_fst_zip hlen.ge
  calc (checksOf key (asks key c w ts) answers).map (fun e => e.1.now)
      = (((asks key c w ts).zip answers).map Prod.fst).map LimitCheck.now := by
        rw [hall, List.map_map]
        rfl
    _ = ts := by rw [hcalls, map_now_asks]

/-- Checks that all pass are allowed in any window they are made in. -/
theorem allowedIn_asks {ts : List ℚ} {answers : List RateLimitResult}
    (hlen : answers.length = (asks key c w ts).length)
    (hall : ∀ e ∈ checksOf key (asks key c w ts) answers, e.2.isAllowed = true) {a e : ℚ}
    (hwindow : ∀ t ∈ ts, a ≤ t ∧ t ≤ e) :
    allowedIn key a e (asks key c w ts) answers = ts.length := by
  have htimes := checksOf_asks hlen
  have hcount : (checksOf key (asks key c w ts) answers).length = ts.length :=
    (List.length_map _).symm.trans (congrArg List.length htimes)
  rw [allowedIn_eq, ← hcount, List.countP_map, List.countP_eq_length]
  intro x hx
  obtain ⟨hafter, hbefore⟩ := hwindow x.1.now (htimes ▸ List.mem_map_of_mem hx)
  exact decide_eq_true ⟨hafter, hbefore, hall x hx⟩

/-- **Where the limit takes effect, what all passes is within it.** -/
theorem length_le_of_takesEffect (h : LimitTakesEffect dc dw key history c w)
    {limiter limiter' : RateLimiter} {answers answers' : List RateLimitResult} {ts : List ℚ}
    (hrun : limiterMachine.run (.new dc dw) history = .ok (limiter, answers))
    (hlater : limiterMachine.run limiter (asks key c w ts) = .ok (limiter', answers'))
    (htimes : (history.map LimitCheck.now ++ ts).Pairwise (· ≤ ·))
    (hall : ∀ e ∈ checksOf key (asks key c w ts) answers', e.2.isAllowed = true) {a L : ℚ}
    (hL : 0 ≤ L) (hwindow : ∀ t ∈ ts, a ≤ t ∧ t ≤ a + L) : (ts.length : ℚ) ≤ c + L * c / w := by
  have hbound := h _ _ _ _ _ (by rwa [List.map_append, map_now_asks]) (fun call hcall _ => by
    obtain ⟨t, -, rfl⟩ := List.mem_map.mp hcall
    rfl) hrun hlater a L hL
  rwa [allowedIn_asks (limiterMachine.length_answers hlater) hall hwindow] at hbound

/-- So are draws from the key's bucket that all succeed. -/
theorem length_le_of_draws (h : LimitTakesEffect dc dw key history c w)
    {limiter : RateLimiter} {answers : List RateLimitResult}
    (hrun : limiterMachine.run (.new dc dw) history = .ok (limiter, answers))
    {c₀ r₀ : ℚ} {b : TokenBucket ℚ} (hget : limiter.buckets.get key = some (.ofTokens c₀ r₀ b))
    {ts : List ℚ} (htimes : (history.map LimitCheck.now ++ ts).Pairwise (· ≤ ·))
    (hsince : ∀ t ∈ ts, b.since ≤ t) (hall : ∀ d ∈ b.draws c₀ r₀ ts, d.2 = true) {a L : ℚ}
    (hL : 0 ≤ L) (hwindow : ∀ t ∈ ts, a ≤ t ∧ t ≤ a + L) : (ts.length : ℚ) ≤ c + L * c / w := by
  obtain ⟨limiter', answers', hlater⟩ :=
    limiterMachine.run_total (fun s call => ⟨_, rfl⟩) limiter (asks key c w ts)
  have hsorted := List.pairwise_cons.mpr ⟨hsince, (List.pairwise_append.mp htimes).2.1⟩
  have hdraws := limiter_run_draws_of_get hget hlater (by rwa [map_now_asks])
  rw [checksOf_asks (limiterMachine.length_answers hlater)] at hdraws
  refine length_le_of_takesEffect h hrun hlater htimes (fun e he => ?_) hL hwindow
  exact hall (e.1.now, e.2.isAllowed) (hdraws ▸ List.mem_map_of_mem he)

/-- A start and a rate that pay for any number of draws: the rate pays for each. -/
theorem one_le_of_forall_le {c q : ℚ} (h : ∀ n : ℕ, (n : ℚ) + 1 ≤ c + n * q) : 1 ≤ q := by
  by_contra hq
  obtain ⟨n, hn⟩ := exists_nat_gt (c / (1 - q))
  rw [div_lt_iff₀ (sub_pos.mpr (not_le.mp hq))] at hn
  linarith [h n]

/-- A full bucket pays for its capacity at once. -/
theorem draws_replicate {b : TokenBucket ℚ} {t : ℚ}
    (hfull : (c₀ : ℚ) ≤ b.tokens + (t - b.since) * (c₀ / w₀)) :
    ∀ d ∈ b.draws (c₀ : ℚ) (c₀ / w₀) (List.replicate c₀ t), d.2 = true := by
  have hconforms : TokenBucket.Conforms (c₀ : ℚ) (c₀ / w₀) (List.replicate c₀ t) :=
    conforms_replicate
  cases c₀ with
  | zero => exact fun d hd => absurd hd List.not_mem_nil
  | succ n =>
    rw [List.replicate_succ] at hconforms ⊢
    rw [TokenBucket.draws_of_full hfull]
    refine hconforms.draws ?_
    rw [← List.replicate_succ, ← List.replicate_succ]
    exact List.pairwise_replicate.mpr (.inr le_rfl)

/-- Times that are `p` apart, from `t` on. -/
def polls (t p : ℚ) (n : ℕ) : List ℚ := (List.range n).map fun i : ℕ => t + i * p

theorem polls_spaced {t p : ℚ} (hp : 0 ≤ p) (n : ℕ) :
    (polls t p n).Pairwise fun s s' => s + p ≤ s' := by
  refine List.pairwise_map.mpr (List.pairwise_lt_range.imp fun {i j} hij => ?_)
  have hstep : ((i + 1 : ℕ) : ℚ) * p ≤ j * p :=
    mul_le_mul_of_nonneg_right (Nat.cast_le.mpr hij) hp
  push_cast at hstep
  linarith

theorem of_mem_polls {t p s : ℚ} (hp : 0 ≤ p) {n : ℕ} (h : s ∈ polls t p (n + 1)) :
    t ≤ s ∧ s ≤ t + n * p := by
  obtain ⟨i, hi, rfl⟩ := List.mem_map.mp h
  have hlast : (i : ℚ) * p ≤ n * p :=
    mul_le_mul_of_nonneg_right (Nat.cast_le.mpr (Nat.le_of_lt_succ (List.mem_range.mp hi))) hp
  exact ⟨le_add_of_nonneg_right (mul_nonneg (Nat.cast_nonneg i) hp), by linarith⟩

section

variable {limiter : RateLimiter} {answers : List RateLimitResult} {b : TokenBucket ℚ} {t : ℚ}
  (h : LimitTakesEffect dc dw key history c w)
  (hrun : limiterMachine.run (.new dc dw) history = .ok (limiter, answers))
  (htimes : (history.map LimitCheck.now).Pairwise (· ≤ ·))
  (hend : ∀ s ∈ history.map LimitCheck.now, s ≤ t)
  (hget : limiter.buckets.get key = some (.ofTokens c₀ (c₀ / w₀) b)) (hb : 0 ≤ b.tokens)
  (hsince : b.since ≤ t) (hc₀ : 1 ≤ c₀) (hw₀ : 1 ≤ w₀)

include h hrun htimes hend hget hb hsince hc₀ hw₀

/-- **The old capacity passes at once**, when the bucket is full. -/
theorem capacity_le_of_takesEffect : c₀ ≤ c := by
  have hwindow : (0 : ℚ) < w₀ := Nat.cast_pos.mpr hw₀
  have hrate : (0 : ℚ) < c₀ / w₀ := div_pos (Nat.cast_pos.mpr hc₀) hwindow
  have hfull : (c₀ : ℚ) ≤ b.tokens + (t + w₀ - b.since) * (c₀ / w₀) :=
    TokenBucket.full_of_idle hrate.le (mul_div_cancel₀ _ hwindow.ne').ge hb (by linarith)
  have hnow : ∀ s ∈ List.replicate c₀ (t + w₀ : ℚ), s = t + w₀ := fun s => List.eq_of_mem_replicate
  have hsorted : (history.map LimitCheck.now ++ List.replicate c₀ (t + w₀ : ℚ)).Pairwise
      (· ≤ ·) := by
    refine List.pairwise_append.mpr ⟨htimes, List.pairwise_replicate.mpr (.inr le_rfl), ?_⟩
    intro s hs s' hs'
    linarith [hend s hs, hnow s' hs']
  have hburst := length_le_of_draws h hrun hget hsorted
    (fun s hs => by linarith [hnow s hs]) (draws_replicate hfull) le_rfl
    fun s hs => ⟨(hnow s hs).ge, by rw [hnow s hs, add_zero]⟩
  rw [List.length_replicate, zero_mul, zero_div, add_zero] at hburst
  exact Nat.cast_le.mp hburst

/-- **The old rate passes for good**, to checks that come whenever there is a token. -/
theorem rate_le_of_takesEffect : (c₀ : ℚ) / w₀ ≤ c / w := by
  have hcapacity : (1 : ℚ) ≤ c₀ := Nat.one_le_cast.mpr hc₀
  have hwindow : (0 : ℚ) < w₀ := Nat.cast_pos.mpr hw₀
  have hrate : (0 : ℚ) < c₀ / w₀ := div_pos (Nat.cast_pos.mpr hc₀) hwindow
  have hp : (0 : ℚ) ≤ 1 / (c₀ / w₀) := (one_div_pos.mpr hrate).le
  have hstart : b.since + 1 / (c₀ / w₀ : ℚ) ≤ t + w₀ := by
    rw [one_div_div]
    exact add_le_add hsince (div_le_self hwindow.le hcapacity)
  have hpolls : ∀ n : ℕ, (n : ℚ) + 1 ≤ c + n * (1 / (c₀ / w₀) * (c / w)) := by
    intro n
    have hspaced := polls_spaced (t := t + w₀) hp (n + 1)
    have hsorted : (history.map LimitCheck.now
        ++ polls (t + w₀) (1 / (c₀ / w₀)) (n + 1)).Pairwise (· ≤ ·) := by
      refine List.pairwise_append.mpr ⟨htimes, hspaced.imp fun hs => by linarith, ?_⟩
      intro s hs s' hs'
      linarith [hend s hs, (of_mem_polls hp hs').1]
    have hafter : ∀ s ∈ polls (t + w₀) (1 / (c₀ / w₀)) (n + 1), b.since + 1 / (c₀ / w₀) ≤ s :=
      fun s hs => hstart.trans (of_mem_polls hp hs).1
    have hlen := length_le_of_draws h hrun hget hsorted
      (fun s hs => by linarith [hafter s hs])
      (TokenBucket.snd_of_mem_draws_of_spaced hcapacity hrate hb
        (List.pairwise_cons.mpr ⟨hafter, hspaced⟩))
      (mul_nonneg (Nat.cast_nonneg n) hp) (fun s hs => of_mem_polls hp hs)
    rw [polls, List.length_map, List.length_range] at hlen
    push_cast at hlen
    calc (n : ℚ) + 1 ≤ c + n * (1 / (c₀ / w₀)) * c / w := hlen
      _ = c + n * (1 / (c₀ / w₀) * (c / w)) := by ring
  have hpays := one_le_of_forall_le hpolls
  rwa [one_div_mul_eq_div, one_le_div hrate] at hpays

end

/-- The history has an end. -/
theorem exists_history_end (history : List LimitCheck) :
    ∃ t, ∀ s ∈ history.map LimitCheck.now, s ≤ t := by
  obtain ⟨t, hend⟩ := Finset.exists_le (history.map LimitCheck.now).toFinset
  simp only [List.mem_toFinset] at hend
  exact ⟨t, hend⟩

/-- **Without a window any number passes at once**, so no other limit takes effect. -/
theorem eq_zero_of_takesEffect (htimes : (history.map LimitCheck.now).Pairwise (· ≤ ·))
    {call : LimitCheck} (hfirst : history.find? (fun call => call.key = key) = some call)
    (hlimit : call.routeLimit.getD (dc, dw) = (c₀, 0))
    (h : LimitTakesEffect dc dw key history c w) : c₀ = 0 := by
  by_contra hc₀
  obtain ⟨limiter, answers, hrun⟩ :=
    limiterMachine.run_total (fun s call => ⟨_, rfl⟩) (.new dc dw) history
  obtain ⟨t, hend⟩ := exists_history_end history
  -- one check more than the new limit has requests, all at one time
  obtain ⟨limiter', answers', hlater⟩ := limiterMachine.run_total (fun s call => ⟨_, rfl⟩) limiter
    (asks key c w (List.replicate (c + 1) t))
  have hwhole := limiterMachine.run_append_eq_ok.mpr ⟨limiter, answers, answers', hrun, hlater, rfl⟩
  have hfind : (history ++ asks key c w (List.replicate (c + 1) t)).find?
      (fun call => call.key = key) = some call := by
    rw [List.find?_append, hfirst, Option.some_or]
  have hpass := limiter_run_unlimited (Nat.one_le_iff_ne_zero.mpr hc₀) hwhole hfind hlimit
  have hall : ∀ e ∈ checksOf key (asks key c w (List.replicate (c + 1) t)) answers',
      e.2.isAllowed = true := by
    rw [checksOf, List.zip_append (limiterMachine.length_answers hrun).symm,
      List.filter_append] at hpass
    exact fun e he => hpass e (List.mem_append_right _ he)
  have hnow : ∀ s ∈ List.replicate (c + 1) t, s = t := fun s => List.eq_of_mem_replicate
  have hsorted : (history.map LimitCheck.now ++ List.replicate (c + 1) t).Pairwise (· ≤ ·) :=
    List.pairwise_append.mpr ⟨htimes, List.pairwise_replicate.mpr (.inr le_rfl),
      fun s hs s' hs' => (hend s hs).trans (hnow s' hs').ge⟩
  have hbound := length_le_of_takesEffect h hrun hlater hsorted hall le_rfl
    fun s hs => ⟨(hnow s hs).ge, by rw [hnow s hs, add_zero]⟩
  rw [List.length_replicate, zero_mul, zero_div, add_zero] at hbound
  exact absurd (Nat.cast_le.mp hbound) (Nat.not_succ_le_self c)

/-- **A limit that takes effect** is no tighter than the one of the key's first check. -/
theorem first_of_limitTakesEffect (hw : 1 ≤ w)
    (htimes : (history.map LimitCheck.now).Pairwise (· ≤ ·)) {call : LimitCheck}
    (hfirst : history.find? (fun call => call.key = key) = some call)
    (hlimit : call.routeLimit.getD (dc, dw) = (c₀, w₀))
    (h : LimitTakesEffect dc dw key history c w) : c₀ ≤ c ∧ c₀ * w ≤ c * w₀ := by
  obtain rfl | hc₀ := Nat.eq_zero_or_pos c₀
  · exact ⟨Nat.zero_le c, by simp⟩
  obtain rfl | hw₀ := Nat.eq_zero_or_pos w₀
  · exact absurd (eq_zero_of_takesEffect htimes hfirst hlimit h) hc₀.ne'
  · obtain ⟨limiter, answers, hrun⟩ :=
      limiterMachine.run_total (fun s call => ⟨_, rfl⟩) (.new dc dw) history
    obtain ⟨t, hend⟩ := exists_history_end history
    obtain ⟨b, hget, hb, hsince⟩ := get_of_first hw₀ hrun htimes hfirst hlimit hend
    have hrate := rate_le_of_takesEffect h hrun htimes hend hget hb hsince hc₀ hw₀
    exact ⟨capacity_le_of_takesEffect h hrun htimes hend hget hb hsince hc₀ hw₀,
      (rate_le_iff hw₀ hw).mp hrate⟩

end

/-- **A changed limit takes effect** exactly if the one that the key was first checked under, if it
was checked, is no looser, in requests at once and in requests a second. -/
theorem limitTakesEffect_iff {dc dw : ℕ} {key : RateLimitKey} {history : List LimitCheck}
    {c w : ℕ} (hw : 1 ≤ w) (htimes : (history.map LimitCheck.now).Pairwise (· ≤ ·)) :
    LimitTakesEffect dc dw key history c w ↔
      ∀ call, history.find? (fun call => call.key = key) = some call →
        ∀ c₀ w₀, call.routeLimit.getD (dc, dw) = (c₀, w₀) → c₀ ≤ c ∧ c₀ * w ≤ c * w₀ :=
  ⟨fun h _ hfirst _ _ hlimit => first_of_limitTakesEffect hw htimes hfirst hlimit h,
    limitTakesEffect_of_first hw⟩

/-- One request a second is raised to five. -/
theorem raised_takes_effect :
    LimitTakesEffect 100 60 ⟨"r", "c"⟩ [⟨0, ⟨"r", "c"⟩, some (1, 1)⟩] 5 1 :=
  (limitTakesEffect_iff le_rfl (by simp)).mpr (by simp)

/-- **Five requests a second become one a minute**, and a second later five pass at once. -/
theorem old_limit_stays :
    (limiterMachine.run (.new 100 60) (⟨0, ⟨"r", "c"⟩, some (5, 1)⟩ ::
      List.replicate 5 ⟨1, ⟨"r", "c"⟩, some (1, 60)⟩)).map Prod.snd
        = .ok (List.replicate 6 .allowed) ∧
    ¬ LimitTakesEffect 100 60 ⟨"r", "c"⟩ [⟨0, ⟨"r", "c"⟩, some (5, 1)⟩] 1 60 := by
  refine ⟨by decide +kernel, fun h => ?_⟩
  have hbound := first_of_limitTakesEffect (by norm_num) (by simp) rfl rfl h
  exact absurd hbound.1 (by decide)

end PqcGateway
