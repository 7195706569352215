import PqcGateway.Machinery.EntryMap
import PqcGateway.Machinery.Runs
import PqcGateway.Machinery.TokenBucket
import Mathlib.Algebra.Order.Ring.Rat

/-!
# Limit/RateLimiter — requests limited by token buckets

Each pair of a route and a client has a bucket, made full at its first request and refilled
whenever it is asked.  Token counts and times, which the gateway keeps as floating-point seconds,
are exact rationals here; only the refill rate, a quotient by the window, may be infinite or no
number (`F64`), for a window of no seconds.

* `limiter_run_bucket` — a run of the limiter is, for each key, a run of its bucket.
* `limiter_run_draws` — under a limit with a window, it is a run of a token bucket.
* `rateLimit_exact` — the limit holds in every window, and no traffic within it is refused.
* `limiter_run_unlimited` / `limiter_run_refused` — without a window everything is let through, and
  a limit of no requests lets nothing through.
-/

namespace PqcGateway

/-! ## Floating-point numbers

The limiter's `f64`s without their rounding: the rationals, and what a division by zero makes.
Nothing is divided that is below zero, so there is no negative infinity. -/

/-- An `f64`, in exact arithmetic. -/
inductive F64
  | rational (q : ℚ)
  | infinity
  | nan
deriving DecidableEq

namespace F64

/-- `a / b`, of rationals. -/
def quotient (a b : ℚ) : F64 :=
  if b ≠ 0 then rational (a / b) else if a = 0 then nan else infinity

/-- `a * x`: zero times infinity is no number. -/
def scale (a : ℚ) : F64 → F64
  | rational q => rational (a * q)
  | infinity => if a = 0 then nan else infinity
  | nan => nan

/-- `a + x`. -/
def plus (a : ℚ) : F64 → F64
  | rational q => rational (a + q)
  | infinity => infinity
  | nan => nan

/-- `x.min(a)`, which is `a` where `x` is no number. -/
def capped (a : ℚ) : F64 → ℚ
  | rational q => min q a
  | infinity | nan => a

/-- `a / x`. -/
def divide (a : ℚ) : F64 → F64
  | rational q => quotient a q
  | infinity => rational 0
  | nan => nan

/-- `x.ceil() as u64`, which saturates and has zero for no number. -/
def ceilU64 : F64 → ℕ
  | rational q => min q.ceil.toNat (2 ^ 64 - 1)
  | infinity => 2 ^ 64 - 1
  | nan => 0

theorem quotient_of_ne {a b : ℚ} (h : b ≠ 0) : quotient a b = rational (a / b) := if_pos h

theorem capped_le (a : ℚ) (x : F64) : x.capped a ≤ a := by
  cases x with
  | rational q => exact min_le_right q a
  | infinity | nan => exact le_rfl

/-- **Dividing by zero** gives nothing that a number is capped by. -/
theorem capped_quotient_zero (a b tokens elapsed : ℚ) :
    (((quotient a 0).scale elapsed).plus tokens).capped b = b := by
  by_cases ha : a = 0 <;> by_cases helapsed : elapsed = 0 <;>
    simp [quotient, scale, plus, capped, ha, helapsed]

end F64

/-! ## One bucket -/

/-- Per-key rate limit state. -/
structure Bucket where
  tokens : ℚ
  lastRefill : ℚ
  capacity : ℚ
  refillRate : F64
deriving DecidableEq

namespace Bucket

def new (capacity windowSeconds : ℕ) (now : ℚ) : Bucket where
  tokens := capacity
  lastRefill := now
  capacity := capacity
  refillRate := .quotient capacity windowSeconds

/-- `duration_since` gives zero where `now` is earlier. -/
def refill (now : ℚ) (bucket : Bucket) : Bucket :=
  let elapsed := max (now - bucket.lastRefill) 0
  { bucket with
    tokens := ((bucket.refillRate.scale elapsed).plus bucket.tokens).capped bucket.capacity
    lastRefill := now }

/-- Try to consume one token.  Returns true if allowed. -/
def tryConsume (now : ℚ) (bucket : Bucket) : Bucket × Bool :=
  let bucket := bucket.refill now
  if 1 ≤ bucket.tokens then ({ bucket with tokens := bucket.tokens - 1 }, true)
  else (bucket, false)

/-- Estimated seconds until a token is available: infinitely many, if nothing refills the bucket. -/
def retryAfter (bucket : Bucket) : F64 :=
  if 1 ≤ bucket.tokens then .rational 0 else bucket.refillRate.divide (1 - bucket.tokens)

end Bucket

/-! ## The limiter -/

/-- Composite key for rate limiting: route_id + client_ip. -/
structure RateLimitKey where
  routeId : String
  clientIp : String
deriving DecidableEq, Repr

/-- Result of a rate limit check. -/
inductive RateLimitResult
  | allowed
  | limited (retryAfterSecs : F64)
deriving DecidableEq

/-- Rate limiter managing per-key buckets. -/
structure RateLimiter where
  buckets : EntryMap RateLimitKey Bucket
  defaultCapacity : ℕ
  defaultWindow : ℕ

namespace RateLimiter

def new (defaultCapacity defaultWindowSeconds : ℕ) : RateLimiter where
  buckets := EntryMap.new
  defaultCapacity
  defaultWindow := defaultWindowSeconds

/-- The requests and window that limit a route; `routeLimit` overrides the default if provided. -/
def limit (routeLimit : Option (ℕ × ℕ)) (limiter : RateLimiter) : ℕ × ℕ :=
  routeLimit.getD (limiter.defaultCapacity, limiter.defaultWindow)

/-- `buckets.entry(key).or_insert_with(..)`: the bucket there, or a full one. -/
def entry (now : ℚ) (key : RateLimitKey) (routeLimit : Option (ℕ × ℕ)) (limiter : RateLimiter) :
    Bucket :=
  let (capacity, window) := limiter.limit routeLimit
  (limiter.buckets.get key).getD (.new capacity window now)

/-- Check if a request is allowed under rate limits. -/
def check (now : ℚ) (key : RateLimitKey) (routeLimit : Option (ℕ × ℕ)) (limiter : RateLimiter) :
    RateLimiter × RateLimitResult :=
  let (bucket, allowed) := (limiter.entry now key routeLimit).tryConsume now
  ({ limiter with buckets := limiter.buckets.insert key bucket },
    if allowed then .allowed else .limited bucket.retryAfter)

/-- Evict stale entries older than the given duration. -/
def cleanup (now maxAge : ℚ) (limiter : RateLimiter) : RateLimiter :=
  { limiter with
    buckets := limiter.buckets.retain fun _ bucket => max (now - bucket.lastRefill) 0 < maxAge }

end RateLimiter

/-- A call of `check`, with the time it is made at. -/
structure LimitCheck where
  now : ℚ
  key : RateLimitKey
  routeLimit : Option (ℕ × ℕ)

/-- **The rate limiter**, one check at a time. -/
def limiterMachine : Machine RateLimiter LimitCheck RateLimitResult where
  step limiter call := pure (limiter.check call.now call.key call.routeLimit)

/-! ## One key's part

A check looks at the bucket of its own key and at no other. -/

/-- One key's bucket, driven by the checks of that key. -/
def bucketMachine (defaults : ℕ × ℕ) : Machine (Option Bucket) LimitCheck RateLimitResult where
  step bucket? call :=
    let (capacity, window) := call.routeLimit.getD defaults
    let (bucket, allowed) := (bucket?.getD (.new capacity window call.now)).tryConsume call.now
    pure (some bucket, if allowed then .allowed else .limited bucket.retryAfter)

section

variable {limiter limiter' : RateLimiter} {call : LimitCheck} {answer : RateLimitResult}

/-- **The bucket of the check's key moves** by its own transition. -/
theorem limiter_step_self (h : limiterMachine.step limiter call = .ok (limiter', answer)) :
    (bucketMachine (limiter.defaultCapacity, limiter.defaultWindow)).step
        (limiter.buckets.get call.key) call
      = .ok (limiter'.buckets.get call.key, answer) := by
  have hcheck : limiter.check call.now call.key call.routeLimit = (limiter', answer) :=
    Except.ok.inj h
  obtain rfl : _ = limiter' := congrArg Prod.fst hcheck
  obtain rfl : _ = answer := congrArg Prod.snd hcheck
  have hget : (limiter.check call.now call.key call.routeLimit).1.buckets.get call.key
      = some ((limiter.entry call.now call.key call.routeLimit).tryConsume call.now).1 :=
    EntryMap.get_insert_self _ _ _
  rw [hget]
  rfl

/-- The buckets of other keys, and the default limit, stay as they are. -/
theorem limiter_step_other (h : limiterMachine.step limiter call = .ok (limiter', answer)) :
    (∀ key ≠ call.key, limiter'.buckets.get key = limiter.buckets.get key) ∧
      limiter'.defaultCapacity = limiter.defaultCapacity ∧
      limiter'.defaultWindow = limiter.defaultWindow := by
  obtain ⟨rfl, -⟩ := Prod.mk.inj (Except.ok.inj h)
  exact ⟨fun key hkey => EntryMap.get_insert_of_ne _ hkey _, rfl, rfl⟩

end

/-- The checks of one key, with their answers. -/
def checksOf (key : RateLimitKey) (calls : List LimitCheck) (answers : List RateLimitResult) :
    List (LimitCheck × RateLimitResult) :=
  (calls.zip answers).filter fun e => e.1.key = key

section

variable {key : RateLimitKey} {call : LimitCheck}

theorem checksOf_cons_self (h : call.key = key) (calls : List LimitCheck)
    (answer : RateLimitResult) (answers : List RateLimitResult) :
    checksOf key (call :: calls) (answer :: answers)
      = (call, answer) :: checksOf key calls answers := by
  rw [checksOf, List.zip_cons_cons, List.filter_cons_of_pos (by simpa using h)]
  rfl

theorem checksOf_cons_of_ne (h : call.key ≠ key) (calls : List LimitCheck)
    (answer : RateLimitResult) (answers : List RateLimitResult) :
    checksOf key (call :: calls) (answer :: answers) = checksOf key calls answers := by
  rw [checksOf, List.zip_cons_cons, List.filter_cons_of_neg (by simpa using h)]
  rfl

end

/-- **Each bucket runs by itself**: a run of the limiter is, for each key, a run of its bucket. -/
theorem limiter_run_bucket {limiter limiter' : RateLimiter} {calls : List LimitCheck}
    {answers : List RateLimitResult}
    (hrun : limiterMachine.run limiter calls = .ok (limiter', answers)) (key : RateLimitKey) :
    (bucketMachine (limiter.defaultCapacity, limiter.defaultWindow)).run (limiter.buckets.get key)
        ((checksOf key calls answers).map Prod.fst)
      = .ok (limiter'.buckets.get key, (checksOf key calls answers).map Prod.snd) := by
  refine limiterMachine.run_project (bucketMachine _) (p := fun call => call.key = key)
    (π := fun s => s.buckets.get key) (I := fun s => s.defaultCapacity = limiter.defaultCapacity ∧
      s.defaultWindow = limiter.defaultWindow) ?_ ?_ ?_ ⟨rfl, rfl⟩ hrun
  · intro s call s' answer hI hstep
    obtain ⟨-, hcapacity, hwindow⟩ := limiter_step_other hstep
    exact ⟨hcapacity.trans hI.1, hwindow.trans hI.2⟩
  · intro s call s' answer hI hstep hkey
    obtain rfl : call.key = key := of_decide_eq_true hkey
    exact hI.1 ▸ hI.2 ▸ limiter_step_self hstep
  · intro s call s' answer _ hstep hkey
    exact (limiter_step_other hstep).1 key (Ne.symm (of_decide_eq_false hkey))

/-! ## Buckets are token buckets

A limit with a window refills at a finite rate, and there `tryConsume` is `TokenBucket.draw`. -/

/-- The bucket of these tokens, with this capacity and rate. -/
def Bucket.ofTokens (c r : ℚ) (b : TokenBucket ℚ) : Bucket where
  tokens := b.tokens
  lastRefill := b.since
  capacity := c
  refillRate := .rational r

/-- The check passed. -/
def RateLimitResult.isAllowed : RateLimitResult → Bool
  | .allowed => true
  | .limited _ => false

theorem RateLimitResult.isAllowed_iff {result : RateLimitResult} :
    result.isAllowed = true ↔ result = .allowed := by
  cases result <;> simp [isAllowed]

theorem Bucket.tryConsume_ofTokens {c r : ℚ} {b : TokenBucket ℚ} {now : ℚ} (h : b.since ≤ now) :
    (ofTokens c r b).tryConsume now = (ofTokens c r (b.draw c r now).1, (b.draw c r now).2) := by
  have hrefill : (ofTokens c r b).refill now = ofTokens c r ⟨b.level c r now, now⟩ := by
    simp only [refill, TokenBucket.level, ofTokens, max_eq_left (sub_nonneg.mpr h), F64.scale,
      F64.plus, F64.capped]
  simp only [tryConsume, hrefill]
  by_cases hlevel : 1 ≤ b.level c r now
  · rw [TokenBucket.draw_of_le hlevel]
    exact if_pos hlevel
  · rw [TokenBucket.draw_of_lt (not_le.mp hlevel)]
    exact if_neg hlevel

/-- A check draws a token. -/
theorem bucket_step_ofTokens {defaults : ℕ × ℕ} {c r : ℚ} {b : TokenBucket ℚ} {call : LimitCheck}
    (h : b.since ≤ call.now) :
    (bucketMachine defaults).step (some (.ofTokens c r b)) call
      = .ok (some (.ofTokens c r (b.draw c r call.now).1),
          if (b.draw c r call.now).2 then .allowed
          else .limited (Bucket.ofTokens c r (b.draw c r call.now).1).retryAfter) := by
  simp only [bucketMachine, Option.getD_some, Bucket.tryConsume_ofTokens h]
  rfl

/-- **The checks of a bucket are draws of its tokens.** -/
theorem bucket_run_draws {defaults : ℕ × ℕ} {c r : ℚ} {b : TokenBucket ℚ}
    {calls : List LimitCheck} {bucket? : Option Bucket} {answers : List RateLimitResult}
    (hrun : (bucketMachine defaults).run (some (.ofTokens c r b)) calls = .ok (bucket?, answers))
    (htimes : (b.since :: calls.map LimitCheck.now).Pairwise (· ≤ ·)) :
    (calls.zip answers).map (fun e => (e.1.now, e.2.isAllowed))
      = b.draws c r (calls.map LimitCheck.now) := by
  induction calls generalizing b answers with
  | nil => rfl
  | cons call calls ih =>
    obtain ⟨bucket?₁, answer, answers, hstep, hrest, rfl⟩ :=
      (bucketMachine defaults).run_cons_eq_ok.mp hrun
    obtain ⟨hsince, htail⟩ := List.pairwise_cons.mp htimes
    rw [bucket_step_ofTokens (hsince call.now List.mem_cons_self)] at hstep
    have hmoved := Prod.mk.inj (Except.ok.inj hstep)
    rw [← hmoved.1] at hrest
    rw [List.zip_cons_cons, List.map_cons, List.map_cons, TokenBucket.draws,
      ih hrest (by rwa [TokenBucket.draw_since]), ← hmoved.2]
    cases (b.draw c r call.now).2 <;> rfl

/-- A check of a key with a bucket is one of the bucket. -/
theorem bucket_step_some {defaults : ℕ × ℕ} (bucket : Bucket) (call : LimitCheck) :
    (bucketMachine defaults).step (some bucket) call
      = .ok (some (bucket.tryConsume call.now).1, if (bucket.tryConsume call.now).2 then .allowed
          else .limited (bucket.tryConsume call.now).1.retryAfter) := rfl

/-- A new bucket is a full token bucket, if its limit has a window. -/
theorem Bucket.new_eq_ofTokens {c w : ℕ} (hw : 1 ≤ w) (now : ℚ) :
    Bucket.new c w now = .ofTokens c (c / w) ⟨c, now⟩ := by
  rw [Bucket.new, F64.quotient_of_ne (Nat.cast_ne_zero.mpr (Nat.one_le_iff_ne_zero.mp hw))]
  rfl

/-- The first check of a key makes its bucket. -/
theorem bucket_run_new {defaults : ℕ × ℕ} {c w : ℕ} {call : LimitCheck}
    (hlimit : call.routeLimit.getD defaults = (c, w)) (calls : List LimitCheck) :
    (bucketMachine defaults).run none (call :: calls)
      = (bucketMachine defaults).run (some (.new c w call.now)) (call :: calls) := by
  simp only [Machine.run, bucketMachine, hlimit]
  rfl

/-- A key without a bucket gets a full one. -/
theorem bucket_step_none {defaults : ℕ × ℕ} {c w : ℕ} (hw : 1 ≤ w) {call : LimitCheck}
    (hlimit : call.routeLimit.getD defaults = (c, w)) :
    (bucketMachine defaults).step none call
      = (bucketMachine defaults).step (some (.ofTokens c (c / w) ⟨c, call.now⟩)) call := by
  rw [← Bucket.new_eq_ofTokens hw]
  simp only [bucketMachine, hlimit]
  rfl

/-- The first check of a key makes its bucket, full. -/
theorem bucket_run_none {defaults : ℕ × ℕ} {c w : ℕ} (hw : 1 ≤ w) {call : LimitCheck}
    (hlimit : call.routeLimit.getD defaults = (c, w)) (calls : List LimitCheck) :
    (bucketMachine defaults).run none (call :: calls)
      = (bucketMachine defaults).run (some (.ofTokens c (c / w) ⟨c, call.now⟩))
        (call :: calls) :=
  Bucket.new_eq_ofTokens hw call.now ▸ bucket_run_new hlimit calls

section

variable {limiter limiter' : RateLimiter} {calls : List LimitCheck}
  {answers : List RateLimitResult} {key : RateLimitKey}

/-- The checks of a key are some of the checks, and their times some of the times. -/
theorem checksOf_sublist (hlen : answers.length = calls.length) (key : RateLimitKey) :
    ((checksOf key calls answers).map Prod.fst).Sublist calls := by
  have hsub : (checksOf key calls answers).Sublist (calls.zip answers) := List.filter_sublist
  conv_rhs => rw [← List.map_fst_zip hlen.ge]
  exact hsub.map Prod.fst

theorem checksOf_times_sublist (hlen : answers.length = calls.length) (key : RateLimitKey) :
    ((checksOf key calls answers).map fun e => e.1.now).Sublist (calls.map LimitCheck.now) := by
  have hsub := (checksOf_sublist hlen key).map LimitCheck.now
  rwa [List.map_map] at hsub

/-- A key's first check is one of its checks. -/
theorem mem_of_find?_key {call : LimitCheck}
    (h : calls.find? (fun call => call.key = key) = some call) : call ∈ calls ∧ call.key = key :=
  ⟨List.mem_of_find?_eq_some h, by simpa using List.find?_some h⟩

/-- The checks of a key start with the key's first check. -/
theorem head?_checksOf (hlen : answers.length = calls.length) (key : RateLimitKey) :
    ((checksOf key calls answers).map Prod.fst).head?
      = calls.find? fun call => call.key = key := by
  conv_rhs => rw [← List.map_fst_zip hlen.ge, List.find?_map]
  rw [List.head?_map, checksOf, List.head?_filter]
  rfl

/-- **The checks of a key that has a bucket are draws from it.** -/
theorem limiter_run_draws_of_get {c r : ℚ} {b : TokenBucket ℚ}
    (hget : limiter.buckets.get key = some (.ofTokens c r b))
    (hrun : limiterMachine.run limiter calls = .ok (limiter', answers))
    (htimes : (b.since :: calls.map LimitCheck.now).Pairwise (· ≤ ·)) :
    (checksOf key calls answers).map (fun e => (e.1.now, e.2.isAllowed))
      = b.draws c r ((checksOf key calls answers).map fun e => e.1.now) := by
  have hbucket := limiter_run_bucket hrun key
  have hsorted : (b.since :: (checksOf key calls answers).map fun e => e.1.now).Pairwise (· ≤ ·) :=
    htimes.sublist ((checksOf_times_sublist (limiterMachine.length_answers hrun) key).cons_cons _)
  have hnow : (checksOf key calls answers).map (fun e => e.1.now)
      = ((checksOf key calls answers).map Prod.fst).map LimitCheck.now := List.map_map.symm
  have hzip : ((checksOf key calls answers).map Prod.fst).zip
      ((checksOf key calls answers).map Prod.snd) = checksOf key calls answers :=
    (List.zip_of_prod rfl rfl).symm
  rw [hget] at hbucket
  rw [hnow] at hsorted ⊢
  have hdraws := bucket_run_draws hbucket hsorted
  rwa [hzip] at hdraws

end

/-- **The checks of a key are draws from a token bucket**, full at first: the one that the limit of
its first check makes. -/
theorem limiter_run_draws {dc dw : ℕ} {limiter : RateLimiter} {calls : List LimitCheck}
    {answers : List RateLimitResult}
    (hrun : limiterMachine.run (.new dc dw) calls = .ok (limiter, answers))
    (htimes : (calls.map LimitCheck.now).Pairwise (· ≤ ·)) {key : RateLimitKey} {c w : ℕ}
    (hw : 1 ≤ w)
    (hlimit : ∀ call, calls.find? (fun call => call.key = key) = some call →
      call.routeLimit.getD (dc, dw) = (c, w)) :
    ∃ t₀, (t₀ :: (checksOf key calls answers).map fun e => e.1.now).Pairwise (· ≤ ·) ∧
      (checksOf key calls answers).map (fun e => (e.1.now, e.2.isAllowed))
        = (⟨c, t₀⟩ : TokenBucket ℚ).draws (c : ℚ) (c / w)
            ((checksOf key calls answers).map fun e => e.1.now) := by
  have hbucket := limiter_run_bucket hrun key
  have hlen := limiterMachine.length_answers hrun
  have hsorted : ((checksOf key calls answers).map fun e => e.1.now).Pairwise (· ≤ ·) :=
    htimes.sublist (checksOf_times_sublist hlen key)
  have hhead := head?_checksOf hlen key
  generalize checksOf key calls answers = l at hbucket hsorted hhead
  cases l with
  | nil => exact ⟨0, by simp, rfl⟩
  | cons e l =>
    have hfull : (e.1.now :: (e :: l).map fun e => e.1.now).Pairwise (· ≤ ·) :=
      TokenBucket.pairwise_cons_self hsorted
    refine ⟨e.1.now, hfull, ?_⟩
    have hnow : (e :: l).map (fun e => e.1.now) = ((e :: l).map Prod.fst).map LimitCheck.now :=
      List.map_map.symm
    have hzip : (e.1 :: l.map Prod.fst).zip ((e :: l).map Prod.snd) = e :: l :=
      (List.zip_of_prod List.map_cons rfl).symm
    rw [hnow] at hfull ⊢
    have hdraws := bucket_run_draws
      ((bucket_run_none hw (hlimit e.1 hhead.symm) (l.map Prod.fst)).symm.trans hbucket) hfull
    rwa [hzip] at hdraws

/-! ## Limits that every check is decided by alike

A window of no seconds refills the bucket whole at every check; a limit of no requests leaves
nothing to refill. -/

section

variable {P : Bucket → Prop} {d : Bool}
  (hP : ∀ bucket now, P bucket →
    P (bucket.tryConsume now).1 ∧ (bucket.tryConsume now).2 = d)

include hP

theorem bucket_run_constant {defaults : ℕ × ℕ} {bucket : Bucket} {calls : List LimitCheck}
    {bucket? : Option Bucket} {answers : List RateLimitResult} (h : P bucket)
    (hrun : (bucketMachine defaults).run (some bucket) calls = .ok (bucket?, answers)) :
    ∀ answer ∈ answers, answer.isAllowed = d := by
  induction calls generalizing bucket answers with
  | nil =>
    obtain ⟨-, rfl⟩ := Prod.mk.inj (Except.ok.inj hrun)
    exact fun answer hanswer => absurd hanswer List.not_mem_nil
  | cons call calls ih =>
    obtain ⟨bucket?₁, answer, answers, hstep, hrest, rfl⟩ :=
      (bucketMachine defaults).run_cons_eq_ok.mp hrun
    obtain ⟨hkeeps, hdecides⟩ := hP bucket call.now h
    rw [bucket_step_some] at hstep
    have hmoved := Prod.mk.inj (Except.ok.inj hstep)
    rw [← hmoved.1] at hrest
    refine List.forall_mem_cons.mpr ⟨?_, ih hkeeps hrest⟩
    rw [← hmoved.2, hdecides]
    cases d <;> rfl

/-- A key's checks are all decided alike, if what its first check makes has them so. -/
theorem limiter_run_constant {dc dw c w : ℕ} {limiter : RateLimiter} {calls : List LimitCheck}
    {answers : List RateLimitResult} {key : RateLimitKey} {call : LimitCheck}
    (hrun : limiterMachine.run (.new dc dw) calls = .ok (limiter, answers))
    (hfirst : calls.find? (fun call => call.key = key) = some call)
    (hlimit : call.routeLimit.getD (dc, dw) = (c, w)) (hnew : P (.new c w call.now)) :
    ∀ e ∈ checksOf key calls answers, e.2.isAllowed = d := by
  have hbucket := limiter_run_bucket hrun key
  have hhead := (head?_checksOf (limiterMachine.length_answers hrun) key).trans hfirst
  generalize checksOf key calls answers = l at hbucket hhead
  obtain ⟨rest, hrest⟩ := List.head?_eq_some_iff.mp hhead
  rw [hrest] at hbucket
  have hall := bucket_run_constant hP hnew ((bucket_run_new hlimit rest).symm.trans hbucket)
  exact fun e he => hall e.2 (List.mem_map_of_mem he)

end

section

variable {dc dw c w : ℕ} {limiter : RateLimiter} {calls : List LimitCheck}
  {answers : List RateLimitResult} {key : RateLimitKey} {call : LimitCheck}

/-- **Without a window all is let through**, by a limit of any requests at all. -/
theorem limiter_run_unlimited (hc : 1 ≤ c)
    (hrun : limiterMachine.run (.new dc dw) calls = .ok (limiter, answers))
    (hfirst : calls.find? (fun call => call.key = key) = some call)
    (hlimit : call.routeLimit.getD (dc, dw) = (c, 0)) :
    ∀ e ∈ checksOf key calls answers, e.2.isAllowed = true := by
  refine limiter_run_constant
    (P := fun bucket => bucket.capacity = c ∧ bucket.refillRate = .quotient c 0)
    (fun bucket now h => ?_) hrun hfirst hlimit ⟨rfl, by rw [Bucket.new, Nat.cast_zero]⟩
  have hfull : (bucket.refill now).tokens = c := by
    rw [Bucket.refill, h.1, h.2]
    exact F64.capped_quotient_zero ..
  rw [Bucket.tryConsume, hfull, if_pos (Nat.one_le_cast.mpr hc)]
  exact ⟨h, rfl⟩

/-- **A limit of no requests lets nothing through**, whatever its window. -/
theorem limiter_run_refused
    (hrun : limiterMachine.run (.new dc dw) calls = .ok (limiter, answers))
    (hfirst : calls.find? (fun call => call.key = key) = some call)
    (hlimit : call.routeLimit.getD (dc, dw) = (0, w)) :
    ∀ e ∈ checksOf key calls answers, e.2.isAllowed = false := by
  refine limiter_run_constant (P := fun bucket => bucket.capacity = 0) (fun bucket now h => ?_)
    hrun hfirst hlimit Nat.cast_zero
  have hnone : (bucket.refill now).tokens ≤ 0 := h ▸ F64.capped_le _ _
  rw [Bucket.tryConsume, if_neg (by linarith)]
  exact ⟨h, rfl⟩

end

/-! ## The limit holds, and only the limit -/

/-- How many checks of the key there are from `a` to `e`. -/
def checksIn (key : RateLimitKey) (a e : ℚ) (calls : List LimitCheck) : ℕ :=
  calls.countP fun call => call.key = key ∧ a ≤ call.now ∧ call.now ≤ e

/-- How many of them are allowed. -/
def allowedIn (key : RateLimitKey) (a e : ℚ) (calls : List LimitCheck)
    (answers : List RateLimitResult) : ℕ :=
  (calls.zip answers).countP fun x =>
    x.1.key = key ∧ (a ≤ x.1.now ∧ x.1.now ≤ e) ∧ x.2.isAllowed = true

theorem checksIn_eq {calls : List LimitCheck} {answers : List RateLimitResult}
    (hlen : answers.length = calls.length) (key : RateLimitKey) (a e : ℚ) :
    checksIn key a e calls
      = ((checksOf key calls answers).map fun e => e.1.now).countP fun t => a ≤ t ∧ t ≤ e := by
  have hcalls : (calls.zip answers).map Prod.fst = calls := List.map_fst_zip hlen.ge
  conv_lhs => rw [checksIn, ← hcalls, List.countP_map]
  rw [List.countP_map, checksOf, List.countP_filter]
  refine List.countP_congr fun x _ => ?_
  simp [and_comm]

theorem allowedIn_eq (key : RateLimitKey) (a e : ℚ) (calls : List LimitCheck)
    (answers : List RateLimitResult) : allowedIn key a e calls answers
      = ((checksOf key calls answers).map fun e => (e.1.now, e.2.isAllowed)).countP
          fun d => a ≤ d.1 ∧ d.1 ≤ e ∧ d.2 := by
  rw [allowedIn, List.countP_map, checksOf, List.countP_filter]
  refine List.countP_congr fun x _ => ?_
  simp [and_comm, and_assoc]

/-- **Never too many**: the limit that a key's first check has holds in every window. -/
theorem allowedIn_le {dc dw : ℕ} {limiter : RateLimiter} {calls : List LimitCheck}
    {answers : List RateLimitResult}
    (hrun : limiterMachine.run (.new dc dw) calls = .ok (limiter, answers))
    (htimes : (calls.map LimitCheck.now).Pairwise (· ≤ ·)) {key : RateLimitKey} {c w : ℕ}
    (hw : 1 ≤ w)
    (hlimit : ∀ call, calls.find? (fun call => call.key = key) = some call →
      call.routeLimit.getD (dc, dw) = (c, w)) {a L : ℚ} (hL : 0 ≤ L) :
    (allowedIn key a (a + L) calls answers : ℚ) ≤ c + L * c / w := by
  obtain ⟨t₀, hsorted, hdraws⟩ := limiter_run_draws hrun htimes hw hlimit
  have hrate : (0 : ℚ) ≤ c / w := div_nonneg (Nat.cast_nonneg c) (Nat.cast_nonneg w)
  have hwindow := TokenBucket.countP_draws_le (Nat.cast_nonneg c) hrate
    (b := ⟨c, t₀⟩) (Nat.cast_nonneg c) hsorted (le_add_of_nonneg_right hL : a ≤ a + L)
  rwa [← hdraws, ← allowedIn_eq, add_sub_cancel_left, ← mul_div_assoc] at hwindow

/-- **Token-bucket exactness.**  For a key whose limit stays `c` requests in `w` seconds: in every
window of length `L` at most `c + L c / w` of its checks are allowed; if there are never more checks
than that, all are; and checks of other keys leave its bucket as it is. -/
theorem rateLimit_exact {dc dw : ℕ} {limiter : RateLimiter} {calls : List LimitCheck}
    {answers : List RateLimitResult}
    (hrun : limiterMachine.run (.new dc dw) calls = .ok (limiter, answers))
    (htimes : (calls.map LimitCheck.now).Pairwise (· ≤ ·)) {key : RateLimitKey} {c w : ℕ}
    (hw : 1 ≤ w)
    (hlimit : ∀ call ∈ calls, call.key = key → call.routeLimit.getD (dc, dw) = (c, w)) :
    (∀ a L : ℚ, 0 ≤ L → (allowedIn key a (a + L) calls answers : ℚ) ≤ c + L * c / w) ∧
    ((∀ a L : ℚ, 0 ≤ L → (checksIn key a (a + L) calls : ℚ) ≤ c + L * c / w) →
      ∀ e ∈ checksOf key calls answers, e.2 = .allowed) ∧
    ∀ call limiter' answer, limiterMachine.step limiter call = .ok (limiter', answer) →
      call.key ≠ key → limiter'.buckets.get key = limiter.buckets.get key := by
  have hfirst := fun call hfind => hlimit call (mem_of_find?_key hfind).1 (mem_of_find?_key hfind).2
  refine ⟨fun a L hL => allowedIn_le hrun htimes hw hfirst hL, fun hconforms => ?_,
    fun call limiter' answer hstep hkey => (limiter_step_other hstep).1 key (Ne.symm hkey)⟩
  obtain ⟨t₀, hsorted, hdraws⟩ := limiter_run_draws hrun htimes hw hfirst
  have hconf : TokenBucket.Conforms (c : ℚ) (c / w)
      ((checksOf key calls answers).map fun e => e.1.now) := by
    intro a e hae
    have hbound := hconforms a (e - a) (sub_nonneg.mpr hae)
    rwa [add_sub_cancel, checksIn_eq (limiterMachine.length_answers hrun), mul_div_assoc] at hbound
  have hall := hconf.draws hsorted
  rw [← hdraws] at hall
  exact fun e he => RateLimitResult.isAllowed_iff.mp (hall _ (List.mem_map_of_mem he))

/-- One request a second: of two at once the first is allowed, and the next a second later. -/
theorem rateLimit_one_a_second : ∃ limiter answers,
    limiterMachine.run (.new 1 1) [⟨0, ⟨"r", "c"⟩, none⟩, ⟨0, ⟨"r", "c"⟩, none⟩,
      ⟨1, ⟨"r", "c"⟩, none⟩] = .ok (limiter, answers) ∧
    ∀ a L : ℚ, 0 ≤ L → (allowedIn ⟨"r", "c"⟩ a (a + L) [⟨0, ⟨"r", "c"⟩, none⟩,
      ⟨0, ⟨"r", "c"⟩, none⟩, ⟨1, ⟨"r", "c"⟩, none⟩] answers : ℚ)
        ≤ (1 : ℕ) + L * (1 : ℕ) / (1 : ℕ) :=
  ⟨_, _, rfl, (rateLimit_exact rfl (by norm_num) le_rfl fun _ hcall _ => by
    simp only [List.mem_cons, List.not_mem_nil, or_false] at hcall
    obtain rfl | rfl | rfl := hcall <;> rfl).1⟩

end PqcGateway
