import Mathlib.Algebra.Order.Field.Basic
import Mathlib.Tactic.FieldSimp
import Mathlib.Tactic.Linarith
import Mathlib.Tactic.Ring

/-!
# Machinery/TokenBucket — a bucket that refills

A bucket holds at most `c` tokens and gains `r` of them each unit of time; a draw takes a token if
there is a whole one.  `c` and `r` bound what a bucket lets through, and nothing less does:

* `countP_draws_le` — of the draws in a window of length `L`, at most `c + L r` succeed.
* `Conforms.draws` — draws that never ask for more than that all succeed.
* `draws_before_ready` — up to the time it has a whole token again draws fail, and leave that time
  as it was.
-/

/-- The tokens in a bucket, and when they were counted. -/
structure TokenBucket (K : Type) where
  tokens : K
  since : K

namespace TokenBucket

variable {K : Type} [Field K] [LinearOrder K] (c r : K)

/-- The tokens there are at time `t`. -/
def level (t : K) (b : TokenBucket K) : K := min (b.tokens + (t - b.since) * r) c

/-- Draw a token at time `t`. -/
def draw (t : K) (b : TokenBucket K) : TokenBucket K × Bool :=
  if 1 ≤ b.level c r t then (⟨b.level c r t - 1, t⟩, true) else (⟨b.level c r t, t⟩, false)

/-- Draws, one after the other, each with its time and whether it succeeded. -/
def draws : TokenBucket K → List K → List (K × Bool)
  | _, [] => []
  | b, t :: ts => (t, (b.draw c r t).2) :: draws (b.draw c r t).1 ts

variable {c r}

section

variable {b : TokenBucket K} {t : K}

theorem level_le_capacity : b.level c r t ≤ c := min_le_right _ _

theorem level_le : b.level c r t ≤ b.tokens + (t - b.since) * r := min_le_left _ _

@[simp] theorem draw_since : (b.draw c r t).1.since = t := by
  rw [draw]
  split_ifs <;> rfl

/-- The draw takes the token it grants. -/
theorem draw_of_le (h : 1 ≤ b.level c r t) : b.draw c r t = (⟨b.level c r t - 1, t⟩, true) :=
  if_pos h

theorem draw_of_lt (h : b.level c r t < 1) : b.draw c r t = (⟨b.level c r t, t⟩, false) :=
  if_neg h.not_ge

/-- A draw is paid from the tokens there are. -/
theorem tokens_draw_add : (b.draw c r t).1.tokens + (if (b.draw c r t).2 then 1 else 0)
    = b.level c r t := by
  by_cases h : 1 ≤ b.level c r t
  · rw [draw_of_le h]
    simp
  · rw [draw_of_lt (not_le.mp h)]
    simp

theorem fst_of_mem_draws {ts : List K} {e : K × Bool} (h : e ∈ b.draws c r ts) : e.1 ∈ ts := by
  induction ts generalizing b with
  | nil => cases h
  | cons t ts ih =>
    obtain rfl | h := List.mem_cons.mp h
    · exact List.mem_cons_self
    · exact List.mem_cons_of_mem t (ih h)

/-- Past the end of a window no draw is in it. -/
theorem countP_draws_eq_zero {ts : List K} {p : K × Bool → Bool}
    (hts : (t :: ts).Pairwise (· ≤ ·)) (hp : ∀ d, t ≤ d.1 → p d = false) :
    (b.draws c r (t :: ts)).countP p = 0 := by
  refine List.countP_eq_zero.mpr fun d hd hcount => Bool.false_ne_true ((hp d ?_).symm.trans hcount)
  obtain heq | htail := List.mem_cons.mp (fst_of_mem_draws hd)
  · exact heq.ge
  · exact (List.pairwise_cons.mp hts).1 d.1 htail

/-- Drawing from the bucket as it stands at the time of the draw is drawing from it. -/
theorem draw_level : (⟨b.level c r t, t⟩ : TokenBucket K).draw c r t = b.draw c r t := by
  have hlevel : (⟨b.level c r t, t⟩ : TokenBucket K).level c r t = b.level c r t := by
    rw [level, sub_self, zero_mul, add_zero]
    exact min_eq_left level_le_capacity
  rw [draw, hlevel, draw]

/-- Drawing from a bucket that is full by then is drawing from a full one. -/
theorem draw_of_full (h : c ≤ b.tokens + (t - b.since) * r) :
    b.draw c r t = (⟨c, t⟩ : TokenBucket K).draw c r t := by
  have hlevel : b.level c r t = c := min_eq_right h
  rw [← draw_level, hlevel]

theorem draws_of_full (h : c ≤ b.tokens + (t - b.since) * r) (ts : List K) :
    b.draws c r (t :: ts) = (⟨c, t⟩ : TokenBucket K).draws c r (t :: ts) := by
  rw [draws, draws, draw_of_full h]

end

variable [IsStrictOrderedRing K]

/-- **A bucket left alone for as long as it takes to fill is full.** -/
theorem full_of_idle {b : TokenBucket K} {age t : K} (hr : 0 ≤ r) (hage : c ≤ age * r)
    (hb : 0 ≤ b.tokens) (hidle : b.since + age ≤ t) : c ≤ b.tokens + (t - b.since) * r :=
  calc c ≤ age * r := hage
    _ ≤ (t - b.since) * r := mul_le_mul_of_nonneg_right (le_sub_iff_add_le'.mpr hidle) hr
    _ ≤ b.tokens + (t - b.since) * r := le_add_of_nonneg_left hb

/-! ## Never too many

A window is over before the bucket has gained more than `L r` tokens. -/

theorem level_nonneg {b : TokenBucket K} {t : K} (hc : 0 ≤ c) (hr : 0 ≤ r) (hb : 0 ≤ b.tokens)
    (ht : b.since ≤ t) : 0 ≤ b.level c r t :=
  le_min (add_nonneg hb (mul_nonneg (sub_nonneg.mpr ht) hr)) hc

theorem tokens_draw_nonneg {b : TokenBucket K} {t : K} (hc : 0 ≤ c) (hr : 0 ≤ r)
    (hb : 0 ≤ b.tokens) (ht : b.since ≤ t) : 0 ≤ (b.draw c r t).1.tokens := by
  by_cases h : 1 ≤ b.level c r t
  · rw [draw_of_le h]
    exact sub_nonneg.mpr h
  · rw [draw_of_lt (not_le.mp h)]
    exact level_nonneg hc hr hb ht

omit [Field K] [IsStrictOrderedRing K] in
/-- Sorted times stay sorted with the first one doubled. -/
theorem pairwise_cons_self {t : K} {ts : List K} (h : (t :: ts).Pairwise (· ≤ ·)) :
    (t :: t :: ts).Pairwise (· ≤ ·) :=
  List.pairwise_cons.mpr
    ⟨List.forall_mem_cons.mpr ⟨le_rfl, (List.pairwise_cons.mp h).1⟩, h⟩

/-- **Up to a time `e`, the draws that succeed are paid** from the tokens and the refill until
then. -/
theorem countP_draws_until_le (hc : 0 ≤ c) (hr : 0 ≤ r) {b : TokenBucket K} {ts : List K}
    (hb : 0 ≤ b.tokens) (hts : (b.since :: ts).Pairwise (· ≤ ·)) {e : K} (he : b.since ≤ e) :
    ((b.draws c r ts).countP fun d => d.1 ≤ e ∧ d.2 : K) ≤ b.tokens + (e - b.since) * r := by
  induction ts generalizing b with
  | nil =>
    rw [draws, List.countP_nil, Nat.cast_zero]
    exact add_nonneg hb (mul_nonneg (sub_nonneg.mpr he) hr)
  | cons t ts ih =>
    obtain ⟨hsince, htail⟩ := List.pairwise_cons.mp hts
    have ht : b.since ≤ t := hsince t List.mem_cons_self
    by_cases hte : t ≤ e
    · have hrest := ih (tokens_draw_nonneg hc hr hb ht) (by rwa [draw_since])
        (by rwa [draw_since])
      have hpaid := tokens_draw_add (c := c) (r := r) (b := b) (t := t)
      have hlevel := level_le (c := c) (r := r) (b := b) (t := t)
      rw [draw_since] at hrest
      rw [draws, List.countP_cons, Nat.cast_add]
      have hhead : ((if decide (t ≤ e ∧ (b.draw c r t).2 = true) = true then 1 else 0 : ℕ) : K)
          = if (b.draw c r t).2 then 1 else 0 := by
        simp [hte]
      rw [hhead]
      linarith
    · have hnone : (b.draws c r (t :: ts)).countP (fun d => d.1 ≤ e ∧ d.2) = 0 :=
        countP_draws_eq_zero htail fun d hle => decide_eq_false fun h => hte (hle.trans h.1)
      rw [hnone, Nat.cast_zero]
      exact add_nonneg hb (mul_nonneg (sub_nonneg.mpr he) hr)

/-- **Never too many.**  In any window `[a, e]` at most `c + (e - a) r` draws succeed. -/
theorem countP_draws_le (hc : 0 ≤ c) (hr : 0 ≤ r) {b : TokenBucket K} {ts : List K}
    (hb : 0 ≤ b.tokens) (hts : (b.since :: ts).Pairwise (· ≤ ·)) {a e : K} (hae : a ≤ e) :
    ((b.draws c r ts).countP fun d => a ≤ d.1 ∧ d.1 ≤ e ∧ d.2 : K) ≤ c + (e - a) * r := by
  have hwindow : 0 ≤ c + (e - a) * r := add_nonneg hc (mul_nonneg (sub_nonneg.mpr hae) hr)
  induction ts generalizing b with
  | nil => rwa [draws, List.countP_nil, Nat.cast_zero]
  | cons t ts ih =>
    obtain ⟨hsince, htail⟩ := List.pairwise_cons.mp hts
    have ht : b.since ≤ t := hsince t List.mem_cons_self
    by_cases hat : a ≤ t
    · by_cases hte : t ≤ e
      · -- the window's draws start here, from a level of at most `c`
        have hfrom : b.draws c r (t :: ts)
            = (⟨b.level c r t, t⟩ : TokenBucket K).draws c r (t :: ts) := by
          rw [draws, draws, draw_level]
        have huntil : ((b.draws c r (t :: ts)).countP fun d => d.1 ≤ e ∧ d.2 : K)
            ≤ b.level c r t + (e - t) * r := by
          rw [hfrom]
          exact countP_draws_until_le hc hr (b := ⟨b.level c r t, t⟩)
            (level_nonneg hc hr hb ht) (pairwise_cons_self htail) hte
        have hcount : (b.draws c r (t :: ts)).countP (fun d => a ≤ d.1 ∧ d.1 ≤ e ∧ d.2)
            ≤ (b.draws c r (t :: ts)).countP fun d => d.1 ≤ e ∧ d.2 :=
          List.countP_mono_left fun d _ hd => by simp_all
        have hcap := level_le_capacity (c := c) (r := r) (b := b) (t := t)
        have hlater : (e - t) * r ≤ (e - a) * r :=
          mul_le_mul_of_nonneg_right (by linarith) hr
        calc ((b.draws c r (t :: ts)).countP fun d => a ≤ d.1 ∧ d.1 ≤ e ∧ d.2 : K)
            ≤ ((b.draws c r (t :: ts)).countP fun d => d.1 ≤ e ∧ d.2 : K) := by
              exact_mod_cast hcount
          _ ≤ b.level c r t + (e - t) * r := huntil
          _ ≤ c + (e - a) * r := add_le_add hcap hlater
      · have hnone : (b.draws c r (t :: ts)).countP (fun d => a ≤ d.1 ∧ d.1 ≤ e ∧ d.2) = 0 :=
          countP_draws_eq_zero htail fun d hle => decide_eq_false fun h => hte (hle.trans h.2.1)
        rwa [hnone, Nat.cast_zero]
    · rw [draws, List.countP_cons_of_neg (by simp [hat])]
      exact ih (tokens_draw_nonneg hc hr hb ht) (by rwa [draw_since])

/-! ## Never too few

A bucket holds what it held when it was last full, and what it gained since, less the draws since.
Draws that keep to the bound leave it a whole token each time. -/

/-- In no window are there more than `c + L r` draws. -/
def Conforms (c r : K) (ts : List K) : Prop :=
  ∀ a e, a ≤ e → (ts.countP fun t => a ≤ t ∧ t ≤ e : K) ≤ c + (e - a) * r

/-- What keeps to the bound and has a draw at all lets one through. -/
theorem Conforms.one_le {t : K} {ts : List K} (h : Conforms c r (t :: ts)) : 1 ≤ c := by
  have hmoment := h t t le_rfl
  rw [List.countP_cons_of_pos (by simp), sub_self, zero_mul, add_zero] at hmoment
  push_cast at hmoment
  have hrest : (0 : K) ≤ (ts.countP fun s => t ≤ s ∧ s ≤ t : ℕ) := Nat.cast_nonneg _
  linarith

theorem Conforms.of_append_right {ts ts' : List K} (h : Conforms c r (ts ++ ts')) :
    Conforms c r ts' := by
  intro a e hae
  refine le_trans ?_ (h a e hae)
  rw [List.countP_append, Nat.cast_add]
  exact le_add_of_nonneg_left (Nat.cast_nonneg _)

/-- The bucket was last full at `h`, and the draws since are `recent`. -/
structure Busy (c r h : K) (recent : List K) (b : TokenBucket K) : Prop where
  tokens : b.tokens = c - recent.length + (b.since - h) * r
  since : h ≤ b.since
  recent : ∀ t ∈ recent, h ≤ t ∧ t ≤ b.since

omit [IsStrictOrderedRing K] in
theorem Busy.level_eq {h t : K} {recent : List K} {b : TokenBucket K}
    (hbusy : Busy c r h recent b) :
    b.level c r t = min (c - recent.length + (t - h) * r) c := by
  rw [level, hbusy.tokens]
  congr 1
  ring

/-- The draws since the bucket was last full, and one more, are within the bound. -/
theorem Busy.length_le {h t : K} {recent ts : List K} {b : TokenBucket K}
    (hbusy : Busy c r h recent b) (hconforms : Conforms c r (recent ++ t :: ts))
    (ht : b.since ≤ t) : (recent.length : K) + 1 ≤ c + (t - h) * r := by
  have hwindow := hconforms h t (hbusy.since.trans ht)
  have hall : recent.countP (fun s => h ≤ s ∧ s ≤ t) = recent.length :=
    List.countP_eq_length.mpr fun s hs =>
      decide_eq_true ⟨(hbusy.recent s hs).1, (hbusy.recent s hs).2.trans ht⟩
  rw [List.countP_append, hall,
    List.countP_cons_of_pos (by simpa using hbusy.since.trans ht)] at hwindow
  push_cast at hwindow
  have hrest : (0 : K) ≤ (ts.countP fun s => h ≤ s ∧ s ≤ t : ℕ) := Nat.cast_nonneg _
  linarith

/-- A draw that the bound allows succeeds, and the bucket is busy since it was last full. -/
theorem Busy.draw {h t : K} {recent ts : List K} {b : TokenBucket K} (hbusy : Busy c r h recent b)
    (hconforms : Conforms c r (recent ++ t :: ts)) (ht : b.since ≤ t) :
    (b.draw c r t).2 = true ∧
      ∃ h' recent', Busy c r h' recent' (b.draw c r t).1 ∧ Conforms c r (recent' ++ ts) := by
  have hmany := hbusy.length_le hconforms ht
  have henough : 1 ≤ b.level c r t := by
    rw [hbusy.level_eq]
    exact le_min (by linarith) hconforms.of_append_right.one_le
  rw [draw_of_le henough]
  refine ⟨rfl, ?_⟩
  obtain hcap | hbelow := le_total c (c - recent.length + (t - h) * r)
  · refine ⟨t, [t], ⟨?_, le_rfl, by simp⟩, hconforms.of_append_right⟩
    rw [hbusy.level_eq, min_eq_right hcap]
    simp
  · refine ⟨h, recent ++ [t], ⟨?_, hbusy.since.trans ht, ?_⟩, by simpa using hconforms⟩
    · rw [hbusy.level_eq, min_eq_left hbelow]
      push_cast [List.length_append, List.length_singleton]
      ring
    · intro s hs
      obtain hs | hs := List.mem_append.mp hs
      · exact ⟨(hbusy.recent s hs).1, (hbusy.recent s hs).2.trans ht⟩
      · obtain rfl := List.mem_singleton.mp hs
        exact ⟨hbusy.since.trans ht, le_rfl⟩

theorem Busy.draws {h : K} {recent ts : List K} {b : TokenBucket K} (hbusy : Busy c r h recent b)
    (hconforms : Conforms c r (recent ++ ts)) (hts : (b.since :: ts).Pairwise (· ≤ ·)) :
    ∀ d ∈ b.draws c r ts, d.2 = true := by
  induction ts generalizing b h recent with
  | nil => exact fun d hd => absurd hd List.not_mem_nil
  | cons t ts ih =>
    obtain ⟨hsince, htail⟩ := List.pairwise_cons.mp hts
    obtain ⟨htrue, h', recent', hbusy', hconforms'⟩ :=
      hbusy.draw hconforms (hsince t List.mem_cons_self)
    exact List.forall_mem_cons.mpr ⟨htrue, ih hbusy' hconforms' (by rwa [draw_since])⟩

/-- **Never too few.**  From a full bucket, draws that keep to the bound all succeed. -/
theorem Conforms.draws {ts : List K} (h : Conforms c r ts) {t₀ : K}
    (hts : (t₀ :: ts).Pairwise (· ≤ ·)) :
    ∀ d ∈ (⟨c, t₀⟩ : TokenBucket K).draws c r ts, d.2 = true := by
  have hbusy : Busy c r t₀ [] ⟨c, t₀⟩ := ⟨by simp, le_rfl, by simp⟩
  exact hbusy.draws h hts

/-! ## When there is a token again

Until then draws fail, and do not put it off. -/

/-- The time from which the bucket holds a whole token. -/
def ready (r : K) (b : TokenBucket K) : K := b.since + (1 - b.tokens) / r

section

variable {b : TokenBucket K} {t : K} (hc : 1 ≤ c) (hr : 0 < r)

include hc hr

theorem one_le_level_iff : 1 ≤ b.level c r t ↔ b.ready r ≤ t := by
  rw [level, le_min_iff, and_iff_left hc, ready, ← le_sub_iff_add_le', div_le_iff₀ hr,
    sub_le_iff_le_add']

/-- **A draw succeeds exactly if the bucket is ready.** -/
theorem snd_draw_eq_true_iff : (b.draw c r t).2 = true ↔ b.ready r ≤ t := by
  rw [← one_le_level_iff hc hr]
  by_cases h : 1 ≤ b.level c r t
  · rw [draw_of_le h]
    exact iff_of_true rfl h
  · rw [draw_of_lt (not_le.mp h)]
    exact iff_of_false Bool.false_ne_true h

/-- Refilled in between, the bucket is ready no later and no earlier. -/
theorem ready_draw_of_lt (h : t < b.ready r) : (b.draw c r t).1.ready r = b.ready r := by
  have hlevel : b.level c r t < 1 := not_le.mp fun hle => h.not_ge ((one_le_level_iff hc hr).mp hle)
  have hbelow : b.level c r t = b.tokens + (t - b.since) * r :=
    min_eq_left (not_lt.mp fun hcap => (hlevel.trans_le hc).ne (min_eq_right hcap.le))
  rw [draw_of_lt hlevel, hbelow, ready, ready]
  dsimp only
  field_simp
  ring

/-- **Draws before it is ready fail, and leave the bucket ready when it was.** -/
theorem draws_before_ready {early : List K} (hearly : ∀ t ∈ early, t < b.ready r) (ts : List K) :
    ∃ b' : TokenBucket K, b'.ready r = b.ready r ∧
      b.draws c r (early ++ ts) = early.map (·, false) ++ b'.draws c r ts := by
  induction early generalizing b with
  | nil => exact ⟨b, rfl, rfl⟩
  | cons t early ih =>
    obtain ⟨ht, hlater⟩ := List.forall_mem_cons.mp hearly
    have hready := ready_draw_of_lt hc hr ht
    have hfails : (b.draw c r t).2 = false :=
      eq_false_of_ne_true fun h => ht.not_ge ((snd_draw_eq_true_iff hc hr).mp h)
    obtain ⟨b', hb', hdraws⟩ := ih (b := (b.draw c r t).1) (by rwa [hready])
    refine ⟨b', hb'.trans hready, ?_⟩
    rw [List.cons_append, draws, hdraws, hfails]
    rfl

/-- **No draw before it is ready succeeds.** -/
theorem snd_of_mem_draws_of_lt {ts : List K} (hts : ts.Pairwise (· ≤ ·)) {d : K × Bool}
    (hd : d ∈ b.draws c r ts) (hlt : d.1 < b.ready r) : d.2 = false := by
  induction ts generalizing b with
  | nil => cases hd
  | cons t ts ih =>
    obtain ⟨hfirst, htail⟩ := List.pairwise_cons.mp hts
    obtain rfl | hd := List.mem_cons.mp hd
    · exact eq_false_of_ne_true fun h => hlt.not_ge ((snd_draw_eq_true_iff hc hr).mp h)
    · have ht : t < b.ready r := (hfirst d.1 (fst_of_mem_draws hd)).trans_lt hlt
      exact ih htail hd (by rwa [ready_draw_of_lt hc hr ht])

/-- **The first draw from a ready bucket succeeds**, whatever failed before. -/
theorem draws_at_ready {early : List K} (hearly : ∀ t ∈ early, t < b.ready r)
    (ht : b.ready r ≤ t) (ts : List K) :
    ∃ late, b.draws c r (early ++ t :: ts) = early.map (·, false) ++ (t, true) :: late := by
  obtain ⟨b', hb', hdraws⟩ := draws_before_ready hc hr hearly (t :: ts)
  have hdraw : (b'.draw c r t).2 = true := (snd_draw_eq_true_iff hc hr).mpr (hb'.trans_le ht)
  refine ⟨(b'.draw c r t).1.draws c r ts, ?_⟩
  rw [hdraws, draws, hdraw]

/-- **Draws that leave a token's time between them** all succeed. -/
theorem snd_of_mem_draws_of_spaced {ts : List K} (hb : 0 ≤ b.tokens)
    (hts : (b.since :: ts).Pairwise fun s t => s + 1 / r ≤ t) :
    ∀ d ∈ b.draws c r ts, d.2 = true := by
  induction ts generalizing b with
  | nil => exact fun d hd => absurd hd List.not_mem_nil
  | cons t ts ih =>
    obtain ⟨hsince, htail⟩ := List.pairwise_cons.mp hts
    have ht : b.since + 1 / r ≤ t := hsince t List.mem_cons_self
    have hwait : (1 - b.tokens) / r ≤ 1 / r := div_le_div_of_nonneg_right (sub_le_self 1 hb) hr.le
    have hready : b.ready r ≤ t := (add_le_add_right hwait b.since).trans ht
    have hnow : b.since ≤ t := (le_add_of_nonneg_right (one_div_nonneg.mpr hr.le)).trans ht
    refine List.forall_mem_cons.mpr ⟨(snd_draw_eq_true_iff hc hr).mpr hready, ih ?_ ?_⟩
    · exact tokens_draw_nonneg (zero_le_one.trans hc) hr.le hb hnow
    · rwa [draw_since]

end

end TokenBucket
