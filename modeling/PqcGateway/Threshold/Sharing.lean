import PqcGateway.Threshold.Field
import PqcGateway.Machinery.Shamir

/-!
# Threshold/Sharing — splitting a secret into shares and reconstructing it

`splitSecret` shares each byte of the secret by a polynomial over `GF256` whose higher coefficients
are random bytes; `reconstructSecret` interpolates each byte at zero.  The source's folds are the
evaluation (`gf256PolyEval_eq`) and the weighted sum (`gf256LagrangeInterpolateZero_eq`) of
`Machinery/Shamir`, so any `threshold` shares give the secret back
(`reconstructSecret_splitSecret`).
-/

open Polynomial

namespace PqcGateway

/-! ## Polynomials over bytes -/

/-- One turn of `gf256_poly_eval`, on the pair of `result` and `x_power`. -/
def polyEvalStep (x : UInt8) (acc : UInt8 × UInt8) (c : UInt8) : UInt8 × UInt8 :=
  (acc.1 ^^^ gf256Mul c acc.2, gf256Mul acc.2 x)

/-- Evaluate a polynomial at `x` in GF(256); `coeffs[0]` is the constant term. -/
def gf256PolyEval (coeffs : List UInt8) (x : UInt8) : UInt8 :=
  (coeffs.foldl (polyEvalStep x) (0, 1)).1

/-- One turn of the interpolation's inner loop, on the pair of `numerator` and `denominator`; the
turn `j = i` is skipped. -/
def lagrangeStep (i : ℕ) (xi : UInt8) (acc : UInt8 × UInt8) (point : (UInt8 × UInt8) × ℕ) :
    UInt8 × UInt8 :=
  if i = point.2 then acc else (gf256Mul acc.1 point.1.1, gf256Mul acc.2 (xi ^^^ point.1.1))

/-- The inner loop of the interpolation: numerator and denominator of point `i`'s coefficient. -/
def lagrangeFraction (points : List (UInt8 × UInt8)) (i : ℕ) (xi : UInt8) : UInt8 × UInt8 :=
  points.zipIdx.foldl (lagrangeStep i xi) (1, 1)

/-- Point `i`'s contribution to the interpolated value. -/
def lagrangeTerm (points : List (UInt8 × UInt8)) (i : ℕ) (point : UInt8 × UInt8) :
    Checked UInt8 := do
  let (numerator, denominator) := lagrangeFraction points i point.1
  let inverse ← gf256Inv denominator
  let lagrangeCoeff := gf256Mul numerator inverse
  pure (gf256Mul point.2 lagrangeCoeff)

/-- One turn of the interpolation's outer loop. -/
def interpolateStep (points : List (UInt8 × UInt8)) (result : UInt8)
    (point : (UInt8 × UInt8) × ℕ) : Checked UInt8 := do
  let term ← lagrangeTerm points point.2 point.1
  pure (result ^^^ term)

/-- Lagrange interpolation at `x = 0` in GF(256), from `(x, y)` pairs. -/
def gf256LagrangeInterpolateZero (points : List (UInt8 × UInt8)) : Checked UInt8 :=
  points.zipIdx.foldlM (interpolateStep points) 0

/-! ## Shares -/

/-- A single share: its index (1-based) and one byte per byte of the secret. -/
structure Share where
  id : UInt8
  data : List UInt8
deriving DecidableEq, Repr

/-- How many shares there are and how many reconstruct. -/
structure SharingConfig where
  threshold : UInt8
  totalShares : UInt8
deriving DecidableEq, Repr

namespace SharingConfig

/-- `SharingConfig::new`, with its two assertions. -/
def new (threshold totalShares : UInt8) : Checked SharingConfig := do
  Checked.assert (threshold ≥ 2) "Threshold must be at least 2"
  Checked.assert (totalShares ≥ threshold) "Total shares must be >= threshold"
  pure ⟨threshold, totalShares⟩

/-- The configurations the constructor lets through. -/
structure Valid (config : SharingConfig) : Prop where
  two_le : 2 ≤ config.threshold
  le_total : config.threshold ≤ config.totalShares

theorem new_eq_ok {t n : UInt8} {config : SharingConfig} :
    new t n = .ok config ↔ config = ⟨t, n⟩ ∧ config.Valid := by
  simp only [new, Checked.bind_eq_ok, Checked.assert_eq_ok, pure, Except.pure, Except.ok.injEq]
  constructor
  · rintro ⟨_, h₂, _, hn, rfl⟩
    exact ⟨rfl, h₂, hn⟩
  · rintro ⟨rfl, h₂, hn⟩
    exact ⟨(), h₂, (), hn, rfl⟩

end SharingConfig

/-- The system's randomness: byte `j` that call `k` of `fill_bytes` writes. -/
abbrev OsRng : Type := ℕ → ℕ → UInt8

/-- The share indices `1..=total_shares`. -/
def shareIds (config : SharingConfig) : List UInt8 :=
  (List.range config.totalShares.toNat).map fun i => UInt8.ofNat (i + 1)

/-- The loop over the bytes of the secret from byte `k` on: draw the higher coefficients and push
one value onto every share. -/
def splitLoop (rng : OsRng) (config : SharingConfig) :
    ℕ → List UInt8 → List Share → Checked (List Share)
  | _, [], shares => .ok shares
  | k, secretByte :: secret, shares => do
    let n ← Checked.checkedSub config.threshold.toNat 1
    let coeffs := secretByte :: (List.range n).map (rng k)
    splitLoop rng config (k + 1) secret
      (shares.map fun share =>
        { share with data := share.data ++ [gf256PolyEval coeffs share.id] })

/-- Split a secret into shares using Shamir's scheme over GF(256). -/
def splitSecret (rng : OsRng) (secret : List UInt8) (config : SharingConfig) :
    Checked (List Share) := do
  Checked.assert (secret ≠ []) "Secret must not be empty"
  splitLoop rng config 0 secret ((shareIds config).map fun id => ⟨id, []⟩)

/-- The points byte `k` is interpolated from.  Every share has a byte `k` where this is called. -/
def sharePoints (shares : List Share) (k : ℕ) : List (UInt8 × UInt8) :=
  shares.map fun s => (s.id, s.data.getD k 0)

/-- Reconstruct a secret from `threshold` or more shares. -/
def reconstructSecret (shares : List Share) : Checked (List UInt8) := do
  Checked.assert (shares ≠ []) "Need at least one share"
  let secretLen := (shares.head?.map fun s => s.data.length).getD 0
  Checked.assert (∀ s ∈ shares, s.data.length = secretLen)
    "All shares must have the same data length"
  (List.range secretLen).mapM fun k => gf256LagrangeInterpolateZero (sharePoints shares k)

/-! ## The folds are evaluation and interpolation

From here on shares are points of polynomials over `GF256`. -/

theorem foldl_polyEvalStep (x : UInt8) (cs : List UInt8) (result xPower : UInt8) :
    (cs.foldl (polyEvalStep x) (result, xPower)).1
      = (⟨result⟩ + ⟨xPower⟩ * (Shamir.toPoly (cs.map GF256.mk)).eval ⟨x⟩ : GF256).byte := by
  induction cs generalizing result xPower with
  | nil => simp [Shamir.toPoly]
  | cons c cs ih =>
    rw [List.foldl_cons, polyEvalStep, ih, List.map_cons, Shamir.eval_toPoly_cons, GF256.mk_xor,
      GF256.mk_mul, GF256.mk_mul]
    congr 1
    ring

/-- **`gf256_poly_eval` evaluates the polynomial of its coefficients.** -/
theorem gf256PolyEval_eq (coeffs : List UInt8) (x : UInt8) :
    gf256PolyEval coeffs x = ((Shamir.toPoly (coeffs.map GF256.mk)).eval ⟨x⟩).byte := by
  rw [gf256PolyEval, foldl_polyEvalStep]
  exact congrArg GF256.byte ((zero_add _).trans (one_mul _))

section Interpolation

variable (points : List (UInt8 × UInt8))

/-- The points' first coordinates, as field elements. -/
def abscissa (i : Fin points.length) : GF256 := ⟨points[i].1⟩

/-- The points' second coordinates, as field elements. -/
def ordinate (i : Fin points.length) : GF256 := ⟨points[i].2⟩

variable {points}

theorem abscissa_injective (h : (points.map Prod.fst).Nodup) :
    Function.Injective (abscissa points) := by
  intro i j hij
  have hx : (points.map Prod.fst)[i] = (points.map Prod.fst)[j] := by
    simpa [abscissa] using hij
  exact Fin.ext ((List.Nodup.getElem_inj_iff h).mp hx)

/-- A list product over the indexed points, as a product over the indices. -/
theorem prod_map_zipIdx {M : Type*} [CommMonoid M] (g : (UInt8 × UInt8) × ℕ → M) :
    (points.zipIdx.map g).prod = ∏ i : Fin points.length, g (points[i], i) := by
  rw [← List.prod_ofFn]
  congr 1
  exact List.ext_getElem (by simp) fun i _ _ => by simp

theorem sum_map_zipIdx {M : Type*} [AddCommMonoid M] (g : (UInt8 × UInt8) × ℕ → M) :
    (points.zipIdx.map g).sum = ∑ i : Fin points.length, g (points[i], i) := by
  rw [← List.sum_ofFn]
  congr 1
  exact List.ext_getElem (by simp) fun i _ _ => by simp

/-- The indexed points are the points at the indices. -/
theorem exists_of_mem_zipIdx {p : (UInt8 × UInt8) × ℕ} (hp : p ∈ points.zipIdx) :
    ∃ i : Fin points.length, p = (points[i], ↑i) := by
  obtain ⟨i, hi, rfl⟩ := List.getElem_of_mem hp
  exact ⟨⟨i, by simpa using hi⟩, by simp⟩

theorem foldl_lagrangeStep (i : ℕ) (xi : UInt8) (l : List ((UInt8 × UInt8) × ℕ))
    (numerator denominator : UInt8) :
    l.foldl (lagrangeStep i xi) (numerator, denominator)
      = ((⟨numerator⟩ * (l.map fun p => if p.2 ≠ i then ⟨p.1.1⟩ else 1).prod : GF256).byte,
        (⟨denominator⟩ * (l.map fun p => if p.2 ≠ i then ⟨xi⟩ + ⟨p.1.1⟩ else 1).prod : GF256).byte)
      := by
  induction l generalizing numerator denominator with
  | nil => simp
  | cons p l ih =>
    rw [List.foldl_cons, lagrangeStep]
    by_cases hi : p.2 = i
    · simp [ih, hi]
    · simp [ih, hi, Ne.symm hi, GF256.mk_mul, GF256.mk_xor, mul_assoc]

/-- The two products of point `i`'s coefficient run over the other indices. -/
theorem lagrangeFraction_eq (i : Fin points.length) :
    lagrangeFraction points i points[i].1
      = ((∏ j ∈ Finset.univ.erase i, -abscissa points j).byte,
        (∏ j ∈ Finset.univ.erase i, (abscissa points i - abscissa points j)).byte) := by
  have hval : ∀ j : Fin points.length, (j : ℕ) ≠ i ↔ j ≠ i := fun j => Fin.val_inj.not
  rw [lagrangeFraction, foldl_lagrangeStep, prod_map_zipIdx, prod_map_zipIdx]
  simp only [← Finset.filter_ne', Finset.prod_filter, hval, sub_eq_add_neg, GF256.neg_eq]
  exact Prod.ext (congrArg GF256.byte (one_mul _)) (congrArg GF256.byte (one_mul _))

/-- Point `i` contributes its ordinate times its weight, unless it panics on a zero denominator. -/
theorem lagrangeTerm_eq_ite (i : Fin points.length) :
    lagrangeTerm points i points[i]
      = if ∏ j ∈ Finset.univ.erase i, (abscissa points i - abscissa points j) = 0 then
          Checked.panicWith "Cannot invert 0 in GF(256)"
        else .ok (ordinate points i * Shamir.weight Finset.univ (abscissa points) i).byte := by
  rw [lagrangeTerm, lagrangeFraction_eq]
  simp only [gf256Inv_eq]
  split_ifs
  · rfl
  · simp only [Checked.ok_bind, pure, Except.pure]
    rw [GF256.byte_mul, Shamir.weight, GF256.byte_mul]
    rfl

/-- **Distinct points do not panic**: point `i` contributes its ordinate times its weight. -/
theorem lagrangeTerm_eq (h : (points.map Prod.fst).Nodup) (i : Fin points.length) :
    lagrangeTerm points i points[i]
      = .ok (ordinate points i * Shamir.weight Finset.univ (abscissa points) i).byte := by
  have hden : ∏ j ∈ Finset.univ.erase i, (abscissa points i - abscissa points j) ≠ 0 :=
    Finset.prod_ne_zero_iff.mpr fun j hj =>
      sub_ne_zero.mpr fun hij => Finset.ne_of_mem_erase hj (abscissa_injective h hij).symm
  rw [lagrangeTerm_eq_ite, if_neg hden]

/-- The outer loop adds up terms that return. -/
theorem foldlM_interpolateStep {g : (UInt8 × UInt8) × ℕ → GF256} {l : List ((UInt8 × UInt8) × ℕ)}
    (h : ∀ p ∈ l, lagrangeTerm points p.2 p.1 = .ok (g p).byte) (result : UInt8) :
    l.foldlM (interpolateStep points) result
      = .ok (⟨result⟩ + (l.map g).sum : GF256).byte := by
  induction l generalizing result with
  | nil => simp [pure, Except.pure]
  | cons p l ih =>
    rw [List.foldlM_cons, interpolateStep, h p List.mem_cons_self, Checked.ok_bind]
    refine (ih (fun q hq => h q (List.mem_cons_of_mem p hq)) _).trans ?_
    rw [List.map_cons, List.sum_cons, GF256.mk_xor, add_assoc]

/-- **The interpolated value is the weighted sum of the ordinates.** -/
theorem gf256LagrangeInterpolateZero_eq (h : (points.map Prod.fst).Nodup) :
    gf256LagrangeInterpolateZero points
      = .ok (∑ i, ordinate points i * Shamir.weight Finset.univ (abscissa points) i).byte := by
  let g : (UInt8 × UInt8) × ℕ → GF256 := fun p =>
    if hp : p.2 < points.length then
      ordinate points ⟨p.2, hp⟩ * Shamir.weight Finset.univ (abscissa points) ⟨p.2, hp⟩
    else 0
  have hg : ∀ i : Fin points.length, g (points[i], i)
      = ordinate points i * Shamir.weight Finset.univ (abscissa points) i := fun i => dif_pos i.2
  have hterm : ∀ p ∈ points.zipIdx, lagrangeTerm points p.2 p.1 = .ok (g p).byte := by
    intro p hp
    obtain ⟨i, rfl⟩ := exists_of_mem_zipIdx hp
    rw [lagrangeTerm_eq h, hg]
  rw [gf256LagrangeInterpolateZero, foldlM_interpolateStep hterm, sum_map_zipIdx]
  simp only [hg]
  exact congrArg (fun a : GF256 => Except.ok a.byte) (zero_add _)

/-- **Which value is interpolated**: the one at zero of the polynomial of degree below the number of
points that goes through them. -/
theorem gf256LagrangeInterpolateZero_eq_ok (h : (points.map Prod.fst).Nodup) {c : UInt8} :
    gf256LagrangeInterpolateZero points = .ok c ↔
      ∃ f : GF256[X], f.degree < points.length ∧ f.eval 0 = ⟨c⟩ ∧
        ∀ p ∈ points, f.eval ⟨p.1⟩ = ⟨p.2⟩ := by
  have hpoints : ∀ f : GF256[X], (∀ i, f.eval (abscissa points i) = ordinate points i) ↔
      ∀ p ∈ points, f.eval ⟨p.1⟩ = ⟨p.2⟩ := by
    intro f
    rw [List.forall_mem_iff_get]
    rfl
  have hbyte : ∀ a : GF256, a.byte = c ↔ a = ⟨c⟩ := fun a => GF256.ext_iff.symm
  rw [gf256LagrangeInterpolateZero_eq h, Except.ok.injEq, hbyte,
    Shamir.sum_weight_eq_iff (abscissa_injective h).injOn]
  simp only [Finset.card_univ, Fintype.card_fin, Finset.mem_univ, true_imp_iff, hpoints]

/-- **Points of a polynomial of lower degree interpolate to its constant term.** -/
theorem gf256LagrangeInterpolateZero_polyEval (h : (points.map Prod.fst).Nodup) (c : UInt8)
    (cs : List UInt8) (hlen : cs.length < points.length)
    (heval : ∀ p ∈ points, p.2 = gf256PolyEval (c :: cs) p.1) :
    gf256LagrangeInterpolateZero points = .ok c := by
  refine (gf256LagrangeInterpolateZero_eq_ok h).mpr
    ⟨Shamir.toPoly ((c :: cs).map GF256.mk), ?_, Shamir.eval_zero_toPoly_cons _ _, fun p hp => ?_⟩
  · refine (Shamir.degree_toPoly_lt _).trans_le ?_
    rw [List.length_map, List.length_cons]
    exact_mod_cast hlen
  · exact GF256.ext ((heval p hp).trans (gf256PolyEval_eq _ _)).symm

end Interpolation

/-! ## Splitting and reconstructing -/

/-- The coefficients byte `k` of the secret is shared by, when its value is `b`. -/
def shareCoeffs (rng : OsRng) (config : SharingConfig) (k : ℕ) (b : UInt8) : List UInt8 :=
  b :: (List.range (config.threshold.toNat - 1)).map (rng k)

/-- The share with index `id`: the value at `id` of each byte's polynomial. -/
def shareOf (rng : OsRng) (config : SharingConfig) (secret : List UInt8) (id : UInt8) : Share :=
  ⟨id, secret.zipIdx.map fun p => gf256PolyEval (shareCoeffs rng config p.2 p.1) id⟩

variable {rng : OsRng} {config : SharingConfig} {secret : List UInt8}

theorem SharingConfig.Valid.one_le (h : config.Valid) : 1 ≤ config.threshold.toNat :=
  le_trans (by decide) (UInt8.le_iff_toNat_le.mp h.two_le)

theorem splitLoop_eq (ht : 1 ≤ config.threshold.toNat) (k : ℕ) (shares : List Share) :
    splitLoop rng config k secret shares = .ok (shares.map fun share =>
      { share with
        data := share.data ++
          (secret.zipIdx k).map fun p => gf256PolyEval (shareCoeffs rng config p.2 p.1) share.id })
      := by
  induction secret generalizing k shares with
  | nil => simp [splitLoop]
  | cons b secret ih =>
    rw [splitLoop, Checked.checkedSub_of_le ht, Checked.ok_bind, ih, List.map_map]
    refine congrArg Except.ok (List.map_congr_left fun share _ => ?_)
    simp [shareCoeffs]

/-- **The shares are the values of the polynomials at the share indices.** -/
theorem splitSecret_eq (hsecret : secret ≠ []) (ht : 1 ≤ config.threshold.toNat) :
    splitSecret rng secret config = .ok ((shareIds config).map (shareOf rng config secret)) := by
  rw [splitSecret, Checked.assert_of hsecret, Checked.ok_bind, splitLoop_eq ht, List.map_map]
  rfl

/-- The indices fit a byte. -/
theorem toNat_shareId {i : ℕ} (hi : i < config.totalShares.toNat) :
    (UInt8.ofNat (i + 1)).toNat = i + 1 :=
  UInt8.toNat_ofNat_of_lt' (lt_of_le_of_lt hi config.totalShares.toNat_lt)

theorem mem_shareIds {id : UInt8} : id ∈ shareIds config ↔ 1 ≤ id ∧ id ≤ config.totalShares := by
  simp only [shareIds, List.mem_map, List.mem_range, UInt8.le_iff_toNat_le]
  constructor
  · rintro ⟨i, hi, rfl⟩
    rw [toNat_shareId hi]
    exact ⟨Nat.succ_pos i, hi⟩
  · rintro ⟨h1, hle⟩
    have h1' : 1 ≤ id.toNat := h1
    refine ⟨id.toNat - 1, by omega, ?_⟩
    rw [Nat.sub_add_cancel h1', UInt8.ofNat_toNat]

theorem nodup_shareIds (config : SharingConfig) : (shareIds config).Nodup := by
  refine List.Nodup.map_on (fun i hi j hj hij => ?_) List.nodup_range
  have hij' := congrArg UInt8.toNat hij
  rw [toNat_shareId (List.mem_range.mp hi), toNat_shareId (List.mem_range.mp hj)] at hij'
  omega

@[simp] theorem length_shareOf_data (id : UInt8) :
    (shareOf rng config secret id).data.length = secret.length := by
  simp [shareOf]

theorem getD_shareOf_data {k : ℕ} (hk : k < secret.length) (id : UInt8) :
    (shareOf rng config secret id).data.getD k 0
      = gf256PolyEval (shareCoeffs rng config k secret[k]) id := by
  simp [shareOf, hk]

@[simp] theorem map_fst_sharePoints (shares : List Share) (k : ℕ) :
    (sharePoints shares k).map Prod.fst = shares.map Share.id := by
  simp [sharePoints]

/-- Shares of one length are interpolated byte by byte. -/
theorem reconstructSecret_of_length {shares : List Share} {n : ℕ} (hne : shares ≠ [])
    (hlen : ∀ s ∈ shares, s.data.length = n) :
    reconstructSecret shares
      = (List.range n).mapM fun k => gf256LagrangeInterpolateZero (sharePoints shares k) := by
  obtain ⟨first, rest, rfl⟩ := List.exists_cons_of_ne_nil hne
  have hfirst : first.data.length = n := hlen first List.mem_cons_self
  rw [reconstructSecret, Checked.assert_of hne, Checked.ok_bind]
  simp only [List.head?_cons, Option.map_some, Option.getD_some, hfirst]
  rw [Checked.assert_of hlen, Checked.ok_bind]

/-- **Any `threshold` shares with distinct indices give the secret back.** -/
theorem reconstructSecret_of_shareOf (ht : 1 ≤ config.threshold.toNat) {shares : List Share}
    (hshares : ∀ s ∈ shares, s = shareOf rng config secret s.id)
    (hids : (shares.map Share.id).Nodup) (hlen : config.threshold.toNat ≤ shares.length) :
    reconstructSecret shares = .ok secret := by
  have hdata : ∀ s ∈ shares, s.data.length = secret.length := fun s hs => by
    rw [hshares s hs, length_shareOf_data]
  -- every byte is interpolated from points of its own polynomial
  have hbyte : ∀ k ∈ List.range secret.length,
      gf256LagrangeInterpolateZero (sharePoints shares k) = .ok (secret.getD k 0) := by
    intro k hk
    have hk' : k < secret.length := List.mem_range.mp hk
    have hget : secret.getD k 0 = secret[k] := by simp [hk']
    rw [hget]
    refine gf256LagrangeInterpolateZero_polyEval (by rwa [map_fst_sharePoints]) _
      ((List.range (config.threshold.toNat - 1)).map (rng k)) ?_ fun p hp => ?_
    · simp only [sharePoints, List.length_map, List.length_range]
      omega
    · obtain ⟨s, hs, rfl⟩ := List.mem_map.mp hp
      rw [hshares s hs]
      exact getD_shareOf_data hk' s.id
  have hne : shares ≠ [] := List.ne_nil_of_length_pos (by omega)
  rw [reconstructSecret_of_length hne hdata, List.mapM_eq_pure hbyte]
  exact congrArg Except.ok (List.ext_getElem (by simp) fun k _ hk => by simp [hk])

/-- **Shamir round trip.**  Splitting succeeds, and every list of at least `threshold` of the shares
with distinct indices, in any order, reconstructs the secret. -/
theorem reconstructSecret_splitSecret (rng : OsRng) (config : SharingConfig) (secret : List UInt8)
    (hsecret : secret ≠ []) (hconfig : config.Valid) :
    ∃ out, splitSecret rng secret config = .ok out ∧
      ∀ shares : List Share, (∀ s ∈ shares, s ∈ out) → (shares.map Share.id).Nodup →
        config.threshold.toNat ≤ shares.length → reconstructSecret shares = .ok secret := by
  refine ⟨_, splitSecret_eq hsecret hconfig.one_le, fun shares hout hids hlen => ?_⟩
  have hshares : ∀ s ∈ shares, s = shareOf rng config secret s.id := fun s hs => by
    obtain ⟨id, -, rfl⟩ := List.mem_map.mp (hout s hs)
    rfl
  exact reconstructSecret_of_shareOf hconfig.one_le hshares hids hlen

/-- Two shares of three, out of order. -/
theorem reconstructSecret_two_of_three :
    reconstructSecret [⟨3, [37, 13]⟩, ⟨1, [47, 1]⟩] = .ok [42, 7] := by
  obtain ⟨out, hout, h⟩ := reconstructSecret_splitSecret (fun k j => UInt8.ofNat (k + j + 5)) ⟨2, 3⟩
    [42, 7] (by decide) ⟨by decide, by decide⟩
  have hsplit : out = [⟨1, [47, 1]⟩, ⟨2, [32, 11]⟩, ⟨3, [37, 13]⟩] := by
    rw [← Except.ok.injEq, ← hout]
    decide
  exact h _ (by simp [hsplit]) (by decide) (by decide)

end PqcGateway
