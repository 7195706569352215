import Mathlib.LinearAlgebra.Lagrange

/-!
# Machinery/Shamir — polynomial secret sharing over a field

The secret is the constant term of a polynomial and the shares are its values at nonzero points.

* `eval_zero_eq_sum_weight` — **recovery**: the constant term of a polynomial of degree below the
  number of samples is a fixed combination (`weight`) of them.  Of fewer samples the combination is
  the value at zero of another polynomial (`sum_weight_eq_iff`), and no sample can be changed
  without a change of it (`eq_of_eval_zero_eq`).
* `mask_surjective` — **secrecy**: the higher coefficients move the values on at most as many
  nonzero points as there are coefficients to any target, so every fibre has the same size
  (`card_mask_fiber_eq`) and a full set of points has exactly one (`mask_bijective`).
-/

open Polynomial

namespace Shamir

variable {F : Type*} [Field F]

/-! ## Coefficient lists

The polynomial of a list, lowest coefficient first, as Horner's rule evaluates it. -/

/-- The polynomial with the listed coefficients, constant term first. -/
noncomputable def toPoly : List F → F[X]
  | [] => 0
  | c :: cs => C c + X * toPoly cs

@[simp] theorem eval_toPoly_cons (c : F) (cs : List F) (x : F) :
    (toPoly (c :: cs)).eval x = c + x * (toPoly cs).eval x := by
  simp [toPoly]

theorem eval_zero_toPoly_cons (c : F) (cs : List F) : (toPoly (c :: cs)).eval 0 = c := by
  rw [eval_toPoly_cons, zero_mul, add_zero]

theorem degree_toPoly_lt (cs : List F) : (toPoly cs).degree < cs.length := by
  induction cs with
  | nil => simp [toPoly]
  | cons c cs ih =>
    rw [toPoly, List.length_cons]
    refine (degree_add_le _ _).trans_lt (max_lt ?_ ?_)
    · exact degree_C_le.trans_lt (by exact_mod_cast Nat.succ_pos _)
    · rw [degree_mul, degree_X, add_comm, Nat.cast_add, Nat.cast_one]
      exact WithBot.add_lt_add_right WithBot.one_ne_bot ih

theorem eval_toPoly_ofFn {n : ℕ} (c : Fin n → F) (x : F) :
    (toPoly (List.ofFn c)).eval x = ∑ j, c j * x ^ (j : ℕ) := by
  induction n with
  | zero => simp [toPoly]
  | succ n ih =>
    rw [List.ofFn_succ, eval_toPoly_cons, ih, Fin.sum_univ_succ, Finset.mul_sum]
    simp only [Fin.val_zero, pow_zero, mul_one, Fin.val_succ, pow_succ]
    congr 1
    exact Finset.sum_congr rfl fun j _ => by ring

/-! ## Recovery

Lagrange interpolation, evaluated at zero. -/

section Recovery

variable {ι : Type*} [DecidableEq ι]

/-- The weight of sample `i` in the value at zero of a polynomial sampled at the points `v`. -/
def weight (s : Finset ι) (v : ι → F) (i : ι) : F :=
  (∏ j ∈ s.erase i, -v j) * (∏ j ∈ s.erase i, (v i - v j))⁻¹

theorem eval_zero_basis (s : Finset ι) (v : ι → F) (i : ι) :
    (Lagrange.basis s v i).eval 0 = weight s v i := by
  rw [Lagrange.basis, eval_prod, weight, ← Finset.prod_inv_distrib, ← Finset.prod_mul_distrib]
  refine Finset.prod_congr rfl fun j _ => ?_
  simp [Lagrange.basisDivisor, mul_comm]

/-- **Recovery**: the constant term is the weighted sum of the samples. -/
theorem eval_zero_eq_sum_weight {f : F[X]} {s : Finset ι} {v : ι → F} (hv : Set.InjOn v s)
    (hf : f.degree < s.card) : f.eval 0 = ∑ i ∈ s, f.eval (v i) * weight s v i := by
  conv_lhs => rw [Lagrange.eq_interpolate hv hf]
  rw [Lagrange.interpolate_apply, eval_finsetSum]
  refine Finset.sum_congr rfl fun i _ => ?_
  rw [eval_mul, eval_C, eval_zero_basis]

/-- **What any samples combine to**: the value at zero of the polynomial of degree below their
number that takes them. -/
theorem sum_weight_eq_iff {s : Finset ι} {v : ι → F} (hv : Set.InjOn v s) (y : ι → F) (c : F) :
    ∑ i ∈ s, y i * weight s v i = c ↔
      ∃ f : F[X], f.degree < s.card ∧ f.eval 0 = c ∧ ∀ i ∈ s, f.eval (v i) = y i := by
  have hsum : ∀ f : F[X], f.degree < s.card → (∀ i ∈ s, f.eval (v i) = y i) →
      f.eval 0 = ∑ i ∈ s, y i * weight s v i := by
    intro f hdeg hval
    rw [eval_zero_eq_sum_weight hv hdeg]
    exact Finset.sum_congr rfl fun i hi => by rw [hval i hi]
  constructor
  · rintro rfl
    have hdeg := Lagrange.degree_interpolate_lt y hv
    have hval : ∀ i ∈ s, (Lagrange.interpolate s v y).eval (v i) = y i := fun i hi =>
      Lagrange.eval_interpolate_at_node y hv hi
    exact ⟨_, hdeg, hsum _ hdeg hval, hval⟩
  · rintro ⟨f, hdeg, rfl, hval⟩
    exact (hsum f hdeg hval).symm

end Recovery

/-- **A sample cannot change alone**: polynomials that agree at zero and at as many nonzero points
as their degree may have are equal. -/
theorem eq_of_eval_zero_eq {f g : F[X]} {s : Finset F} (h0 : (0 : F) ∉ s)
    (hf : f.degree < (s.card + 1 : ℕ)) (hg : g.degree < (s.card + 1 : ℕ))
    (hzero : f.eval 0 = g.eval 0) (heval : ∀ x ∈ s, f.eval x = g.eval x) : f = g := by
  classical
  rw [← Finset.card_insert_of_notMem h0] at hf hg
  exact eq_of_degrees_lt_of_eval_finset_eq _ hf hg
    ((Finset.forall_mem_insert 0 s _).mpr ⟨hzero, heval⟩)

/-! ## Secrecy

With the secret fixed, the other coefficients move the shares freely: the map from the coefficients
to the shares is affine, and onto wherever there are not too many points. -/

/-- What the coefficients above the constant term contribute to the values on `s`. -/
def mask (n : ℕ) (s : Finset F) : (Fin n → F) →+ (s → F) where
  toFun c x := x * ∑ j, c j * (x : F) ^ (j : ℕ)
  map_zero' := by
    funext x
    simp
  map_add' c d := by
    funext x
    simp [add_mul, Finset.sum_add_distrib, mul_add]

theorem mask_apply {n : ℕ} {s : Finset F} (c : Fin n → F) (x : s) :
    mask n s c x = x * ∑ j, c j * (x : F) ^ (j : ℕ) := rfl

variable [DecidableEq F] {n : ℕ} {s : Finset F}

/-- **The masks on few nonzero points are arbitrary**: interpolate the targets, each divided by its
point. -/
theorem mask_surjective (h0 : (0 : F) ∉ s) (hs : s.card ≤ n) :
    Function.Surjective (mask n s) := by
  intro y
  let r : F → F := fun x => if hx : x ∈ s then y ⟨x, hx⟩ * x⁻¹ else 0
  let p : F[X] := Lagrange.interpolate s id r
  have hdeg : p.degree < n :=
    (Lagrange.degree_interpolate_lt r Function.injective_id.injOn).trans_le (by exact_mod_cast hs)
  refine ⟨fun j => p.coeff j, funext fun x => ?_⟩
  have hsum : ∑ j : Fin n, p.coeff j * (x : F) ^ (j : ℕ) = p.eval (x : F) := by
    rw [eval_eq_sum, ← sum_fin (fun e a => a * (x : F) ^ e) (fun e => zero_mul _) hdeg]
  have hval : p.eval (x : F) = y x * (x : F)⁻¹ := by
    have := Lagrange.eval_interpolate_at_node (v := id) r Function.injective_id.injOn x.2
    simpa [p, r, x.2] using this
  have hx : (x : F) ≠ 0 := ne_of_mem_of_not_mem x.2 h0
  rw [mask_apply, hsum, hval, mul_comm, inv_mul_cancel_right₀ hx]

variable [Fintype F]

/-- **All targets are equally likely.** -/
theorem card_mask_fiber_eq (h0 : (0 : F) ∉ s) (hs : s.card ≤ n) (y z : s → F) :
    Fintype.card {c // mask n s c = y} = Fintype.card {c // mask n s c = z} := by
  rw [Fintype.card_subtype, Fintype.card_subtype]
  exact AddMonoidHom.card_fiber_eq_of_mem_range (mask n s) (mask_surjective h0 hs y)
    (mask_surjective h0 hs z)

/-- **As many points as coefficients leave one choice.** -/
theorem mask_bijective (h0 : (0 : F) ∉ s) (hs : s.card = n) : Function.Bijective (mask n s) := by
  rw [Fintype.bijective_iff_surjective_and_card]
  refine ⟨mask_surjective h0 hs.le, ?_⟩
  rw [Fintype.card_fun, Fintype.card_fun, Fintype.card_fin, Fintype.card_coe, hs]

end Shamir
