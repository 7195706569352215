import PqcGateway.Machinery.CyclicRing
import PqcGateway.Machinery.Checked
import Mathlib.Algebra.CharP.Lemmas
import Mathlib.Algebra.CharP.Two
import Mathlib.Algebra.Field.Basic
import Mathlib.Data.FinEnum
import Mathlib.Tactic.Abel
import Mathlib.Tactic.Ring

/-!
# Threshold/Field — the byte arithmetic of `threshold.rs` is the field with 256 elements

`gf256Mul` is shift-and-add with a conditional reduction at each turn.  Its loop is the action of
`b` on `a` by a polynomial in the doubling map (`mulAct`), so `CyclicAction` makes bytes under `xor`
and `gf256Mul` a commutative ring.  That ring has characteristic two, every element is its own
256-th power (`pow_card`, Frobenius fixes the generator `2`) and its only idempotents are `0` and
`1`; hence `a ^ 254` inverts `a ≠ 0` and `GF256` is a field.

* `mulLoop_eq`, `powLoop_eq` — what the source's loops compute.
* `gf256Inv_eq` — the inverse, and the panic at zero.
-/

namespace PqcGateway

/-! ## The source's loops

Each turn shifts the multiplier or the exponent right, so eight turns are enough for a byte. -/

/-- What one turn of `gf256_mul` does to `a`: shift left, and reduce by `x^8 + x^4 + x^3 + x + 1`
when the top bit is shifted out. -/
def gf256Double (a : UInt8) : UInt8 :=
  let carry := a &&& 0x80
  let a := a <<< 1
  if carry ≠ 0 then a ^^^ 0x1B else a

/-- The loop `while b > 0` of `gf256_mul`, at most `n` turns of it. -/
def gf256MulLoop : ℕ → UInt8 → UInt8 → UInt8 → UInt8
  | 0, _, _, result => result
  | n + 1, a, b, result =>
    if b > 0 then
      gf256MulLoop n (gf256Double a) (b >>> 1) (if b &&& 1 ≠ 0 then result ^^^ a else result)
    else result

/-- Multiply two elements in GF(256).  A byte is shifted to zero in eight turns
(`gf256MulLoop_halts`). -/
def gf256Mul (a b : UInt8) : UInt8 := gf256MulLoop 8 a b 0

/-- The loop `while exp > 0` of `gf256_pow`, at most `n` turns of it. -/
def gf256PowLoop : ℕ → UInt8 → UInt8 → UInt8 → UInt8
  | 0, _, _, result => result
  | n + 1, base, exp, result =>
    if exp > 0 then
      gf256PowLoop n (gf256Mul base base) (exp >>> 1)
        (if exp &&& 1 ≠ 0 then gf256Mul result base else result)
    else result

/-- Raise to a power in GF(256). -/
def gf256Pow (base exp : UInt8) : UInt8 := gf256PowLoop 8 base exp 1

/-- Multiplicative inverse in GF(256): `a ^ 254`, with a panic at zero. -/
def gf256Inv (a : UInt8) : Checked UInt8 := do
  Checked.assert (a ≠ 0) "Cannot invert 0 in GF(256)"
  pure (gf256Pow a 254)

theorem toNat_shiftRight_one (b : UInt8) : (b >>> 1).toNat = b.toNat / 2 := by
  simp [Nat.shiftRight_eq_div_pow]

theorem toNat_shiftRight_lt {b : UInt8} {n : ℕ} (h : b.toNat < 2 ^ (n + 1)) :
    (b >>> 1).toNat < 2 ^ n := by
  rw [toNat_shiftRight_one]
  omega

/-- The low bit of a byte, as the source tests it. -/
theorem and_one_ne_zero_iff (b : UInt8) : b &&& 1 ≠ 0 ↔ b.toNat % 2 = 1 := by
  rw [Ne, ← UInt8.toNat_inj, UInt8.toNat_and]
  simp [Nat.and_one_is_mod]

/-- **Eight turns are enough**: further ones find `b = 0`. -/
theorem gf256MulLoop_halts {n : ℕ} (k : ℕ) {a b result : UInt8} (h : b.toNat < 2 ^ n) :
    gf256MulLoop (n + k) a b result = gf256MulLoop n a b result := by
  induction n generalizing a b result with
  | zero =>
    obtain rfl : b = 0 := UInt8.toNat_inj.mp (by simpa using h)
    cases k <;> simp [gf256MulLoop]
  | succ n ih =>
    rw [Nat.add_right_comm]
    simp only [gf256MulLoop, ih (toNat_shiftRight_lt h)]

theorem gf256PowLoop_halts {n : ℕ} (k : ℕ) {base exp result : UInt8} (h : exp.toNat < 2 ^ n) :
    gf256PowLoop (n + k) base exp result = gf256PowLoop n base exp result := by
  induction n generalizing base exp result with
  | zero =>
    obtain rfl : exp = 0 := UInt8.toNat_inj.mp (by simpa using h)
    cases k <;> simp [gf256PowLoop]
  | succ n ih =>
    rw [Nat.add_right_comm]
    simp only [gf256PowLoop, ih (toNat_shiftRight_lt h)]

/-! ## Bytes under `xor` and the action of a multiplier

Each bit of the multiplier that is set adds a power of the doubling map. -/

/-- A byte, as an element of the field. -/
@[ext] structure GF256 where
  byte : UInt8
deriving DecidableEq

namespace GF256

/-- Field elements are bytes. -/
def equivByte : GF256 ≃ UInt8 := ⟨byte, mk, fun _ => rfl, fun _ => rfl⟩

instance : Fintype GF256 := Fintype.ofEquiv UInt8 equivByte.symm

instance : Zero GF256 := ⟨⟨0⟩⟩

instance : Add GF256 := ⟨fun a b => ⟨a.byte ^^^ b.byte⟩⟩

instance : Neg GF256 := ⟨id⟩

@[simp] theorem byte_zero : (0 : GF256).byte = 0 := rfl

@[simp] theorem byte_add (a b : GF256) : (a + b).byte = a.byte ^^^ b.byte := rfl

theorem neg_eq (a : GF256) : -a = a := rfl

/-- Addition is `xor`, and each byte is its own negative. -/
instance : AddCommGroup GF256 where
  add_assoc a b c := GF256.ext (UInt8.xor_assoc a.byte b.byte c.byte)
  zero_add _ := GF256.ext UInt8.zero_xor
  add_zero _ := GF256.ext UInt8.xor_zero
  neg_add_cancel _ := GF256.ext UInt8.xor_self
  add_comm a b := GF256.ext (UInt8.xor_comm a.byte b.byte)
  nsmul := nsmulRec
  zsmul := zsmulRec

theorem add_self (a : GF256) : a + a = 0 := GF256.ext UInt8.xor_self

end GF256

theorem and_xor (a b c : UInt8) : (a ^^^ b) &&& c = (a &&& c) ^^^ (b &&& c) := by
  rw [← UInt8.toNat_inj]
  simp [Nat.and_xor_distrib_right]

/-- A byte masked by one bit is zero or the bit. -/
theorem and_top_bit : ∀ a : UInt8, a &&& 0x80 = 0 ∨ a &&& 0x80 = 0x80 := by decide +kernel

theorem gf256Double_xor (a b : UInt8) :
    gf256Double (a ^^^ b) = gf256Double a ^^^ gf256Double b := by
  unfold gf256Double
  rw [and_xor, UInt8.shiftLeft_xor]
  -- the reduction constant is added once, twice or never, according to the two top bits
  rcases and_top_bit a with ha | ha <;> rcases and_top_bit b with hb | hb <;>
    simp [ha, hb, UInt8.xor_assoc, UInt8.xor_comm (0x1B : UInt8)]

namespace GF256

/-- Doubling, as an endomorphism of the additive group. -/
def double : AddMonoid.End GF256 where
  toFun a := ⟨gf256Double a.byte⟩
  map_zero' := rfl
  map_add' a b := GF256.ext (gf256Double_xor a.byte b.byte)

/-- The action of the low bit of the multiplier. -/
def bitAct (b : UInt8) : AddMonoid.End GF256 := if b &&& 1 ≠ 0 then 1 else 0

/-- The action of the low `n` bits of the multiplier `b`: a polynomial in `double`. -/
def mulAct : ℕ → UInt8 → AddMonoid.End GF256
  | 0, _ => 0
  | n + 1, b => bitAct b + mulAct n (b >>> 1) * double

theorem bitAct_apply (b : UInt8) (a : GF256) : bitAct b a = if b &&& 1 ≠ 0 then a else 0 := by
  unfold bitAct
  split <;> rfl

theorem mulAct_succ_apply (n : ℕ) (b : UInt8) (a : GF256) :
    mulAct (n + 1) b a = bitAct b a + mulAct n (b >>> 1) (double a) := rfl

theorem commute_bitAct (b : UInt8) (f : AddMonoid.End GF256) : Commute (bitAct b) f := by
  unfold bitAct
  split
  · exact Commute.one_left f
  · exact Commute.zero_left f

@[simp] theorem mulAct_zero_right (n : ℕ) : mulAct n 0 = 0 := by
  induction n with
  | zero => rfl
  | succ n ih => simp [mulAct, bitAct, ih]

/-- **The loop adds to its accumulator what the multiplier's action sends `a` to.** -/
theorem mulLoop_eq (n : ℕ) (a b result : UInt8) :
    gf256MulLoop n a b result = (⟨result⟩ + mulAct n b ⟨a⟩ : GF256).byte := by
  induction n generalizing a b result with
  | zero => exact UInt8.xor_zero.symm
  | succ n ih =>
    by_cases hb : b > 0
    · rw [gf256MulLoop, if_pos hb, ih, mulAct_succ_apply, bitAct_apply, ← add_assoc]
      split_ifs
      · rfl
      · rw [add_zero]
        rfl
    · obtain rfl : b = 0 := by simpa using hb
      rw [gf256MulLoop, if_neg hb, mulAct_zero_right]
      exact UInt8.xor_zero.symm

theorem gf256Mul_eq (a b : UInt8) : gf256Mul a b = (mulAct 8 b ⟨a⟩).byte := by
  rw [gf256Mul, mulLoop_eq]
  exact UInt8.zero_xor

theorem commute_mulAct_double (n : ℕ) (b : UInt8) : Commute (mulAct n b) double := by
  induction n generalizing b with
  | zero => exact Commute.zero_left _
  | succ n ih =>
    exact (commute_bitAct b _).add_left ((ih _).mul_left (Commute.refl _))

theorem commute_mulAct (n m : ℕ) (b c : UInt8) : Commute (mulAct n b) (mulAct m c) := by
  induction n generalizing b with
  | zero => exact Commute.zero_left _
  | succ n ih =>
    exact (commute_bitAct b _).add_left ((ih _).mul_left (commute_mulAct_double m c).symm)

/-- The low bits of a sum add without carry. -/
theorem bitAct_xor (b c : UInt8) : bitAct (b ^^^ c) = bitAct b + bitAct c := by
  have hself : (1 : AddMonoid.End GF256) + 1 = 0 := AddMonoidHom.ext add_self
  have hbit : ∀ a : UInt8, a &&& 1 = 0 ∨ a &&& 1 = 1 := by decide +kernel
  unfold bitAct
  rw [and_xor]
  rcases hbit b with hb | hb <;> rcases hbit c with hc | hc <;> simp [hb, hc, hself]

theorem mulAct_xor (n : ℕ) (b c : UInt8) : mulAct n (b ^^^ c) = mulAct n b + mulAct n c := by
  induction n generalizing b c with
  | zero => exact (add_zero _).symm
  | succ n ih =>
    simp only [mulAct, bitAct_xor, UInt8.shiftRight_xor, ih, add_mul]
    abel

theorem gf256Mul_one_left : ∀ b : UInt8, gf256Mul 1 b = b := by decide +kernel

/-- Bytes act on bytes by `gf256Mul`, and `1` is cyclic. -/
def mulAction : CyclicAction GF256 where
  act :=
    { toFun := fun b => mulAct 8 b.byte
      map_zero' := mulAct_zero_right 8
      map_add' := fun b c => mulAct_xor 8 b.byte c.byte }
  one := ⟨1⟩
  act_one b := GF256.ext ((gf256Mul_eq 1 b.byte).symm.trans (gf256Mul_one_left b.byte))
  comm a b := commute_mulAct 8 8 a.byte b.byte

instance : CommRing GF256 := mulAction.commRing

@[simp] theorem byte_one : (1 : GF256).byte = 1 := rfl

@[simp] theorem byte_mul (a b : GF256) : (a * b).byte = gf256Mul a.byte b.byte :=
  (gf256Mul_eq a.byte b.byte).symm

theorem mk_xor (a b : UInt8) : (⟨a ^^^ b⟩ : GF256) = ⟨a⟩ + ⟨b⟩ := rfl

theorem mk_mul (a b : UInt8) : (⟨gf256Mul a b⟩ : GF256) = ⟨a⟩ * ⟨b⟩ :=
  GF256.ext (byte_mul ⟨a⟩ ⟨b⟩).symm

theorem double_eq (a : GF256) : double a = ⟨2⟩ * a := by
  rw [mul_comm]
  refine GF256.ext ?_
  rw [byte_mul]
  exact (UInt8.zero_xor : 0 ^^^ gf256Double a.byte = _).symm

/-! ## The ring is a field

Where every element is its own 256-th power, `a ^ 255` is idempotent; so it is `1` unless `a` is
zero. -/

instance : Nontrivial GF256 := ⟨⟨0, 1, by decide⟩⟩

instance : CharP GF256 2 :=
  CharTwo.of_one_ne_zero_of_two_eq_zero one_ne_zero (one_add_one_eq_two.symm.trans (add_self 1))

/-- A ring map that fixes the generator commutes with every multiplier's action. -/
theorem map_mulAct (φ : GF256 →+* GF256) (hφ : φ ⟨2⟩ = ⟨2⟩) (n : ℕ) (b : UInt8) (a : GF256) :
    φ (mulAct n b a) = mulAct n b (φ a) := by
  induction n generalizing b a with
  | zero => exact map_zero φ
  | succ n ih =>
    rw [mulAct_succ_apply, mulAct_succ_apply, map_add, ih, double_eq, double_eq, map_mul, hφ,
      bitAct_apply, bitAct_apply]
    split
    · rfl
    · rw [map_zero]

/-- **Every element is its own 256-th power**: the eighth Frobenius fixes the generator `2`. -/
theorem pow_card (a : GF256) : a ^ 256 = a := by
  have hgen : (fun b : GF256 => b ^ 2)^[8] ⟨2⟩ = ⟨2⟩ := by
    simp only [pow_two]
    decide +kernel
  rw [pow_iterate] at hgen
  have h := map_mulAct (iterateFrobenius GF256 2 8) hgen 8 a.byte 1
  rw [map_one (iterateFrobenius GF256 2 8)] at h
  rwa [show mulAct 8 a.byte 1 = a from mulAction.act_one a] at h

/-- The ring has no idempotents but `0` and `1`, so it is not a product. -/
theorem idempotent : ∀ e : UInt8, gf256Mul e e = e → e = 0 ∨ e = 1 := by decide +kernel

theorem mul_pow_254 {a : GF256} (ha : a ≠ 0) : a * a ^ 254 = 1 := by
  have hsq : a ^ 255 * a ^ 255 = a ^ 255 :=
    calc a ^ 255 * a ^ 255
        = a ^ 256 * a ^ 254 := by ring
      _ = a ^ 255 := by rw [pow_card]; ring
  have hne : a ^ 255 ≠ 0 := fun h => ha (by rw [← pow_card a, pow_succ, h, zero_mul])
  have hone : a ^ 255 = 1 := by
    rcases idempotent _ ((byte_mul _ _).symm.trans (congrArg byte hsq)) with h | h
    · exact absurd (GF256.ext h) hne
    · exact GF256.ext h
  rw [← hone]
  ring

/-- **The loop multiplies its accumulator by the power it computes.** -/
theorem powLoop_eq (n : ℕ) {base exp result : UInt8} (h : exp.toNat < 2 ^ n) :
    gf256PowLoop n base exp result = (⟨result⟩ * ⟨base⟩ ^ exp.toNat : GF256).byte := by
  induction n generalizing base exp result with
  | zero =>
    obtain rfl : exp = 0 := UInt8.toNat_inj.mp (by simpa using h)
    rw [UInt8.toNat_zero, pow_zero, mul_one]
    rfl
  | succ n ih =>
    by_cases hexp : exp > 0
    · have hsq : (⟨gf256Mul base base⟩ : GF256) = ⟨base⟩ ^ 2 := by rw [pow_two, mk_mul]
      rw [gf256PowLoop, if_pos hexp, ih (toNat_shiftRight_lt h), toNat_shiftRight_one, hsq,
        ← pow_mul]
      split_ifs with hodd
      · -- an odd exponent moves one factor into the accumulator
        have hexp2 : exp.toNat = 2 * (exp.toNat / 2) + 1 := by
          have := (and_one_ne_zero_iff exp).mp hodd
          omega
        rw [mk_mul, mul_assoc, ← pow_succ', ← hexp2]
      · have hexp2 : 2 * (exp.toNat / 2) = exp.toNat := by
          have := mt (and_one_ne_zero_iff exp).mpr hodd
          omega
        rw [hexp2]
    · obtain rfl : exp = 0 := by simpa using hexp
      rw [gf256PowLoop, if_neg hexp, UInt8.toNat_zero, pow_zero, mul_one]

theorem byte_pow (a : GF256) (n : UInt8) : gf256Pow a.byte n = (a ^ n.toNat).byte := by
  rw [gf256Pow, powLoop_eq 8 n.toNat_lt]
  exact congrArg byte (one_mul _)

instance : Inv GF256 := ⟨fun a => ⟨gf256Pow a.byte 254⟩⟩

theorem inv_def (a : GF256) : a⁻¹ = ⟨gf256Pow a.byte 254⟩ := rfl

theorem inv_eq_pow (a : GF256) : a⁻¹ = a ^ 254 := by
  have hexp : (254 : UInt8).toNat = 254 := rfl
  rw [inv_def, byte_pow, hexp]

/-- **GF(256) is a field**, with the inverse the source computes. -/
instance : Field GF256 where
  exists_pair_ne := ⟨0, 1, by decide⟩
  mul_inv_cancel a ha := by rw [inv_eq_pow, mul_pow_254 ha]
  inv_zero := by rw [inv_eq_pow, zero_pow (by decide)]
  nnqsmul := _
  nnqsmul_def _ _ := rfl
  qsmul := _
  qsmul_def _ _ := rfl

end GF256

/-- `gf256_inv` panics at zero and inverts everything else. -/
theorem gf256Inv_eq (a : GF256) :
    gf256Inv a.byte = if a = 0 then .error ⟨"Cannot invert 0 in GF(256)"⟩ else .ok (a⁻¹).byte := by
  have hzero : a.byte = 0 ↔ a = 0 := GF256.equivByte.injective.eq_iff' rfl
  unfold gf256Inv Checked.assert
  by_cases h : a = 0
  · rw [if_pos h, if_neg (not_not.mpr (hzero.mpr h))]
    rfl
  · rw [if_neg h, if_pos (mt hzero.mp h), Checked.ok_bind, GF256.inv_def]
    simp only [pure, Except.pure]

end PqcGateway
