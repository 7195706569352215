import PqcGateway.Machinery.Checked
import Mathlib.Algebra.GroupWithZero.Nat

/-!
# Machinery/Build — arithmetic with and without overflow checks

A debug build panics where an operation on unsigned integers overflows, and a release build wraps.
Neither happens to a length that `Fits`, so that a debug build counts as a natural number does
(`add_ofNat`, `mul_ofNat`, `sum_ofNat`), and a release build counts so whatever the length.

* `overflowing_of` — what fits is computed alike in both builds.
* `Fits.mono` — and what is smaller fits too.
-/

/-- Whether the program was built with overflow checks. -/
inductive Build
  | debug
  | release
deriving DecidableEq, Repr

namespace Build

/-- An operation with this result: what does not fit is a panic in a debug build only. -/
def overflowing {α : Type} (build : Build) (fits : Prop) [Decidable fits] (message : String)
    (result : α) : Checked α :=
  match build with
  | .debug => if fits then .ok result else Checked.panicWith message
  | .release => .ok result

/-- `a + b`. -/
def add (build : Build) (a b : UInt64) : Checked UInt64 :=
  build.overflowing (a.toNat + b.toNat < 2 ^ 64) "attempt to add with overflow" (a + b)

/-- `a - b`. -/
def sub (build : Build) (a b : UInt64) : Checked UInt64 :=
  build.overflowing (b ≤ a) "attempt to subtract with overflow" (a - b)

/-- `a * b`. -/
def mul (build : Build) (a b : UInt64) : Checked UInt64 :=
  build.overflowing (a.toNat * b.toNat < 2 ^ 64) "attempt to multiply with overflow" (a * b)

/-- `iter().sum()`. -/
def sum (build : Build) (ns : List UInt64) : Checked UInt64 := ns.foldlM build.add 0

/-- A number is counted without a panic. -/
def Fits (build : Build) (n : ℕ) : Prop := build = .release ∨ n < 2 ^ 64

variable {build : Build} {a b : UInt64} {m n : ℕ}

theorem overflowing_of {α : Type} {fits : Prop} [Decidable fits] (h : fits) (message : String)
    (result : α) : build.overflowing fits message result = .ok result := by
  rcases build with _ | _
  · exact if_pos h
  · rfl

theorem add_of_lt (h : a.toNat + b.toNat < 2 ^ 64) : build.add a b = .ok (a + b) :=
  overflowing_of h _ _

theorem sub_of_le (h : b ≤ a) : build.sub a b = .ok (a - b) := overflowing_of h _ _

theorem Fits.mono (h : build.Fits n) (hle : m ≤ n) : build.Fits m :=
  h.imp_right (Nat.lt_of_le_of_lt hle)

/-- A difference below zero is far above it, where it is not a panic. -/
theorem toNat_sub_of_lt (h : a < b) : (a - b).toNat + b.toNat = a.toNat + 2 ^ 64 := by
  have hlt := UInt64.lt_iff_toNat_lt.mp h
  have hb := b.toNat_lt
  rw [UInt64.toNat_sub]
  omega

theorem toNat_ofNat_le (n : ℕ) : (UInt64.ofNat n).toNat ≤ n := by
  rw [UInt64.toNat_ofNat']
  exact Nat.mod_le _ _

theorem add_ofNat (h : build.Fits (m + n)) :
    build.add (.ofNat m) (.ofNat n) = .ok (.ofNat (m + n)) := by
  rw [UInt64.ofNat_add]
  obtain rfl | hlt := h
  · rfl
  · have hle := Nat.add_le_add (toNat_ofNat_le m) (toNat_ofNat_le n)
    exact overflowing_of (Nat.lt_of_le_of_lt hle hlt) _ _

theorem mul_ofNat (h : build.Fits (m * n)) :
    build.mul (.ofNat m) (.ofNat n) = .ok (.ofNat (m * n)) := by
  rw [UInt64.ofNat_mul]
  obtain rfl | hlt := h
  · rfl
  · have hle := Nat.mul_le_mul (toNat_ofNat_le m) (toNat_ofNat_le n)
    exact overflowing_of (Nat.lt_of_le_of_lt hle hlt) _ _

theorem sum_ofNat {α : Type} {f : α → ℕ} {l : List α} (h : build.Fits (l.map f).sum) :
    build.sum (l.map fun a => .ofNat (f a)) = .ok (.ofNat (l.map f).sum) := by
  have hfold : ∀ (l : List α) (m : ℕ), build.Fits (m + (l.map f).sum) →
      (l.map fun a => UInt64.ofNat (f a)).foldlM build.add (.ofNat m)
        = .ok (.ofNat (m + (l.map f).sum)) := by
    intro l
    induction l with
    | nil => exact fun m _ => rfl
    | cons a l ih =>
      intro m hfits
      simp only [List.map_cons, List.sum_cons, ← Nat.add_assoc] at hfits ⊢
      rw [List.foldlM_cons, add_ofNat (hfits.mono (Nat.le_add_right _ _)),
        Checked.ok_bind, ih _ hfits]
  have hsum := hfold l 0 (by rwa [Nat.zero_add])
  rwa [Nat.zero_add] at hsum

end Build
