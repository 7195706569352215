import Mathlib.Algebra.Group.Commute.Defs
import Mathlib.Algebra.Group.Hom.End
import Mathlib.Algebra.Ring.Hom.Defs
import Mathlib.Algebra.Ring.Basic

/-!
# Machinery/CyclicRing — a commutative ring from a commuting family of operators

Let the elements of an additive group act on the group by endomorphisms that commute with one
another, and let some vector `one` turn the action of `b` back into `b`.  Then `a * b := act b a` is
a commutative ring: both sides of commutativity and of associativity are one product of commuting
operators, applied to `one`.  This is how a shift-and-add multiplication is seen to be one.

* `act_comm`, `act_assoc` — the two laws, from the commuting action.
* `commRing` — the ring.
-/

/-- A commuting additive family of endomorphisms with a cyclic vector. -/
structure CyclicAction (V : Type*) [AddCommGroup V] where
  act : V →+ AddMonoid.End V
  one : V
  act_one : ∀ b, act b one = b
  comm : ∀ a b, Commute (act a) (act b)

namespace CyclicAction

variable {V : Type*} [AddCommGroup V] (A : CyclicAction V)

theorem act_act (a b v : V) : A.act a (A.act b v) = A.act b (A.act a v) :=
  DFunLike.congr_fun (A.comm a b).eq v

theorem act_comm (a b : V) : A.act b a = A.act a b :=
  calc A.act b a
      = A.act b (A.act a A.one) := by rw [A.act_one]
    _ = A.act a (A.act b A.one) := A.act_act b a A.one
    _ = A.act a b := by rw [A.act_one]

theorem act_assoc (a b c : V) : A.act c (A.act b a) = A.act (A.act c b) a :=
  calc A.act c (A.act b a)
      = A.act c (A.act a b) := by rw [A.act_comm a b]
    _ = A.act a (A.act c b) := A.act_act c a b
    _ = A.act (A.act c b) a := A.act_comm (A.act c b) a

/-- **The ring a cyclic action carries.** -/
abbrev commRing : CommRing V where
  __ := (inferInstance : AddCommGroup V)
  mul a b := A.act b a
  one := A.one
  mul_assoc a b c := A.act_assoc a b c
  one_mul := A.act_one
  mul_one a := (A.act_comm a A.one).trans (A.act_one a)
  mul_comm a b := A.act_comm a b
  left_distrib a b c := congrArg (fun f : AddMonoid.End V => f a) (map_add A.act b c)
  right_distrib a b c := map_add (A.act c) a b
  zero_mul a := map_zero (A.act a)
  mul_zero a := congrArg (fun f : AddMonoid.End V => f a) (map_zero A.act)

end CyclicAction
