import CenterOfMass.Numeric.Complex
import Mathlib.Algebra.Order.Field.Basic
import Mathlib.Tactic.Ring

namespace CenterOfMass.Complex

section Operations

variable {R : Type}

instance [NatCast R] : Zero (Complex R) := ⟨Nat.cast 0⟩

instance [NatCast R] : One (Complex R) := ⟨Nat.cast 1⟩

instance [Neg R] : Neg (Complex R) := ⟨fun a => ⟨-a.re, -a.im⟩⟩

instance [Add R] : Add (Complex R) := ⟨fun a b => ⟨a.re + b.re, a.im + b.im⟩⟩

instance [Add R] [Sub R] [Mul R] : Mul (Complex R) :=
  ⟨fun a b => ⟨a.re * b.re - a.im * b.im, a.re * b.im + a.im * b.re⟩⟩

/-- The squared length, by which a quotient divides. -/
def normSq [Add R] [Mul R] (a : Complex R) : R := a.re * a.re + a.im * a.im

theorem lawfulBEq [BEq R] [LawfulBEq R] : LawfulBEq (Complex R) where
  eq_of_beq := by
    intro a b h
    obtain ⟨hre, him⟩ := Bool.and_eq_true_iff.mp h
    exact Complex.ext (eq_of_beq hre) (eq_of_beq him)
  rfl := Bool.and_eq_true_iff.mpr ⟨beq_self_eq_true _, beq_self_eq_true _⟩

end Operations

section Exact

variable {K : Type} [DivisionRing K] (a b : Complex K)

@[simp] theorem re_natCast (n : Nat) : (n : Complex K).re = n := rfl

@[simp] theorem im_natCast (n : Nat) : (n : Complex K).im = 0 := Nat.cast_zero

@[simp] theorem re_zero : (0 : Complex K).re = 0 := Nat.cast_zero

@[simp] theorem im_zero : (0 : Complex K).im = 0 := Nat.cast_zero

@[simp] theorem re_one : (1 : Complex K).re = 1 := Nat.cast_one

@[simp] theorem im_one : (1 : Complex K).im = 0 := Nat.cast_zero

@[simp] theorem re_neg : (-a).re = -a.re := rfl

@[simp] theorem im_neg : (-a).im = -a.im := rfl

@[simp] theorem re_add : (a + b).re = a.re + b.re := rfl

@[simp] theorem im_add : (a + b).im = a.im + b.im := rfl

@[simp] theorem re_sub : (a - b).re = a.re - b.re := rfl

@[simp] theorem im_sub : (a - b).im = a.im - b.im := rfl

@[simp] theorem re_mul : (a * b).re = a.re * b.re - a.im * b.im := rfl

@[simp] theorem im_mul : (a * b).im = a.re * b.im + a.im * b.re := rfl

@[simp] theorem re_div : (a / b).re = (a.re * b.re + a.im * b.im) / b.normSq := rfl

@[simp] theorem im_div : (a / b).im = (a.im * b.re - a.re * b.im) / b.normSq := rfl

theorem ofReal_add (x y : K) : ofReal (x + y) = ofReal x + ofReal y := by
  refine Complex.ext rfl ?_
  change (Nat.cast 0 : K) = Nat.cast 0 + Nat.cast 0
  rw [Nat.cast_zero, add_zero]

section Ordered

variable [LinearOrder K] [IsStrictOrderedRing K]

/-- Only zero has length zero, so that no divisor but zero is lost by the squares. -/
theorem normSq_ne_zero {a : Complex K} (h : a ≠ 0) : a.normSq ≠ 0 := by
  intro hsquares
  have hparts : a.re = 0 ∧ a.im = 0 := mul_self_add_mul_self_eq_zero.mp hsquares
  exact h (Complex.ext (hparts.1.trans re_zero.symm) (hparts.2.trans im_zero.symm))

end Ordered

variable [IsMulCommutative K]

open scoped IsMulCommutative

theorem isMulCommutative : IsMulCommutative (Complex K) where
  is_comm := ⟨fun a b => Complex.ext (by simp; ring) (by simp; ring)⟩

variable [LinearOrder K] [IsStrictOrderedRing K]

theorem mul_one_div {a : Complex K} (h : a ≠ 0) : a * (1 / a) = 1 := by
  refine Complex.ext ?_ ?_
  · calc (a * (1 / a)).re = a.normSq * a.normSq⁻¹ := by
          simp only [re_mul, re_div, im_div, re_one, im_one, normSq, div_eq_mul_inv]
          ring
      _ = (1 : Complex K).re := by rw [mul_inv_cancel₀ (normSq_ne_zero h), re_one]
  · simp only [im_mul, re_div, im_div, re_one, im_one, div_eq_mul_inv]
    ring

/-- With the conjugate over the squared length as the quotient, complex numbers are a field. -/
@[reducible] def divisionRing : DivisionRing (Complex K) where
  add_assoc a b c := Complex.ext (add_assoc _ _ _) (add_assoc _ _ _)
  zero_add a := Complex.ext (by simp) (by simp)
  add_zero a := Complex.ext (by simp) (by simp)
  add_comm a b := Complex.ext (add_comm _ _) (add_comm _ _)
  nsmul := nsmulRec
  zsmul := zsmulRec
  neg_add_cancel a := Complex.ext (by simp) (by simp)
  sub_eq_add_neg a b := Complex.ext (sub_eq_add_neg _ _) (sub_eq_add_neg _ _)
  left_distrib a b c := Complex.ext (by simp; ring) (by simp; ring)
  right_distrib a b c := Complex.ext (by simp; ring) (by simp; ring)
  zero_mul a := Complex.ext (by simp) (by simp)
  mul_zero a := Complex.ext (by simp) (by simp)
  mul_assoc a b c := Complex.ext (by simp; ring) (by simp; ring)
  one_mul a := Complex.ext (by simp) (by simp)
  mul_one a := Complex.ext (by simp) (by simp)
  natCast_zero := rfl
  natCast_succ n := Complex.ext (by simp) (by simp)
  inv a := 1 / a
  div_eq_mul_inv a b :=
    Complex.ext (by simp [div_eq_mul_inv]; ring) (by simp [div_eq_mul_inv]; ring)
  exists_pair_ne := ⟨0, 1, fun h => (zero_ne_one : (0 : K) ≠ 1) (by simpa using congrArg re h)⟩
  mul_inv_cancel _ h := mul_one_div h
  inv_zero := Complex.ext (by simp) (by simp)
  nnqsmul := _
  qsmul := _

end Exact

end CenterOfMass.Complex
