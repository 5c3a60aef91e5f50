import CenterOfMass.Proofs.Numeric.Exact
import Mathlib.Analysis.SpecialFunctions.Log.Basic
import Mathlib.Analysis.SpecialFunctions.Trigonometric.Arctan

namespace CenterOfMass

/-- The angle of a vector is twice the one that its end is seen under from the left end of the
circle through it. -/
noncomputable instance : Elementary ℝ where
  pi := Real.pi
  sqrt := Real.sqrt
  hypot x y := Real.sqrt (x * x + y * y)
  atan2 y x :=
    if y = 0 ∧ x < 0 then Real.pi else 2 * Real.arctan (y / (Real.sqrt (x * x + y * y) + x))
  sin := Real.sin
  cos := Real.cos
  exp := Real.exp
  log := Real.log

variable (y x : ℝ)

theorem real_hypot_eq {r : ℝ} (hr : 0 ≤ r) (h : y * y + x * x = r * r) :
    Elementary.hypot y x = r := by
  change √(y * y + x * x) = r
  rw [h, Real.sqrt_mul_self hr]

section DrawnOut

variable {k : ℝ} (hk : 0 < k)

include hk

theorem real_hypot_mul :
    (Elementary.hypot (k * y) (k * x) : ℝ) = k * Elementary.hypot y x := by
  have hsquares : k * y * (k * y) + k * x * (k * x) = k * k * (y * y + x * x) := by ring
  change √(k * y * (k * y) + k * x * (k * x)) = k * √(y * y + x * x)
  rw [hsquares, Real.sqrt_mul (mul_self_nonneg k), Real.sqrt_mul_self hk.le]

/-- The angle keeps, since the circle grows with the vector. -/
theorem real_atan2_mul : (Elementary.atan2 (k * y) (k * x) : ℝ) = Elementary.atan2 y x := by
  have hradius : √(k * x * (k * x) + k * y * (k * y)) = k * √(x * x + y * y) :=
    real_hypot_mul x y hk
  have hbehind : (k * y = 0 ∧ k * x < 0) ↔ (y = 0 ∧ x < 0) := by
    rw [mul_eq_zero_iff_left hk.ne', ← not_le, mul_nonneg_iff_of_pos_left hk, not_le]
  simp only [Elementary.atan2]
  rw [hradius, ← mul_add, mul_div_mul_left _ _ hk.ne']
  simp only [hbehind]

end DrawnOut

namespace Exact

/-- The length of a vector in the plane; an unlimited part makes it unlimited. -/
noncomputable def distance : Exact ℝ → Exact ℝ → Exact ℝ
  | finite y, finite x => finite (Elementary.hypot y x)
  | infinite _, _ => infinite false
  | _, infinite _ => infinite false
  | _, _ => undefined

/-- On which side an unlimited number lies, beside which a limited one counts as zero. -/
def side : Exact ℝ → ℝ
  | infinite false => 1
  | infinite true => -1
  | _ => 0

/-- The angle of a vector in the plane. -/
noncomputable def angle : Exact ℝ → Exact ℝ → Exact ℝ
  | finite y, finite x => finite (Elementary.atan2 y x)
  | undefined, _ => undefined
  | _, undefined => undefined
  | y, x => finite (Elementary.atan2 y.side x.side)

/-- A function of limited numbers. -/
def lift (f : ℝ → ℝ) : Exact ℝ → Exact ℝ
  | finite x => finite (f x)
  | _ => undefined

/-- A number cut off after so many binary places that doubles take no notice. -/
noncomputable def cutOff : Exact ℝ → Exact
  | finite x => finite (⌊x * 2 ^ 64⌋ / 2 ^ 64)
  | infinite s => infinite s
  | undefined => undefined

/-- The elementary functions of real numbers. -/
@[reducible] noncomputable def elementaryOfReals : Elementary (Exact ℝ) where
  pi := finite Elementary.pi
  sqrt := lift Elementary.sqrt
  hypot := distance
  atan2 := angle
  sin := lift Elementary.sin
  cos := lift Elementary.cos
  exp := lift Elementary.exp
  log := lift Elementary.log

/-- Rounding of real numbers to bytes by way of doubles. -/
@[reducible] noncomputable def quantizedOfReals : Quantized (Exact ℝ) where
  toByte x := quantizedOfDoubles.toByte x.cutOff
  toSingle x := quantizedOfDoubles.toSingle x.cutOff

@[reducible] noncomputable def textOfReals : ToString ℝ := ⟨fun x => (finite x).cutOff.text⟩

end Exact

end CenterOfMass
