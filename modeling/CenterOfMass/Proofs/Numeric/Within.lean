import CenterOfMass.Proofs.Numeric.Zeros
import Mathlib

namespace CenterOfMass

open Float.Model Float.Model.UnpackedFloat

@[simp] theorem Exact.rounded_undefined : Exact.rounded undefined = undefined := rfl

theorem number_eq_undefined_iff {a : Float} : number a = .undefined ↔ a.isNaN = true := by
  have hkind := isNaN_eq_number a
  change a.isNaN = decide (number a = .undefined) at hkind
  rw [hkind, decide_eq_true_iff]

theorem nearest_valueOf {a : Float} (h : a.isFinite = true) : nearest (valueOf a) = valueOf a := by
  have hkind := isFinite_unpack h
  unfold valueOf
  generalize a.toModel.unpack = u at hkind
  cases hkind with
  | zero s => rw [value_zero, nearest_zero]
  | finite hm hc he => rw [value_finite, nearest_factor_mul, hc.nearest_eq]

/-- To add a zero changes no finite number. -/
theorem number_add_zero {a b : Float} (ha : a.isFinite = true) (hb : IsZero b) :
    number (a + b) = number a := by
  have hlimit := abs_nearest_lt_iff.mpr (abs_valueOf_lt ha)
  rw [nearest_valueOf ha, abs_lt] at hlimit
  rw [number_add, number_eq_finite ha, isZero_iff_number.mp hb, Exact.finite_add, add_zero,
    Exact.rounded]
  rw [nearest_valueOf ha, if_neg hlimit.2.not_ge, if_neg hlimit.1.not_ge]

/-- A finite double that is no further from zero than a power of two. -/
structure Within (k : ℤ) (d : Float) : Prop where
  isFinite : d.isFinite = true
  abs_le : |valueOf d| ≤ 2 ^ k

/-- The exponent that the mantissa of a double is multiplied with. -/
def exponentOf (d : Float) : ℤ :=
  match d.toModel.unpack with
  | .finite _ _ e _ => e
  | _ => -1074

theorem within_exponentOf {d : Float} (h : d.isFinite = true) : Within (exponentOf d + 53) d := by
  refine ⟨h, ?_⟩
  have hkind := isFinite_unpack h
  unfold valueOf exponentOf
  generalize d.toModel.unpack = u at hkind
  cases hkind with
  | zero s =>
    rw [value_zero, abs_zero]
    exact (two_zpow_pos _).le
  | @finite s m e hm hc he =>
    have hunit := two_zpow_pos e
    rw [value_finite, abs_factor_mul, abs_of_nonneg (mul_nonneg m.cast_nonneg hunit.le)]
    calc (m * 2 ^ e : ℚ) ≤ 2 ^ 53 * 2 ^ e :=
          mul_le_mul_of_nonneg_right (by exact_mod_cast hc.fits.le) hunit.le
      _ = 2 ^ (e + (53 : ℕ)) := (two_zpow_add e 53).symm

namespace Within

variable {a b d : Float} {j k : ℤ}

theorem mono (h : Within j d) (hjk : j ≤ k) : Within k d :=
  ⟨h.isFinite, h.abs_le.trans (zpow_le_zpow_right₀ one_le_two hjk)⟩

/-- Rounding leads nowhere beyond a power of two that is a double itself. -/
theorem of_rounded {x : ℚ} (hd : number d = (Exact.finite x).rounded) (hx : |x| ≤ 2 ^ k)
    (hlow : -1074 ≤ k) (hhigh : k ≤ 1022) : Within k d := by
  have hpower : nearest (2 ^ k) = 2 ^ k := by
    have hone := nearest_eq_self (m := 1) (by norm_num) hlow
    rwa [Int.cast_one, one_mul] at hone
  have hnearest : |nearest x| ≤ 2 ^ k := by
    rw [abs_nearest, ← hpower]
    exact nearest_mono hx
  have hfinite : d.isFinite = true := by
    have hbound : |x| < overflowBound := hx.trans_lt
      ((zpow_lt_zpow_right₀ one_lt_two (by omega)).trans_le zpow_le_overflowBound)
    have hkind := isFinite_eq_number d
    rw [hd, Exact.isFinite_rounded hbound] at hkind
    exact hkind
  have hlimit : |nearest x| < 2 ^ (1024 : ℤ) :=
    hnearest.trans_lt (zpow_lt_zpow_right₀ one_lt_two (by omega))
  rw [abs_lt] at hlimit
  rw [number_eq_finite hfinite, Exact.rounded] at hd
  rw [if_neg hlimit.2.not_ge, if_neg hlimit.1.not_ge] at hd
  rw [← Exact.finite.inj hd] at hnearest
  exact ⟨hfinite, hnearest⟩

variable (ha : Within j a) (hb : Within k b)

include ha hb

theorem mul (hlow : -1074 ≤ j + k) (hhigh : j + k ≤ 1022) : Within (j + k) (a * b) := by
  have hproduct : |valueOf a * valueOf b| ≤ 2 ^ (j + k) := by
    rw [abs_mul, zpow_add₀ two_ne_zero]
    exact mul_le_mul ha.abs_le hb.abs_le (abs_nonneg _) (two_zpow_pos j).le
  refine of_rounded ?_ hproduct hlow hhigh
  rw [number_mul, number_eq_finite ha.isFinite, number_eq_finite hb.isFinite, Exact.finite_mul]

end Within

namespace Within

variable {a b : Float} {j k : ℤ} (hlow : -1074 ≤ k) (hhigh : k < 1022)

include hlow hhigh

theorem add (ha : Within k a) (hb : Within k b) : Within (k + 1) (a + b) := by
  have hsum : |valueOf a + valueOf b| ≤ 2 ^ (k + 1) := by
    rw [zpow_add_one₀ two_ne_zero, mul_two]
    exact (abs_add_le _ _).trans (add_le_add ha.abs_le hb.abs_le)
  refine of_rounded ?_ hsum (by omega) (by omega)
  rw [number_add, number_eq_finite ha.isFinite, number_eq_finite hb.isFinite, Exact.finite_add]

theorem sub (ha : Within k a) (hb : Within k b) : Within (k + 1) (a - b) := by
  have hdifference : |valueOf a - valueOf b| ≤ 2 ^ (k + 1) := by
    rw [zpow_add_one₀ two_ne_zero, mul_two]
    exact (abs_sub _ _).trans (add_le_add ha.abs_le hb.abs_le)
  refine of_rounded ?_ hdifference (by omega) (by omega)
  rw [number_sub, number_eq_finite ha.isFinite, number_eq_finite hb.isFinite, Exact.finite_sub]

/-- A quotient by one or more is no greater than the dividend. -/
theorem div (ha : Within k a) (hb : b.isFinite = true) (hone : Nat.cast 1 ≤ b) :
    Within k (a / b) := by
  rw [double_le_iff_number, number_one, number_eq_finite hb, Exact.finite_le_finite] at hone
  have hpos : 0 < valueOf b := zero_lt_one.trans_le hone
  have hquotient : |valueOf a / valueOf b| ≤ 2 ^ k := by
    rw [abs_div, abs_of_pos hpos]
    exact (div_le_self (abs_nonneg _) hone).trans ha.abs_le
  have hzero : number b ≠ .finite 0 := by
    rw [number_eq_finite hb]
    exact fun h => hpos.ne' (Exact.finite.inj h)
  refine of_rounded ?_ hquotient hlow (by omega)
  rw [number_div _ hzero, number_eq_finite ha.isFinite, number_eq_finite hb,
    Exact.finite_div _ hpos.ne']

end Within

end CenterOfMass
