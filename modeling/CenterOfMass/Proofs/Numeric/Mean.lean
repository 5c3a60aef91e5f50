import Mathlib.Algebra.Field.Rat
import Mathlib.Algebra.Order.BigOperators.Ring.Finset
import Mathlib.Algebra.Order.Field.Basic
import Mathlib.Algebra.Order.Ring.Rat

namespace CenterOfMass

variable {ι : Type} {points : Finset ι} {weight : ι → ℚ}

/-- The mean of the values at some points, each with a weight. -/
def weightedMean (points : Finset ι) (weight value : ι → ℚ) : ℚ :=
  (∑ p ∈ points, value p * weight p) / ∑ p ∈ points, weight p

theorem weightedMean_add (value value' : ι → ℚ) :
    weightedMean points weight value + weightedMean points weight value' =
      weightedMean points weight fun p => value p + value' p := by
  unfold weightedMean
  rw [← add_div, ← Finset.sum_add_distrib]
  simp only [add_mul]

theorem weightedMean_sub_const (hmass : ∑ p ∈ points, weight p ≠ 0) (value : ι → ℚ) (c : ℚ) :
    weightedMean points weight value - c = weightedMean points weight fun p => value p - c := by
  unfold weightedMean
  rw [div_sub' hmass, mul_comm, Finset.mul_sum, ← Finset.sum_sub_distrib]
  simp only [sub_mul]

section Nonnegative

variable (hweight : ∀ p ∈ points, 0 ≤ weight p)

include hweight

theorem le_weightedMean (hmass : ∑ p ∈ points, weight p ≠ 0) {value : ι → ℚ} {low : ℚ}
    (hvalue : ∀ p ∈ points, low ≤ value p) : low ≤ weightedMean points weight value := by
  have hpos : 0 < ∑ p ∈ points, weight p :=
    lt_of_le_of_ne (Finset.sum_nonneg hweight) (Ne.symm hmass)
  unfold weightedMean
  rw [le_div_iff₀ hpos, Finset.mul_sum]
  apply Finset.sum_le_sum
  intro p hp
  exact mul_le_mul_of_nonneg_right (hvalue p hp) (hweight p hp)

theorem weightedMean_le (hmass : ∑ p ∈ points, weight p ≠ 0) {value : ι → ℚ} {high : ℚ}
    (hvalue : ∀ p ∈ points, value p ≤ high) : weightedMean points weight value ≤ high := by
  have hpos : 0 < ∑ p ∈ points, weight p :=
    lt_of_le_of_ne (Finset.sum_nonneg hweight) (Ne.symm hmass)
  unfold weightedMean
  rw [div_le_iff₀ hpos, Finset.mul_sum]
  apply Finset.sum_le_sum
  intro p hp
  exact mul_le_mul_of_nonneg_right (hvalue p hp) (hweight p hp)

/-- The square of a mean is at most the mean of the squares. -/
theorem sq_weightedMean_le (hmass : ∑ p ∈ points, weight p ≠ 0) (value : ι → ℚ) :
    weightedMean points weight value ^ 2 ≤
      weightedMean points weight fun p => value p ^ 2 := by
  have hpos : 0 < ∑ p ∈ points, weight p :=
    lt_of_le_of_ne (Finset.sum_nonneg hweight) (Ne.symm hmass)
  -- Cauchy and Schwarz, for the weights and the weighted squares
  have hsquare : (∑ p ∈ points, value p * weight p) ^ 2 ≤
      (∑ p ∈ points, value p ^ 2 * weight p) * ∑ p ∈ points, weight p := by
    apply Finset.sum_sq_le_sum_mul_sum_of_sq_le_mul
    · intro p hp
      exact mul_nonneg (sq_nonneg _) (hweight p hp)
    · exact hweight
    · intro p _
      rw [mul_pow, sq (weight p), mul_assoc]
  unfold weightedMean
  rw [div_pow, div_le_div_iff₀ (pow_pos hpos 2) hpos, sq (∑ p ∈ points, weight p), ← mul_assoc]
  exact mul_le_mul_of_nonneg_right hsquare hpos.le

/-- The mean of points of a disc is a point of the disc. -/
theorem weightedMean_mem_disc (hmass : ∑ p ∈ points, weight p ≠ 0) {y x : ι → ℚ} {cy cx r : ℚ}
    (hdisc : ∀ p ∈ points, (y p - cy) ^ 2 + (x p - cx) ^ 2 ≤ r ^ 2) :
    (weightedMean points weight y - cy) ^ 2 + (weightedMean points weight x - cx) ^ 2 ≤
      r ^ 2 := by
  rw [weightedMean_sub_const hmass, weightedMean_sub_const hmass]
  calc _ ≤ (weightedMean points weight fun p => (y p - cy) ^ 2) +
        weightedMean points weight fun p => (x p - cx) ^ 2 :=
      add_le_add (sq_weightedMean_le hweight hmass _) (sq_weightedMean_le hweight hmass _)
    _ = weightedMean points weight fun p => (y p - cy) ^ 2 + (x p - cx) ^ 2 :=
      weightedMean_add _ _
    _ ≤ r ^ 2 := weightedMean_le hweight hmass hdisc

end Nonnegative

end CenterOfMass
