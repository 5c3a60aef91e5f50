import CenterOfMass.Proofs.Field.Basic
import CenterOfMass.Proofs.Grid
import Mathlib.Algebra.Field.Basic
import Mathlib.Data.Nat.Cast.Commute

namespace CenterOfMass

section Samples

variable {R : Type} [Add R] [Sub R] [Mul R] [Div R] [Neg R] [NatCast R] {order : EdgeOrder}
  {n : Nat} {f : Fin n → R} {i : Fin n}

theorem slope_first_left (h : EdgeOrder.first.least ≤ n) (hi : i.val = 0) :
    slope .first f h i = f ⟨1, h⟩ - f ⟨0, Nat.lt_of_succ_lt h⟩ := by
  unfold slope
  rw [dif_pos hi]

theorem slope_first_right (h : EdgeOrder.first.least ≤ n) (hi : i.val ≠ 0) (hn : i.val + 1 = n) :
    slope .first f h i = f i - f ⟨i.val - 1, by omega⟩ := by
  obtain ⟨i, hlt⟩ := i
  obtain rfl : n = i + 1 := hn.symm
  unfold slope
  rw [dif_neg hi, dif_pos rfl]
  rfl

theorem slope_inner (h : order.least ≤ n) (hi : i.val ≠ 0) (hn : i.val + 1 < n) :
    slope order f h i = (f ⟨i.val + 1, hn⟩ - f ⟨i.val - 1, by omega⟩) / Nat.cast 2 := by
  unfold slope
  rw [dif_neg hi, dif_neg (Nat.ne_of_lt hn)]

theorem slope_second_left (h : EdgeOrder.second.least ≤ n) (hi : i.val = 0) :
    slope .second f h i = (-(Nat.cast 3) * f ⟨0, Nat.lt_of_lt_of_le (by decide) h⟩ +
      Nat.cast 4 * f ⟨1, Nat.lt_of_succ_lt h⟩ - f ⟨2, h⟩) / Nat.cast 2 := by
  unfold slope
  rw [dif_pos hi]

theorem slope_second_right (h : EdgeOrder.second.least ≤ n) (hn : i.val + 1 = n) :
    slope .second f h i = (Nat.cast 3 * f i - Nat.cast 4 * f ⟨i.val - 1, by omega⟩ +
      f ⟨i.val - 2, by omega⟩) / Nat.cast 2 := by
  obtain ⟨i, hlt⟩ := i
  obtain rfl : n = i + 1 := hn.symm
  have hi : i ≠ 0 := by
    rintro rfl
    exact absurd h (by decide)
  unfold slope
  rw [dif_neg hi, dif_pos rfl]
  rfl

namespace Grid

theorem get?_derivative_rows {g : Grid R} (h : order.least ≤ g.length .rows) (i : Fin g.rows)
    (j : Fin g.cols) : (g.derivative .rows order h).get? i j =
      some (slope order (fun k => g.get k j) h i) := get?_ofFn _ i j

theorem get?_derivative_cols {g : Grid R} (h : order.least ≤ g.length .cols) (i : Fin g.rows)
    (j : Fin g.cols) : (g.derivative .cols order h).get? i j =
      some (slope order (fun k => g.get i k) h j) := get?_ofFn _ i j

variable {m n : Nat} (g : Fin m → Fin n → R) (order : EdgeOrder)

theorem derivative_rows_ofFn (h : order.least ≤ m) : (ofFn m n g).derivative .rows order h =
    ofFn m n fun i j => slope order (fun k => g k j) h i := by
  change ofFn m n (fun i j => slope order (fun k => (ofFn m n g).get k j) h i) = _
  congr 1
  funext i j
  have hlane : (fun k : Fin m => (ofFn m n g).get k j) = fun k => g k j :=
    funext fun k => get_ofFn m n g k j
  exact congrArg (fun lane => slope order lane h i) hlane

theorem derivative_cols_ofFn (h : order.least ≤ n) : (ofFn m n g).derivative .cols order h =
    ofFn m n fun i j => slope order (fun k => g i k) h j := by
  change ofFn m n (fun i j => slope order (fun k => (ofFn m n g).get i k) h j) = _
  congr 1
  funext i j
  have hlane : (fun k : Fin n => (ofFn m n g).get i k) = fun k => g i k :=
    funext fun k => get_ofFn m n g i k
  exact congrArg (fun lane => slope order lane h j) hlane

theorem gradient_rows_ofFn (h : order.least ≤ m) : (ofFn m n g).gradient .rows order =
    .ok (ofFn m n fun i j => slope order (fun k => g k j) h i) := by
  have hlong : order.least ≤ (ofFn m n g).length .rows := h
  rw [gradient_eq_ok hlong]
  exact congrArg Except.ok (derivative_rows_ofFn g order h)

theorem gradient_cols_ofFn (h : order.least ≤ n) : (ofFn m n g).gradient .cols order =
    .ok (ofFn m n fun i j => slope order (fun k => g i k) h j) := by
  have hlong : order.least ≤ (ofFn m n g).length .cols := h
  rw [gradient_eq_ok hlong]
  exact congrArg Except.ok (derivative_cols_ofFn g order h)

end Grid

namespace VectorMap

variable {m n : Nat} (y x : Fin m → Fin n → R) (hm : EdgeOrder.first.least ≤ m)
  (hn : EdgeOrder.first.least ≤ n)

theorem divergence_ofFn : divergence ⟨.ofFn m n y, .ofFn m n x, rfl⟩ =
    .ok (.ofFn m n fun i j =>
      slope .first (fun k => y k j) hm i + slope .first (fun k => x i k) hn j) := by
  have hy : EdgeOrder.first.least ≤ (Grid.ofFn m n y).length .rows := hm
  have hx : EdgeOrder.first.least ≤ (Grid.ofFn m n x).length .cols := hn
  refine (divergence_eq_ok hy hx).trans (congrArg Except.ok ?_)
  exact Grid.zipWith_eq_ofFn _ _ (Grid.derivative_rows_ofFn y .first hm)
    (Grid.derivative_cols_ofFn x .first hn)

theorem curl_ofFn : curl ⟨.ofFn m n y, .ofFn m n x, rfl⟩ =
    .ok (.ofFn m n fun i j =>
      slope .first (fun k => y i k) hn j - slope .first (fun k => x k j) hm i) := by
  have hy : EdgeOrder.first.least ≤ (Grid.ofFn m n y).length .cols := hn
  have hx : EdgeOrder.first.least ≤ (Grid.ofFn m n x).length .rows := hm
  refine (curl_eq_ok hy hx).trans (congrArg Except.ok ?_)
  exact Grid.zipWith_eq_ofFn _ _ (Grid.derivative_cols_ofFn y .first hn)
    (Grid.derivative_rows_ofFn x .first hm)

end VectorMap

end Samples

section Exact

variable {K : Type} [DivisionRing K] {n : Nat}

/-- The left one of two samples that a slope is taken between. -/
def leftOf (i : Fin n) : Fin n := ⟨i.val - 1, Nat.lt_of_le_of_lt (Nat.sub_le _ _) i.isLt⟩

/-- The right one of two samples that a slope is taken between. -/
def rightOf (i : Fin n) : Fin n := ⟨min (i.val + 1) (n - 1), by omega⟩

/-- The slope between two samples is their difference by their distance, at an edge as inside. -/
theorem slope_first_eq (f : Fin n → K) (h : EdgeOrder.first.least ≤ n) (i : Fin n) :
    slope .first f h i =
      (f (rightOf i) - f (leftOf i)) / (((rightOf i).val - (leftOf i).val : Nat) : K) := by
  have hn : 2 ≤ n := h
  by_cases hi : i.val = 0
  · have hright : rightOf i = ⟨1, h⟩ := Fin.ext (by simp only [rightOf]; omega)
    have hleft : leftOf i = ⟨0, Nat.lt_of_succ_lt h⟩ := Fin.ext (by simp only [leftOf]; omega)
    rw [slope_first_left h hi, hright, hleft]
    simp
  have hleft : leftOf i = ⟨i.val - 1, by omega⟩ := rfl
  by_cases hlast : i.val + 1 = n
  · have hright : rightOf i = i := Fin.ext (by simp only [rightOf]; omega)
    have hdistance : i.val - (i.val - 1) = 1 := by omega
    rw [slope_first_right h hi hlast, hright, hleft, hdistance]
    simp
  · have hnext : i.val + 1 < n := by omega
    have hright : rightOf i = ⟨i.val + 1, hnext⟩ := Fin.ext (by simp only [rightOf]; omega)
    have hdistance : i.val + 1 - (i.val - 1) = 2 := by omega
    rw [slope_inner h hi hnext, hright, hleft, hdistance]

theorem slope_neg (f : Fin n → K) (h : EdgeOrder.first.least ≤ n) (i : Fin n) :
    slope .first (fun k => -f k) h i = -slope .first f h i := by
  rw [slope_first_eq, slope_first_eq, neg_sub_neg, ← neg_div, neg_sub]

theorem div_natCast_comm (x : K) (d e : Nat) : x / d / e = x / e / d := by
  have hcomm : Commute (d : K)⁻¹ (e : K)⁻¹ := ((Nat.cast_commute d (e : K)).inv_left₀).inv_right₀
  simp only [div_eq_mul_inv, mul_assoc, hcomm.eq]

/-- Slopes in two directions may be taken in either order. -/
theorem slope_comm {m : Nat} (f : Fin m → Fin n → K) (hm : EdgeOrder.first.least ≤ m)
    (hn : EdgeOrder.first.least ≤ n) (i : Fin m) (j : Fin n) :
    slope .first (fun k => slope .first (fun l => f k l) hn j) hm i =
      slope .first (fun l => slope .first (fun k => f k l) hm i) hn j := by
  simp only [slope_first_eq]
  rw [← sub_div, ← sub_div, div_natCast_comm, sub_sub_sub_comm]

end Exact

end CenterOfMass
