import CenterOfMass.Proofs.Field.Basic
import CenterOfMass.Proofs.Grid
import CenterOfMass.Proofs.Numeric.Real

namespace CenterOfMass

section Embedding

variable {K : Type} [DivisionRing K]

namespace Complex

theorem ofReal_sub (a b : K) : ofReal a - ofReal b = ofReal (a - b) := by
  have him : (Nat.cast 0 - Nat.cast 0 : K) = Nat.cast 0 := by
    rw [Nat.cast_zero, sub_zero]
  exact Complex.ext rfl him

/-- The squared length of a real divisor is its square, from which one factor cancels. -/
theorem ofReal_div (a : K) {b : K} (hb : b ≠ 0) : ofReal a / ofReal b = ofReal (a / b) := by
  have hre : (a * b + Nat.cast 0 * Nat.cast 0) / (b * b + Nat.cast 0 * Nat.cast 0) = a / b := by
    rw [Nat.cast_zero, mul_zero, add_zero, add_zero]
    exact mul_div_mul_right a b hb
  have him : (Nat.cast 0 * b - a * Nat.cast 0) / (b * b + Nat.cast 0 * Nat.cast 0) =
      Nat.cast 0 := by
    rw [Nat.cast_zero, zero_mul, mul_zero, sub_zero, zero_div]
  exact Complex.ext hre him

variable [DecidableEq K]

theorem ofReal_bne_zero (a : K) :
    (ofReal a != (Nat.cast 0 : Complex K)) = (a != (Nat.cast 0 : K)) := by
  have hparts : (ofReal a == (Nat.cast 0 : Complex K)) =
      (a == (Nat.cast 0 : K) && (Nat.cast 0 : K) == (Nat.cast 0 : K)) := rfl
  rw [bne, hparts, beq_self_eq_true, Bool.and_true]
  rfl

end Complex

variable [DecidableEq K]

/-- Both zero tests agree, so that both kinds of number take the same side of the guard. -/
theorem shiftFrom_ofReal (reference weighted total : K) :
    shiftFrom (Complex.ofReal reference) (Complex.ofReal weighted) (Complex.ofReal total) =
      Complex.ofReal (shiftFrom reference weighted total) := by
  unfold shiftFrom
  rw [Complex.ofReal_bne_zero]
  by_cases htotal : total = 0
  · have hdark : (total != (Nat.cast 0 : K)) = false := by simp [htotal]
    rw [hdark]
    exact Complex.ofReal_sub reference reference
  · have hlight : (total != (Nat.cast 0 : K)) = true := by simp [htotal]
    rw [hlight, if_pos rfl, if_pos rfl, Complex.ofReal_div weighted htotal]
    exact Complex.ofReal_sub (weighted / total) reference

section Parts

variable {m : MapTriple K} {refY refX : K}

theorem MapTriple.shifts_ofReal_y :
    ((m.map Complex.ofReal).shifts (Complex.ofReal refY) (Complex.ofReal refX)).y =
      (m.shifts refY refX).y.map Complex.ofReal :=
  Grid.zipWith_map (shiftFrom_ofReal refY) m.y_shape

theorem MapTriple.shifts_ofReal_x :
    ((m.map Complex.ofReal).shifts (Complex.ofReal refY) (Complex.ofReal refX)).x =
      (m.shifts refY refX).x.map Complex.ofReal :=
  Grid.zipWith_map (shiftFrom_ofReal refX) m.x_shape

end Parts

omit [DecidableEq K] in
theorem Grid.map_re_ofReal (g : Grid K) : (g.map Complex.ofReal).map Complex.re = g := by
  rw [map_map]
  exact map_id g

omit [DecidableEq K] in
theorem Grid.map_im_ofReal (g : Grid K) :
    (g.map Complex.ofReal).map Complex.im = g.map fun _ => 0 := by
  rw [map_map]
  have him : (Complex.im ∘ Complex.ofReal : K → K) = fun _ => 0 := funext fun _ => Nat.cast_zero
  rw [him]

/-- Over any field, and even where products do not commute, complex maps without imaginary parts are
shifted as the real maps are. -/
theorem ofMaps_ofReal_eq_ofMaps_real [Elementary K] (m : MapTriple K) (refY refX : K)
    (hrows : 2 ≤ m.sum.rows) (hcols : 2 ≤ m.sum.cols) :
    ∃ (field : RealField K) (parts : ComplexField K),
      ShiftField.ofMaps (.real m) refY refX = .ok (.real field) ∧
      ShiftField.ofMaps (.complex (m.map Complex.ofReal)) refY refX = .ok (.complex parts) ∧
      parts.xReal = field.x ∧ parts.yReal = field.y ∧
      parts.xImag = field.x.map (fun _ => 0) ∧ parts.yImag = field.y.map (fun _ => 0) := by
  obtain ⟨divergence, curl, -, -, hreal⟩ :=
    ShiftField.ofMaps_real_eq_ok refY refX hrows hcols
  refine ⟨_, _, hreal, rfl, ?_, ?_, ?_, ?_⟩
  · show ((MapTriple.shifts _ _ _).x).map Complex.re = _
    rw [MapTriple.shifts_ofReal_x, Grid.map_re_ofReal]
  · show ((MapTriple.shifts _ _ _).y).map Complex.re = _
    rw [MapTriple.shifts_ofReal_y, Grid.map_re_ofReal]
  · show ((MapTriple.shifts _ _ _).x).map Complex.im = _
    rw [MapTriple.shifts_ofReal_x, Grid.map_im_ofReal]
  · show ((MapTriple.shifts _ _ _).y).map Complex.im = _
    rw [MapTriple.shifts_ofReal_y, Grid.map_im_ofReal]

end Embedding

/-- Maps of four positions, of which the first has no mass though its weighted sums do not vanish.
-/
def darkFirst : MapTriple ℝ where
  sum := .ofFn 2 2 fun i j => i.val + j.val
  y := .ofFn 2 2 fun i j => 3 * i.val - j.val + 5
  x := .ofFn 2 2 fun _ j => 7 - j.val
  y_shape := rfl
  x_shape := rfl

theorem ofMaps_ofReal_darkFirst :
    2 ≤ darkFirst.sum.rows ∧ 2 ≤ darkFirst.sum.cols ∧
    ∃ (field : RealField ℝ) (parts : ComplexField ℝ),
      ShiftField.ofMaps (.real darkFirst) 3 (1 / 2) = .ok (.real field) ∧
      ShiftField.ofMaps (.complex (darkFirst.map Complex.ofReal)) 3 (1 / 2) =
        .ok (.complex parts) ∧
      parts.xReal = field.x ∧ parts.yReal = field.y ∧
      parts.xImag = field.x.map (fun _ => 0) ∧ parts.yImag = field.y.map (fun _ => 0) := by
  have hrows : 2 ≤ darkFirst.sum.rows := Nat.le_refl 2
  have hcols : 2 ≤ darkFirst.sum.cols := Nat.le_refl 2
  exact ⟨hrows, hcols, ofMaps_ofReal_eq_ofMaps_real darkFirst 3 (1 / 2) hrows hcols⟩

end CenterOfMass
