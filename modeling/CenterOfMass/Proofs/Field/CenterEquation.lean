import CenterOfMass.Proofs.Field.Basic
import CenterOfMass.Proofs.Grid
import CenterOfMass.Proofs.Numeric.Complex
import Mathlib.Algebra.Field.Rat
import Mathlib.Algebra.Order.Ring.Rat

namespace CenterOfMass

section Places

variable {T : Type} [NatCast T] [BEq T] [Sub T] [Div T] {sum y x : Grid T} {refY refX : T}

theorem centerShifts_eq_ok (hy : y.shape = sum.shape) (hx : x.shape = sum.shape) :
    centerShifts sum y x refY refX =
      .ok ((⟨sum, y, x, hy, hx⟩ : MapTriple T).shifts refY refX) :=
  congrArg (Except.map _) (MapTriple.ofGrids_ok .shifts ⟨sum, y, x, hy, hx⟩)

theorem centerShifts_eq_error (h : ¬ (y.shape = sum.shape ∧ x.shape = sum.shape)) :
    centerShifts sum y x refY refX =
      .error (.shapeMismatch (.shifts sum.shape y.shape x.shape)) :=
  congrArg (Except.map _) (dif_neg h)

theorem centerShifts_eq_error_iff : centerShifts sum y x refY refX =
      .error (.shapeMismatch (.shifts sum.shape y.shape x.shape)) ↔
    ¬ (y.shape = sum.shape ∧ x.shape = sum.shape) := by
  refine ⟨fun herror hshapes => ?_, centerShifts_eq_error⟩
  rw [centerShifts_eq_ok hshapes.1 hshapes.2] at herror
  cases herror

namespace MapTriple

variable (m : MapTriple T) {i j : Nat} {s w u : T}

theorem get?_shifts_y (hs : m.sum.get? i j = some s) (hw : m.y.get? i j = some w) :
    (m.shifts refY refX).y.get? i j = some (shiftFrom refY w s) :=
  Grid.get?_zipWith _ m.y_shape hw hs

theorem get?_shifts_x (hs : m.sum.get? i j = some s) (hu : m.x.get? i j = some u) :
    (m.shifts refY refX).x.get? i j = some (shiftFrom refX u s) :=
  Grid.get?_zipWith _ m.x_shape hu hs

end MapTriple

end Places

section Equation

variable {K T : Type} [Add K] [NatCast T] [BEq T] [Zero T] [Add T] [Sub T] [Mul T] [Div T]

/-- The shift of a position leads from the reference to the center of its mass. A position without
mass is not shifted, whatever its weighted sum. -/
structure IsShift (reference weighted total shift : T) : Prop where
  center : total ≠ 0 → (shift + reference) * total = weighted
  massless : total = 0 → shift = 0

/-- A shift against a reference that has moved by `d`. -/
structure IsMoved (total d shift moved : T) : Prop where
  light : total ≠ 0 → moved = shift - d
  massless : total = 0 → moved = shift

/-- What the shifts of three maps are against a reference, which is always real: the solution of
the equation for the center at every position, which moves against the reference. -/
structure SolvesCenterEquation (of : K → T) (sum y x : Grid T) (refY refX : K)
    (v : VectorMap T) : Prop where
  shape : v.y.shape = sum.shape
  center : ∀ (i j : Nat) (s w u : T), sum.get? i j = some s → y.get? i j = some w →
    x.get? i j = some u → ∃ a b, v.y.get? i j = some a ∧ v.x.get? i j = some b ∧
      IsShift (of refY) w s a ∧ IsShift (of refX) u s b
  moved : ∀ dy dx : K, ∃ v', centerShifts sum y x (of (refY + dy)) (of (refX + dx)) = .ok v' ∧
    ∀ (i j : Nat) (s a b : T), sum.get? i j = some s → v.y.get? i j = some a →
      v.x.get? i j = some b → ∃ a' b', v'.y.get? i j = some a' ∧ v'.x.get? i j = some b' ∧
        IsMoved s (of dy) a a' ∧ IsMoved s (of dx) b b'

/-- The shifts are missed exactly if the maps differ in shape, and the scale of the maps is of no
account. -/
structure CenterShiftsSolve (of : K → T) (sum y x : Grid T) (refY refX : K) : Prop where
  mismatch : centerShifts sum y x (of refY) (of refX) =
      .error (.shapeMismatch (.shifts sum.shape y.shape x.shape)) ↔
    ¬ (y.shape = sum.shape ∧ x.shape = sum.shape)
  solved : y.shape = sum.shape → x.shape = sum.shape →
    ∃ v, centerShifts sum y x (of refY) (of refX) = .ok v ∧
      SolvesCenterEquation of sum y x refY refX v
  scaled : ∀ c : T, c ≠ 0 →
    centerShifts (sum.map (c * ·)) (y.map (c * ·)) (x.map (c * ·)) (of refY) (of refX) =
      centerShifts sum y x (of refY) (of refX)

end Equation

section Exact

variable {T : Type} [DivisionRing T] [BEq T] [LawfulBEq T] {reference weighted total : T}

theorem shiftFrom_of_ne_zero (h : total ≠ 0) :
    shiftFrom reference weighted total = weighted / total - reference := by
  have hlight : (total != (Nat.cast 0 : T)) = true := by
    rw [Nat.cast_zero]
    exact bne_iff_ne.mpr h
  rw [shiftFrom, if_pos hlight]

theorem shiftFrom_zero : shiftFrom reference weighted (0 : T) = 0 := by
  have hdark : ¬ ((0 : T) != (Nat.cast 0 : T)) = true := by simp
  rw [shiftFrom, if_neg hdark, sub_self]

theorem isShift_shiftFrom (reference weighted total : T) :
    IsShift reference weighted total (shiftFrom reference weighted total) where
  center h := by rw [shiftFrom_of_ne_zero h, sub_add_cancel, div_mul_cancel₀ weighted h]
  massless h := by rw [h, shiftFrom_zero]

theorem isMoved_shiftFrom (reference weighted total d : T) :
    IsMoved total d (shiftFrom reference weighted total)
      (shiftFrom (reference + d) weighted total) where
  light h := by rw [shiftFrom_of_ne_zero h, shiftFrom_of_ne_zero h, sub_add_eq_sub_sub]
  massless h := by rw [h, shiftFrom_zero, shiftFrom_zero]

variable [IsMulCommutative T]

theorem shiftFrom_mul {c : T} (hc : c ≠ 0) (reference weighted total : T) :
    shiftFrom reference (c * weighted) (c * total) = shiftFrom reference weighted total := by
  by_cases h : total = 0
  · rw [h, mul_zero, shiftFrom_zero, shiftFrom_zero]
  · rw [shiftFrom_of_ne_zero h, shiftFrom_of_ne_zero (mul_ne_zero hc h),
      mul_comm' c weighted, mul_comm' c total, mul_div_mul_right weighted total hc]

theorem MapTriple.shifts_map_mul (m : MapTriple T) (refY refX : T) {c : T} (hc : c ≠ 0) :
    (m.map (c * ·)).shifts refY refX = m.shifts refY refX := by
  have hscaled (reference : T) {g : Grid T} (h : g.shape = m.sum.shape) :
      Grid.zipWith (shiftFrom reference) (g.map (c * ·)) (m.sum.map (c * ·)) h =
        Grid.zipWith (shiftFrom reference) g m.sum h :=
    (Grid.zipWith_map (r := id) (shiftFrom_mul hc reference) h).trans (Grid.map_id _)
  unfold shifts
  congr 1
  · exact hscaled refY m.y_shape
  · exact hscaled refX m.x_shape

theorem centerShifts_map_mul {sum y x : Grid T} {refY refX c : T} (hc : c ≠ 0) :
    centerShifts (sum.map (c * ·)) (y.map (c * ·)) (x.map (c * ·)) refY refX =
      centerShifts sum y x refY refX := by
  by_cases h : y.shape = sum.shape ∧ x.shape = sum.shape
  · let m : MapTriple T := ⟨sum, y, x, h.1, h.2⟩
    have hy : (y.map (c * ·)).shape = (sum.map (c * ·)).shape := h.1
    have hx : (x.map (c * ·)).shape = (sum.map (c * ·)).shape := h.2
    rw [centerShifts_eq_ok h.1 h.2, ← m.shifts_map_mul refY refX hc]
    exact centerShifts_eq_ok hy hx
  · rw [centerShifts_eq_error h]
    exact centerShifts_eq_error h

/-- Over any field, and with the references carried into it by an additive map. -/
theorem centerShiftsSolve {K : Type} [Add K] {of : K → T} (hof : ∀ a b, of (a + b) = of a + of b)
    (sum y x : Grid T) (refY refX : K) : CenterShiftsSolve of sum y x refY refX where
  mismatch := centerShifts_eq_error_iff
  solved hy hx := by
    let m : MapTriple T := ⟨sum, y, x, hy, hx⟩
    refine ⟨m.shifts (of refY) (of refX), centerShifts_eq_ok hy hx, hy, ?_, ?_⟩
    · intro i j s w u hs hw hu
      exact ⟨_, _, m.get?_shifts_y hs hw, m.get?_shifts_x hs hu, isShift_shiftFrom _ w s,
        isShift_shiftFrom _ u s⟩
    · intro dy dx
      rw [hof, hof]
      refine ⟨m.shifts (of refY + of dy) (of refX + of dx), centerShifts_eq_ok hy hx, ?_⟩
      intro i j s a b hs ha hb
      obtain ⟨w, hw⟩ := Grid.exists_get? hy hs
      obtain ⟨u, hu⟩ := Grid.exists_get? hx hs
      obtain rfl := Option.some.inj (ha.symm.trans (m.get?_shifts_y hs hw))
      obtain rfl := Option.some.inj (hb.symm.trans (m.get?_shifts_x hs hu))
      exact ⟨_, _, m.get?_shifts_y hs hw, m.get?_shifts_x hs hu, isMoved_shiftFrom _ w s _,
        isMoved_shiftFrom _ u s _⟩
  scaled _ hc := centerShifts_map_mul hc

end Exact

/-- Read exactly, the shifts solve the equation for the center, of real as well as of complex maps,
whose quotient never divides by zero where there is mass. -/
theorem centerShifts_solves_center_equation {K : Type} [DivisionRing K] [IsMulCommutative K]
    [LinearOrder K] [IsStrictOrderedRing K] :
    (∀ (sum y x : Grid K) (refY refX : K), CenterShiftsSolve id sum y x refY refX) ∧
    (∀ (sum y x : Grid (Complex K)) (refY refX : K),
      CenterShiftsSolve Complex.ofReal sum y x refY refX) ∧
    ∀ total : Complex K, total ≠ 0 →
      total.re * total.re + total.im * total.im ≠ 0 := by
  refine ⟨?_, ?_, fun total h => Complex.normSq_ne_zero h⟩
  · exact centerShiftsSolve fun a b => rfl
  · let _ : DivisionRing (Complex K) := Complex.divisionRing
    have _ : IsMulCommutative (Complex K) := Complex.isMulCommutative
    have _ : LawfulBEq (Complex K) := Complex.lawfulBEq
    exact centerShiftsSolve Complex.ofReal_add

/-- Complex maps of three positions: one with an imaginary sum, one without mass, one with both
parts. -/
def threePlaces : MapTriple (Complex ℚ) where
  sum := .ofFn 1 3 fun _ j => if j.val = 0 then ⟨0, 2⟩ else if j.val = 1 then ⟨0, 0⟩ else ⟨1, 1⟩
  y := .ofFn 1 3 fun _ j => ⟨j.val, 3⟩
  x := .ofFn 1 3 fun _ j => ⟨4, 1 - j.val⟩
  y_shape := rfl
  x_shape := rfl

theorem centerShifts_solves_center_equation_threePlaces :
    ∃ v, centerShifts threePlaces.sum threePlaces.y threePlaces.x (Complex.ofReal (1 / 2))
        (Complex.ofReal 3) = .ok v ∧
      SolvesCenterEquation Complex.ofReal threePlaces.sum threePlaces.y threePlaces.x
        (1 / 2 : ℚ) 3 v := by
  have hsolve := centerShifts_solves_center_equation (K := ℚ)
  exact (hsolve.2.1 threePlaces.sum threePlaces.y threePlaces.x (1 / 2) 3).solved rfl rfl

end CenterOfMass
