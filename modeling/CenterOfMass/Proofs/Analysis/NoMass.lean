import CenterOfMass.Proofs.Analysis.Basic
import CenterOfMass.Proofs.Grid
import CenterOfMass.Proofs.Numeric.Double
import CenterOfMass.Proofs.Scan.Parameters

namespace CenterOfMass

section Shift

variable {T : Type} [NatCast T] [BEq T] [Sub T] [Div T]

theorem shifts_of_no_mass {m : MapTriple T} (refY refX : T) {i j : Nat} {total : T}
    (hplace : m.sum.get? i j = some total) (htotal : (total == Nat.cast 0) = true) :
    (m.shifts refY refX).y.get? i j = some (refY - refY) ∧
      (m.shifts refY refX).x.get? i j = some (refX - refX) := by
  obtain ⟨y, hy⟩ := Grid.exists_get? m.y_shape hplace
  obtain ⟨x, hx⟩ := Grid.exists_get? m.x_shape hplace
  constructor
  · rw [← shiftFrom_of_no_mass refY y htotal]
    exact Grid.get?_zipWith (shiftFrom refY) m.y_shape hy hplace
  · rw [← shiftFrom_of_no_mass refX x htotal]
    exact Grid.get?_zipWith (shiftFrom refX) m.x_shape hx hplace

end Shift

/-- What an arithmetic has to keep for shifts to vanish: a finite number less itself is zero, and
so are the sum of the squares of zeros and its root. -/
structure KeepsZero (R : Type) [Scalar R] : Prop where
  finite_zero : Extended.isFinite (Nat.cast 0 : R) = true
  sub_self : ∀ a : R, Extended.isFinite a = true → a - a = Nat.cast 0
  add_squares : (Nat.cast 0 * Nat.cast 0 + Nat.cast 0 * Nat.cast 0 : R) = Nat.cast 0
  sqrt_zero : Elementary.sqrt (Nat.cast 0 : R) = Nat.cast 0

theorem keepsZero_double : KeepsZero Float where
  finite_zero := by decide
  sub_self _ h := double_sub_self h
  add_squares := by decide
  sqrt_zero := by decide

/-- The sum map is zero at a place, whichever sign its zero has. -/
def ReductionMaps.NoMassAt {R : Type} [NatCast R] [BEq R] (i j : Nat) : ReductionMaps R → Prop
  | .real m => ∃ total, m.sum.get? i j = some total ∧ (total == Nat.cast 0) = true
  | .complex m => ∃ total, m.sum.get? i j = some total ∧ (total == Nat.cast 0) = true

/-- A field that has no shift at a place, and no length there if it is real. -/
def ShiftField.ZeroAt {R : Type} [NatCast R] (i j : Nat) : ShiftField R → Prop
  | .real f => f.x.get? i j = some (Nat.cast 0) ∧ f.y.get? i j = some (Nat.cast 0) ∧
      f.magnitude.get? i j = some (Nat.cast 0)
  | .complex f => f.xReal.get? i j = some (Nat.cast 0) ∧ f.yReal.get? i j = some (Nat.cast 0) ∧
      f.xImag.get? i j = some (Nat.cast 0) ∧ f.yImag.get? i j = some (Nat.cast 0)

section Field

variable {R : Type} [Scalar R] (laws : KeepsZero R)

include laws

theorem magnitude_of_zero {v : VectorMap R} {i j : Nat} (hy : v.y.get? i j = some (Nat.cast 0))
    (hx : v.x.get? i j = some (Nat.cast 0)) : v.magnitude.get? i j = some (Nat.cast 0) := by
  have hroot : Elementary.sqrt (Nat.cast 0 * Nat.cast 0 + Nat.cast 0 * Nat.cast 0 : R) =
      Nat.cast 0 := by rw [laws.add_squares, laws.sqrt_zero]
  refine (Grid.get?_zipWith _ v.shape_eq hy hx).trans ?_
  rw [hroot]

theorem ofReal_sub_self {reference : R} (h : Extended.isFinite reference = true) :
    Complex.ofReal reference - Complex.ofReal reference = Nat.cast 0 := by
  have hre : reference - reference = Nat.cast 0 := laws.sub_self reference h
  have him : (Nat.cast 0 - Nat.cast 0 : R) = Nat.cast 0 := laws.sub_self _ laws.finite_zero
  exact Complex.ext hre him

/-- Whatever the weighted maps hold where there is no mass, a reference with a place leaves nothing
of it in the field. -/
theorem zeroAt_of_ofMaps {refY refX : R} (hrefY : Extended.isFinite refY = true)
    (hrefX : Extended.isFinite refX = true) {maps : ReductionMaps R} {field : ShiftField R}
    (hfield : ShiftField.ofMaps maps refY refX = .ok field) {i j : Nat}
    (hmass : maps.NoMassAt i j) : field.ZeroAt i j := by
  cases maps with
  | real m =>
    obtain ⟨total, hplace, htotal⟩ := hmass
    obtain ⟨divergence, curl, -, -, rfl⟩ := ShiftField.ofMaps_real_inv hfield
    obtain ⟨hy, hx⟩ := shifts_of_no_mass refY refX hplace htotal
    rw [laws.sub_self refY hrefY] at hy
    rw [laws.sub_self refX hrefX] at hx
    exact ⟨hx, hy, magnitude_of_zero laws hy hx⟩
  | complex m =>
    obtain ⟨total, hplace, htotal⟩ := hmass
    obtain rfl := Except.ok.inj hfield
    obtain ⟨hy, hx⟩ := shifts_of_no_mass (.ofReal refY) (.ofReal refX) hplace htotal
    rw [ofReal_sub_self laws hrefY] at hy
    rw [ofReal_sub_self laws hrefX] at hx
    have part (f : Complex R → R) {g : Grid (Complex R)}
        (hg : g.get? i j = some (Nat.cast 0)) : (g.map f).get? i j = some (f (Nat.cast 0)) := by
      rw [Grid.get?_map, hg]
      rfl
    exact ⟨part Complex.re hx, part Complex.re hy, part Complex.im hx, part Complex.im hy⟩

/-- The field that an analysis computes is zero at every position of the scan where the sum map is:
the parameters that it accepts give the disc's center a place. -/
theorem zeroAt_of_compute {shape : DatasetShape} {user : UserParameters R} {a : Analysis R}
    (ha : Analysis.ofDataset shape user = .ok a) (settings : Settings R) {maps : ReductionMaps R}
    {field : ShiftField R} (hfield : (a.withSettings settings).compute maps = .ok field)
    {i j : Nat} (hmass : maps.NoMassAt i j) :
    field.isComplex = maps.isComplex ∧ field.ZeroAt i j := by
  obtain ⟨-, -, -, hparameters, -⟩ := Analysis.ofDataset_eq_ok_iff.mp ha
  obtain ⟨-, haccepted⟩ := UserParameters.resolve_eq_ok_iff.mp hparameters
  have hmaps := Analysis.ofMaps_of_compute hfield
  exact ⟨ShiftField.isComplex_of_ofMaps hmaps,
    zeroAt_of_ofMaps laws haccepted.finite_cy haccepted.finite_cx hmaps hmass⟩

end Field

/-- A square of four positions without mass at the first, where the weighted maps hold no number
and an unlimited one. -/
def darkCorner : MapTriple Float where
  sum := .ofFn 2 2 fun i j => if i = 0 ∧ j = 0 then -0.0 else 1
  y := .ofFn 2 2 fun _ _ => 0 / 0
  x := .ofFn 2 2 fun _ _ => 1 / 0
  y_shape := by rw [Grid.shape_ofFn, Grid.shape_ofFn]
  x_shape := by rw [Grid.shape_ofFn, Grid.shape_ofFn]

theorem zeroAt_of_compute_darkCorner :
    Analysis.ofDataset ⟨[2, 2], [2, 2]⟩ { cx := some (1 : Float), cy := some 1, r := some 2 } =
        .ok (Analysis.ofSides 2 2) ∧
      (∃ field, ((Analysis.ofSides 2 2).withSettings .standard).compute (.real darkCorner) =
        .ok field ∧ field.ZeroAt 0 0) ∧
      ∃ field, ((Analysis.ofSides 2 2).withSettings .standard).compute
        (.complex (darkCorner.map .ofReal)) = .ok field ∧ field.ZeroAt 0 0 := by
  have ha : Analysis.ofDataset ⟨[2, 2], [2, 2]⟩
      { cx := some (1 : Float), cy := some 1, r := some 2 } = .ok (Analysis.ofSides 2 2) :=
    Analysis.ofDataset_eq_ok_iff.mpr ⟨rfl, rfl, rfl, UserParameters.resolve_eq_ok_iff.mpr
      ⟨rfl, by decide, by decide, by decide, by decide⟩, rfl⟩
  have hplace : darkCorner.sum.get? 0 0 = some (-0.0) := rfl
  have hdark : ((-0.0 : Float) == Nat.cast 0) = true := by decide
  have hreal : (ReductionMaps.real darkCorner).NoMassAt 0 0 := ⟨_, hplace, hdark⟩
  have hcomplex : (ReductionMaps.complex (darkCorner.map .ofReal)).NoMassAt 0 0 := by
    refine ⟨.ofReal (-0.0), ?_, by decide⟩
    exact (Grid.get?_map ..).trans (congrArg (Option.map Complex.ofReal) hplace)
  have hlong : (ReductionMaps.real darkCorner).isComplex ∨
      2 ≤ (ReductionMaps.real darkCorner).shape.1 ∧ 2 ≤ (ReductionMaps.real darkCorner).shape.2 :=
    .inr ⟨by decide, by decide⟩
  obtain ⟨f, hf, -⟩ := ShiftField.ofMaps_eq_ok 1 1 hlong
  have hfield : ((Analysis.ofSides 2 2).withSettings .standard).compute (.real darkCorner) =
      .ok f := (Analysis.compute_eq_ofMaps rfl).trans hf
  refine ⟨ha, ⟨f, hfield, ?_⟩, _, rfl, ?_⟩
  · exact (zeroAt_of_compute keepsZero_double ha .standard hfield hreal).2
  · exact (zeroAt_of_compute keepsZero_double ha .standard rfl hcomplex).2

end CenterOfMass
