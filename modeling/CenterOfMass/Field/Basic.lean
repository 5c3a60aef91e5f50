import CenterOfMass.Field.Derivative
import CenterOfMass.Maps.Reduction

namespace CenterOfMass

/-- The shifts of real maps, and what is derived from them. -/
structure RealField (R : Type) where
  x : Grid R
  y : Grid R
  magnitude : Grid R
  divergence : Grid R
  curl : Grid R

/-- The shifts of complex maps, part by part. -/
structure ComplexField (R : Type) where
  xReal : Grid R
  yReal : Grid R
  xImag : Grid R
  yImag : Grid R

inductive ShiftField (R : Type)
  | real (field : RealField R)
  | complex (field : ComplexField R)

namespace ShiftField

variable {R : Type} [Add R] [Sub R] [Mul R] [Div R] [Neg R] [NatCast R] [BEq R] [Elementary R]

/-- The field of shifts against a reference. Only real shifts have a length, a divergence and a
curl. -/
def ofMaps (maps : ReductionMaps R) (refY refX : R) : Except Failure (ShiftField R) :=
  match maps with
  | .real m => do
    let v := m.shifts refY refX
    let divergence ← v.divergence
    let curl ← v.curl
    return .real ⟨v.x, v.y, v.magnitude, divergence, curl⟩
  | .complex m =>
    let v := m.shifts (Complex.ofReal refY) (Complex.ofReal refX)
    .ok (.complex ⟨v.x.map Complex.re, v.y.map Complex.re, v.x.map Complex.im,
      v.y.map Complex.im⟩)

end ShiftField

end CenterOfMass
