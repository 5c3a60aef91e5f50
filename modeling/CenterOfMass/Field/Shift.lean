import CenterOfMass.Maps.Reduction

namespace CenterOfMass

/-- The components of a vector at every scan position. -/
structure VectorMap (α : Type) where
  y : Grid α
  x : Grid α
  shape_eq : y.shape = x.shape

/-- Takes two components together, or reports their shapes. -/
def VectorMap.ofGrids {α : Type} (y x : Grid α) : Except Failure (VectorMap α) :=
  if h : y.shape = x.shape then .ok ⟨y, x, h⟩
  else .error (.shapeMismatch (.components y.shape x.shape))

section Shift

variable {T : Type} [NatCast T] [BEq T] [Sub T] [Div T]

/-- The center of mass less the reference. Where there is no mass the center is the reference
itself, whatever the weighted sum holds. -/
def shiftFrom (reference weighted total : T) : T :=
  (if total != Nat.cast 0 then weighted / total else reference) - reference

/-- The shifts of the centers over the scan. -/
def MapTriple.shifts (m : MapTriple T) (refY refX : T) : VectorMap T where
  y := .zipWith (shiftFrom refY) m.y m.sum m.y_shape
  x := .zipWith (shiftFrom refX) m.x m.sum m.x_shape
  shape_eq := m.y_shape.trans m.x_shape.symm

/-- The shifts from three maps, which have to agree in shape. -/
def centerShifts (sum y x : Grid T) (refY refX : T) : Except Failure (VectorMap T) :=
  (MapTriple.ofGrids .shifts sum y x).map (·.shifts refY refX)

end Shift

end CenterOfMass
