import CenterOfMass.Numeric.Scalar
import CenterOfMass.Scan.Shape

namespace CenterOfMass

/-- The parameters as given, each perhaps left out. -/
@[ext] structure UserParameters (R : Type) where
  cx : Option R := none
  cy : Option R := none
  r : Option R := none
  useSparse : Option Bool := none

/-- The parameters in `top`, and one by one those in `base` that `top` leaves out. -/
def UserParameters.override {R : Type} (top base : UserParameters R) : UserParameters R where
  cx := top.cx.or base.cx
  cy := top.cy.or base.cy
  r := top.r.or base.r
  useSparse := top.useSparse.or base.useSparse

/-- The one element type that masks are kept in. -/
inductive MaskDtype
  | float32
  deriving DecidableEq

/-- The disc that an analysis looks at, and how the masks are asked for. -/
@[ext] structure Parameters (R : Type) where
  cx : R
  cy : R
  /-- An unlimited radius takes in every pixel. -/
  r : R
  useSparse : Bool
  maskCount : Nat
  maskDtype : MaskDtype

variable {R : Type} [Scalar R]

/-- Fills in the detector's middle, an unlimited radius and dense masks, and then asks for a finite
center and a radius that is a number not below zero. -/
def UserParameters.resolve (u : UserParameters R) (d : Detector) : Except Failure (Parameters R) :=
  let cx := u.cx.getD (Nat.cast d.width / Nat.cast 2)
  let cy := u.cy.getD (Nat.cast d.height / Nat.cast 2)
  let r := u.r.getD Extended.infinity
  if !Extended.isFinite cx then
    .error (.invalidParameter "cx" (.notFinite (Scalar.text cx)))
  else if !Extended.isFinite cy then
    .error (.invalidParameter "cy" (.notFinite (Scalar.text cy)))
  else if Extended.isNaN r || decide (r < Nat.cast 0) then
    .error (.invalidParameter "r" (.notARadius (Scalar.text r)))
  else .ok ⟨cx, cy, r, u.useSparse.getD false, 3, .float32⟩

end CenterOfMass
