namespace CenterOfMass

/-- Numbers that may also be unlimited or undefined. -/
class Extended (R : Type) where
  infinity : R
  isNaN : R → Bool
  isFinite : R → Bool

/-- The elementary functions that lengths, angles and colors need. -/
class Elementary (R : Type) where
  pi : R
  sqrt : R → R
  hypot : R → R → R
  atan2 : R → R → R
  sin : R → R
  cos : R → R
  exp : R → R
  log : R → R

/-- How a number leaves the arithmetic: as a color channel or in single precision. -/
class Quantized (R : Type) where
  /-- The nearest byte, halves upward; what lies outside, or is undefined, goes to an end. -/
  toByte : R → UInt8
  toSingle : R → Float32

/-- A narrower type that masks and frames are kept in. -/
class Storage (S : Type) (R : outParam Type) where
  widen : S → R
  narrow : R → S

/-- Everything the analysis asks of its numbers. -/
class Scalar (R : Type) extends Add R, Sub R, Mul R, Div R, Neg R, NatCast R, OfScientific R,
    LE R, LT R, BEq R, Extended R, Elementary R, Quantized R where
  decidableLE : DecidableLE R
  decidableLT : DecidableLT R
  /-- The decimal text of a number in a message. -/
  text : R → String

attribute [reducible] Scalar.decidableLE Scalar.decidableLT
attribute [instance] Scalar.decidableLE Scalar.decidableLT

section Clamp

variable {R : Type} [NatCast R] [LT R] [DecidableLT R]

/-- Brings a number into the unit interval; one that compares with nothing is left as it is. -/
def clampUnit (x : R) : R :=
  let raised := if x < Nat.cast 0 then Nat.cast 0 else x
  if Nat.cast 1 < raised then Nat.cast 1 else raised

end Clamp

end CenterOfMass
