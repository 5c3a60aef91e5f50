import CenterOfMass.Grid
import CenterOfMass.Numeric.Scalar
import CenterOfMass.Scan.Shape

namespace CenterOfMass

/-- The three masks of the analysis. -/
inductive MaskKind
  /-- One inside the disc. -/
  | sum
  /-- The row inside the disc. -/
  | gradientY
  /-- The column inside the disc. -/
  | gradientX
  deriving DecidableEq

/-- What one mask is made from; the mask itself is made when it is asked for. -/
structure MaskSpec (R : Type) where
  kind : MaskKind
  detector : Detector
  cx : R
  cy : R
  r : R

variable {R : Type} [Add R] [Sub R] [Mul R] [NatCast R] [LE R] [DecidableLE R]

section Storage

variable (S : Type) [NatCast S]

/-- One on the pixels within a distance `r` of the center, the rim included, and zero outside. -/
def diskMask (d : Detector) (cx cy r : R) : Grid S :=
  .ofFn d.height d.width fun i j =>
    let dy := Nat.cast i.val - cy
    let dx := Nat.cast j.val - cx
    if dy * dy + dx * dx ≤ r * r then Nat.cast 1 else Nat.cast 0

def rowMask (d : Detector) : Grid S := .ofFn d.height d.width fun i _ => Nat.cast i.val

def columnMask (d : Detector) : Grid S := .ofFn d.height d.width fun _ j => Nat.cast j.val

variable [Mul S]

def MaskSpec.build (m : MaskSpec R) : Grid S :=
  let disk : Grid S := diskMask S m.detector m.cx m.cy m.r
  match m.kind with
  | .sum => disk
  | .gradientY => .zipWith (· * ·) (rowMask S m.detector) disk rfl
  | .gradientX => .zipWith (· * ·) (columnMask S m.detector) disk rfl

end Storage

/-- The masks in the order in which their maps are expected. -/
structure Masks (R : Type) where
  sum : MaskSpec R
  gradientY : MaskSpec R
  gradientX : MaskSpec R

namespace Masks

/-- The masks of one disc; only a signal with two axes has them. -/
def ofSignal {R : Type} (signal : List Nat) (cx cy r : R) : Except Failure (Masks R) :=
  (Detector.ofSignal signal).map fun d =>
    ⟨⟨.sum, d, cx, cy, r⟩, ⟨.gradientY, d, cx, cy, r⟩, ⟨.gradientX, d, cx, cy, r⟩⟩

def toList {R : Type} (m : Masks R) : List (MaskSpec R) := [m.sum, m.gradientY, m.gradientX]

end Masks

end CenterOfMass
