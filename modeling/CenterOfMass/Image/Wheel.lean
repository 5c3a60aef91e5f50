import CenterOfMass.Image.Basic
import CenterOfMass.Numeric.Scalar

namespace CenterOfMass

/-- A color wheel of even lightness: the direction of a vector is shown as hue and its length as
saturation. -/
@[ext] structure Wheel (R : Type) where
  /-- The first color: blue at zero, red at one, green at two. -/
  start : R
  /-- How often the colors come round in one turn. -/
  rotation : R
  /-- How strongly saturation is shown. -/
  hue : R
  /-- The lightness, from zero to one. -/
  light : R

namespace Wheel

variable {R : Type} [Scalar R]

def standard : Wheel R :=
  ⟨Nat.cast 1, Nat.cast 1, Nat.cast 1, (0.5 : R)⟩

def channelByte (x : R) : UInt8 := Quantized.toByte (clampUnit x * Nat.cast 255)

/-- The color of an angle and of a length from zero to one. -/
def color (w : Wheel R) (angle saturation : R) : Color :=
  let pi : R := Elementary.pi
  let fraction := (angle + pi) / (Nat.cast 2 * pi)
  let phi := Nat.cast 2 * pi * (w.start / Nat.cast 3 + w.rotation * fraction)
  let amplitude := w.hue * clampUnit saturation * w.light * (Nat.cast 1 - w.light)
  let sin := Elementary.sin phi
  let cos := Elementary.cos phi
  ⟨channelByte (w.light + amplitude * (-0.14861 * cos + 1.78277 * sin)),
    channelByte (w.light + amplitude * (-0.29227 * cos - 0.90649 * sin)),
    channelByte (w.light + amplitude * (1.97294 * cos))⟩

/-- The length of the longest vector that has a finite one; zero if there is none. -/
def longest (y x : Array R) : R :=
  ((List.zipWith Elementary.hypot y.toList x.toList).filter Extended.isFinite).foldl
    (fun top m => if top < m then m else top) (Nat.cast 0)

/-- The color of one vector where vectors as long as `vmax` are fully saturated. A vector without
a finite length is grey, and every vector is if `vmax` is not above zero. -/
def vectorColor (w : Wheel R) (vmax y x : R) : Color :=
  let length := Elementary.hypot y x
  if !Extended.isFinite length || decide (vmax ≤ Nat.cast 0) then w.color (Nat.cast 0) (Nat.cast 0)
  else w.color (Elementary.atan2 y x) (length / vmax)

/-- Draws a vector field; unless told otherwise the longest vector is fully saturated. -/
def render (w : Wheel R) (y x : Array R) (width height : Nat) (vmax : Option R)
    (sizes : Sizes := .checked) : Except Failure Image := do
  let n ← sizes.mul width height
  if y.size ≠ n ∨ x.size ≠ n then throw (.render (.components y.size x.size width height))
  let top := vmax.getD (longest y x)
  return ⟨width, height, ((List.zipWith (w.vectorColor top) y.toList x.toList).flatMap
    Color.toList).toArray⟩

end Wheel

end CenterOfMass
