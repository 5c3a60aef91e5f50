namespace CenterOfMass.Hypot

/-- One correction step after the plain square root, for `a ≥ b > 0` away from the ends of the
range: the two squares are compared with the square of the root in pieces that do not cancel. -/
def corrected (a b : Float) : Float :=
  let h := (a * a + b * b).sqrt
  if h ≤ 2.0 * b then
    let d := h - b
    h - (a * (2.0 * d - a) + (d - 2.0 * (a - b)) * d) / (2.0 * h)
  else
    let d := h - a
    h - (2.0 * d * (a - 2.0 * b) + ((4.0 * d - b) * b + d * d)) / (2.0 * h)

/-- The scale that brings very long and very short legs into the middle of the range. -/
def scale : Float := Float.ofBits 0x1a70000000000000

/-- Legs above this are scaled down. -/
def large : Float := Float.ofBits 0x5fe0000000000000

/-- Legs below this are scaled up. -/
def tiny : Float := Float.ofBits 0x2340000000000000

/-- A leg shorter than this part of the other one does not count. -/
def epsilon : Float := Float.ofBits 0x3c90000000000000

/-- The length of a right triangle's longest side, without overflow on the way. An unlimited leg
makes it unlimited even beside an undefined one. -/
def length (x y : Float) : Float :=
  if x.isInf || y.isInf then Float.ofBits 0x7ff0000000000000
  else if x.isNaN || y.isNaN then x + y
  else
    let u := x.abs
    let v := y.abs
    let a := if u < v then v else u
    let b := if u < v then u else v
    if large < a then
      if b ≤ a * epsilon then a + b else corrected (a * scale) (b * scale) / scale
    else if b < tiny then
      if b / epsilon ≤ a then a + b else corrected (a / scale) (b / scale) * scale
    else if b ≤ a * epsilon then a + b
    else corrected a b

end CenterOfMass.Hypot
