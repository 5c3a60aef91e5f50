import CenterOfMass.Image.Colormap

namespace CenterOfMass

variable {R : Type}

section Range

variable [LT R] [DecidableLT R] [Extended R]

/-- Widens a range to take in a value, which replaces a bound that it equals. -/
def widenRange (range : Option (R × R)) (v : R) : Option (R × R) :=
  match range with
  | none => some (v, v)
  | some (low, high) => some (if low < v then low else v, if v < high then high else v)

/-- The least and the greatest of the finite values, if there are any. -/
def finiteRange (values : List R) : Option (R × R) :=
  (values.filter Extended.isFinite).foldl widenRange none

end Range

section Grid

variable [Sub R] [Div R] [NatCast R] [LE R] [DecidableLE R] [LT R] [DecidableLT R] [Extended R]

/-- Where a value lies between two bounds, from zero to one. Everything is at zero when there is
no finite distance between the bounds, and so is a value that is not finite. -/
def position (low high v : R) : R :=
  let range := high - low
  if !Extended.isFinite v || decide (range ≤ Nat.cast 0) || !Extended.isFinite range then
    Nat.cast 0
  else clampUnit ((v - low) / range)

/-- The value at a place of a table that stands row after row. -/
def valueAt (values : Array R) (width row col : Nat) (sizes : Sizes := .checked) :
    Except Failure R := do
  match values[← sizes.add (← sizes.mul row width) col]? with
  | some v => return v
  | none => throw .outOfRange

/-- The bytes of one row of an image, written into the piece of memory that holds the row. The
piece has to be as long as the row, and the values have to reach to its end. -/
def rowBytes (color : R → Color) (values : Array R) (low high : R) (width row : Nat)
    (piece : List UInt8) (sizes : Sizes := .checked) : Except Failure (List UInt8) :=
  if piece.length = 3 * width then do
    let vs ← (List.range width).mapM fun x => valueAt values width row x sizes
    return vs.flatMap fun v => (color (position low high v)).toList
  else .error .outOfRange

/-- Draws a row into its piece of the image, if there is such a piece. -/
def drawRow (color : R → Color) (values : Array R) (low high : R) (width : Nat) (sizes : Sizes)
    (done : Array (List UInt8)) (row : Nat) : Except Failure (Array (List UInt8)) :=
  match done[row]? with
  | some piece => do
    return done.setIfInBounds row (← rowBytes color values low high width row piece sizes)
  | none => .ok done

/-- Draws the rows in the order that `arrange` puts them in, each into its own piece of the image.
Memory has to be able to hold the image, and there has to be a value for each of its pixels. -/
def renderGridIn (arrange : List Nat → List Nat) (color : R → Color) (values : Array R)
    (low high : R) (width height : Nat) (sizes : Sizes := .checked) :
    Except Failure (Array UInt8) := do
  let size ← sizes.mul (← sizes.mul width height) 3
  if Word.memoryLimit ≤ size then throw .outOfRange
  if width = 0 ∨ height = 0 then return #[]
  if values.size < size / 3 then throw .outOfRange
  let pieces := (chunksOf (← sizes.mul width 3) (List.replicate size (0 : UInt8))).toArray
  let rows := arrange (List.range pieces.size)
  let drawn ← rows.foldlM (drawRow color values low high width sizes) pieces
  return drawn.toList.flatten.toArray

/-- Draws a table of values row after row, each value at its place between the bounds. -/
def renderGrid (color : R → Color) (values : Array R) (low high : R) (width height : Nat)
    (sizes : Sizes := .checked) : Except Failure (Array UInt8) :=
  renderGridIn id color values low high width height sizes

end Grid

section Visualize

variable [Scalar R]

/-- The values to be drawn: as they are, or the logarithms of their distances from the least one,
which itself counts as one. -/
def scaledValues (logarithmic : Bool) (values : Array R) : Array R :=
  if logarithmic then
    let low := ((finiteRange values.toList).map (·.1)).getD (Nat.cast 0)
    values.map fun v => Elementary.log (v - low + Nat.cast 1)
  else values

/-- Draws a table with its finite values stretched over the whole colormap. -/
def visualize (map : Colormap) (logarithmic : Bool) (values : Array R) (width height : Nat)
    (sizes : Sizes := .checked) : Except Failure Image := do
  if values.size ≠ (← sizes.mul width height) then
    throw (.render (.values values.size width height))
  let scaled := scaledValues logarithmic values
  let (low, high) := (finiteRange scaled.toList).getD (Nat.cast 0, Nat.cast 0)
  let pixels ← renderGrid (Colormap.color map) scaled low high width height sizes
  return ⟨width, height, pixels⟩

end Visualize

end CenterOfMass
