import CenterOfMass.Image.Basic

namespace CenterOfMass.Png

/-- A palette can hold this many colors, so that a byte names each of them. -/
def paletteLimit : Nat := 256

/-- The pixels of an image as places in a list of its colors. -/
structure Indexed where
  palette : List Color
  indices : List UInt8

/-- Goes over the pixels and gives each new color the next place; none if there is no place
left. -/
def indexFrom (palette : List Color) : List Color → Option Indexed
  | [] => some ⟨palette, []⟩
  | c :: cs =>
    match palette.idxOf? c with
    | some i => (indexFrom palette cs).map fun r => { r with indices := i.toUInt8 :: r.indices }
    | none =>
      if palette.length < paletteLimit then
        (indexFrom (palette ++ [c]) cs).map fun r =>
          { r with indices := palette.length.toUInt8 :: r.indices }
      else none

/-- Colors in the order in which they first appear. -/
def index (pixels : List UInt8) : Option Indexed := indexFrom [] (colorsOf pixels)

/-- The different colors of some pixels beside those seen before; once there are too many for a
palette the rest is not looked at. -/
def distinct (seen : List Color) : List Color → List Color
  | [] => seen
  | c :: cs =>
    if c ∈ seen then distinct seen cs
    else
      let more := seen ++ [c]
      if paletteLimit < more.length then more else distinct more cs

/-- Adds the colors that a palette lacks; none if there is no place left. -/
def merge (palette : List Color) : List Color → Option (List Color)
  | [] => some palette
  | c :: cs =>
    if c ∈ palette then merge palette cs
    else if palette.length < paletteLimit then merge (palette ++ [c]) cs
    else none

/-- How the pixels are divided among workers, and in which order the set of colors found in each
piece is handed over. -/
structure Division where
  workers : Nat
  drain : Nat → List Color → List Color
  drain_perm : ∀ piece colors, (drain piece colors).Perm colors

/-- One worker, who hands over the colors as they appear. -/
def Division.single : Division := ⟨1, fun _ colors => colors, fun _ _ => .refl _⟩

/-- How many pixels one worker takes at a time. -/
def Division.pieceLength (d : Division) (pixels : List UInt8) : Nat :=
  max (pixels.length / 3 / d.workers) 256

/-- Collects the colors piece by piece, joins them, and then looks every pixel up. -/
def indexDivided (d : Division) (pixels : List UInt8) : Option Indexed :=
  let pieces := chunksOf (3 * d.pieceLength pixels) pixels
  let found := pieces.mapIdx fun i piece => d.drain i (distinct [] (colorsOf piece))
  (merge [] found.flatten).map fun palette =>
    ⟨palette, (colorsOf pixels).map fun c => ((palette.idxOf? c).getD 0).toUInt8⟩

end CenterOfMass.Png
