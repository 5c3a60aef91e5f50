import CenterOfMass.Numeric.Sizes

namespace CenterOfMass

@[ext] structure Color where
  r : UInt8
  g : UInt8
  b : UInt8
  deriving DecidableEq

namespace Color

/-- The color `0xrrggbb`. -/
def ofHex (n : Nat) : Color := ⟨(n / 65536).toUInt8, (n / 256).toUInt8, n.toUInt8⟩

def toList (c : Color) : List UInt8 := [c.r, c.g, c.b]

end Color

/-- An image of three bytes for a pixel, row after row. -/
@[ext] structure Image where
  width : Nat
  height : Nat
  pixels : Array UInt8
  deriving DecidableEq

namespace Image

/-- How many pixels the sides promise. -/
def pixelCount (i : Image) : Nat := i.width * i.height

def isEmpty (i : Image) : Bool := i.pixelCount == 0

/-- A black image, provided that memory can hold it. -/
def black (width height : Nat) (sizes : Sizes := .checked) : Except Failure Image := do
  let bytes ← sizes.mul (← sizes.mul width height) 3
  if bytes < Word.memoryLimit then return ⟨width, height, Array.replicate bytes 0⟩
  else throw .outOfRange

/-- The color at a place; none beside the image. The bytes need not reach as far as the sides
promise. -/
def pixel (i : Image) (row col : Nat) (sizes : Sizes := .checked) :
    Except Failure (Option Color) :=
  if i.height ≤ row ∨ i.width ≤ col then .ok none
  else do
    let start ← sizes.mul (← sizes.add (← sizes.mul row i.width) col) 3
    match i.pixels[start]?, i.pixels[← sizes.add start 1]?, i.pixels[← sizes.add start 2]? with
    | some r, some g, some b => return some ⟨r, g, b⟩
    | _, _, _ => throw .outOfRange

end Image

/-- Cuts a list into pieces of a length; the last one may be shorter. -/
def chunksOf {α : Type} (n : Nat) (l : List α) : List (List α) :=
  if n = 0 ∨ l.isEmpty then [] else l.take n :: chunksOf n (l.drop n)
termination_by l.length
decreasing_by
  simp only [List.length_drop]
  rename_i h
  have : l.length ≠ 0 := fun e => h (Or.inr (by simpa using e))
  omega

/-- The complete pixels of a run of bytes. -/
def colorsOf : List UInt8 → List Color
  | r :: g :: b :: rest => ⟨r, g, b⟩ :: colorsOf rest
  | _ => []

end CenterOfMass
