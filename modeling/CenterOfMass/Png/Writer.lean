import CenterOfMass.Png.Bytes
import CenterOfMass.Png.Checksum
import CenterOfMass.Png.Chunk
import CenterOfMass.Png.Palette

namespace CenterOfMass.Png

def signature : List UInt8 := [137, 80, 78, 71, 13, 10, 26, 10]

namespace Chunk

def header : List UInt8 := [73, 72, 68, 82]

def palette : List UInt8 := [80, 76, 84, 69]

def imageData : List UInt8 := [73, 68, 65, 84]

def ending : List UInt8 := [73, 69, 78, 68]

/-- Length, name, body, and the check over the last two. -/
def toBytes (c : Chunk) : List UInt8 :=
  be32 c.body.length ++ c.name ++ c.body ++ be32 (crc32 (c.name ++ c.body)).toNat

end Chunk

namespace ColorType

def code : ColorType → UInt8
  | .truecolor => 2
  | .indexed => 3

def bytesPerPixel : ColorType → Nat
  | .truecolor => 3
  | .indexed => 1

end ColorType

/-- Sides and color type; eight bits a channel, no interlacing. -/
def headerBody (width height : Nat) (type : ColorType) : List UInt8 :=
  be32 width ++ be32 height ++ [8, type.code, 0, 0, 0]

section Rows

variable (data : Array UInt8) (stride : Nat) (sizes : Sizes)

/-- The bytes of a row of an image, which has to lie within the bytes given. -/
def rowSlice (row : Nat) : Except Failure (List UInt8) := do
  let start ← sizes.mul row stride
  let stop ← sizes.mul (row + 1) stride
  if start ≤ stop ∧ stop ≤ data.size then return (data.extract start stop).toList
  else throw .outOfRange

/-- The given number of rows from a row on, each behind a byte for the filter that it does not
have. -/
def rowsFrom : Nat → Nat → Except Failure (List UInt8)
  | 0, _ => .ok []
  | n + 1, row => do
    let slice ← rowSlice data stride sizes row
    let more ← rowsFrom n (row + 1)
    return 0 :: slice ++ more

end Rows

/-- The rows of an image. Bytes after the last row are left out, and too few are an error. -/
def scanlines (data : Array UInt8) (width height : Nat) (type : ColorType)
    (sizes : Sizes := .checked) : Except Failure (List UInt8) := do
  let stride ← sizes.mul width type.bytesPerPixel
  let total ← sizes.mul stride height
  if data.size < total then throw (.render (.scanlines total data.size))
  if Word.memoryLimit ≤ (← sizes.mul height (← sizes.add 1 stride)) then throw .outOfRange
  rowsFrom data stride sizes height 0

/-- A file of the given chunks. -/
def assemble (chunks : List Chunk) : List UInt8 := signature ++ chunks.flatMap Chunk.toBytes

section Chunks

variable (compress : List UInt8 → List UInt8)

/-- The chunks of an image of three bytes for a pixel. -/
def truecolorChunks (width height : Nat) (pixels : Array UInt8) (sizes : Sizes := .checked) :
    Except Failure (List Chunk) :=
  (scanlines pixels width height .truecolor sizes).map fun rows =>
    [⟨Chunk.header, headerBody width height .truecolor⟩, ⟨Chunk.imageData, compress rows⟩,
      ⟨Chunk.ending, []⟩]

/-- The chunks of an image of one place in a palette for a pixel. -/
def indexedChunks (width height : Nat) (palette : List Color) (indices : Array UInt8)
    (sizes : Sizes := .checked) : Except Failure (List Chunk) :=
  (scanlines indices width height .indexed sizes).map fun rows =>
    [⟨Chunk.header, headerBody width height .indexed⟩,
      ⟨Chunk.palette, palette.flatMap Color.toList⟩, ⟨Chunk.imageData, compress rows⟩,
      ⟨Chunk.ending, []⟩]

end Chunks

/-- From this many pixels on the palette is collected by several workers. -/
def divisionThreshold : Nat := 4096

/-- The palette of so many pixels and the pixels as places in it, if the palette is large
enough. -/
def indexImage (d : Division) (count : Nat) (pixels : List UInt8) : Option Indexed :=
  if divisionThreshold ≤ count then indexDivided d pixels else index pixels

/-- The chunks of an image, with a palette if it has few enough colors. -/
def imageChunks (compress : List UInt8 → List UInt8) (d : Division) (i : Image)
    (sizes : Sizes := .checked) : Except Failure (List Chunk) := do
  let count ← sizes.mul i.width i.height
  if i.pixels.size ≠ (← sizes.mul count 3) then
    throw (.render (.pixels i.pixels.size i.width i.height))
  match indexImage d count i.pixels.toList with
  | some r => indexedChunks compress i.width i.height r.palette r.indices.toArray sizes
  | none => truecolorChunks compress i.width i.height i.pixels sizes

/-- Writes an image; how its rows are compressed and its pixels divided is left open. -/
def encodeWith (compress : List UInt8 → List UInt8) (d : Division) (i : Image)
    (sizes : Sizes := .checked) : Except Failure (List UInt8) :=
  (imageChunks compress d i sizes).map assemble

end CenterOfMass.Png
