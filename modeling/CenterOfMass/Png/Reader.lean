import CenterOfMass.Image.Basic
import CenterOfMass.Png.Bytes
import CenterOfMass.Png.Chunk

namespace CenterOfMass.Png

/-- The bytes of letters. -/
def letters (text : List Char) : List UInt8 := text.map fun c => c.toNat.toUInt8

/-- The bits of bytes, of each byte the lowest one first. -/
def bitsOf (bytes : List UInt8) : List Bool :=
  bytes.flatMap fun b => (List.range 8).map b.toNat.testBit

/-- One more bit of a polynomial that is divided by `x³² + x²⁶ + x²³ + x²² + x¹⁶ + x¹² + x¹¹ + x¹⁰ +
x⁸ + x⁷ + x⁵ + x⁴ + x² + x + 1`, of which the remainder has the coefficients from `x³¹` down. -/
def divideBit (remainder : BitVec 32) (bit : Bool) : BitVec 32 :=
  if remainder.msb = bit then remainder <<< 1 else remainder <<< 1 ^^^ 0x04c11db7

/-- The cyclic redundancy check of bytes: what remains of their polynomial, begun with ones and
complemented at the end; the highest coefficient is the lowest bit. -/
def checksum (bytes : List UInt8) : Nat :=
  (~~~(bitsOf bytes).foldl divideBit (BitVec.allOnes 32)).reverse.toNat

/-- A chunk with its check confirmed or not, and what follows it. -/
def Chunk.read? (bytes : List UInt8) : Option (Chunk × Bool × List UInt8) := do
  let (size, rest) ← readBe32? bytes
  let (name, rest) ← split? 4 rest
  let (body, rest) ← split? size rest
  let (sum, rest) ← readBe32? rest
  return (⟨name, body⟩, sum = checksum (name ++ body), rest)

/-- Chunks up to the end of the bytes; every chunk takes at least one of the bytes that `fuel`
counts. -/
def Chunk.readAll? : Nat → List UInt8 → Option (List (Chunk × Bool))
  | _, [] => some []
  | 0, _ :: _ => none
  | fuel + 1, bytes => do
    let (chunk, sound, rest) ← read? bytes
    let more ← readAll? fuel rest
    return (chunk, sound) :: more

/-- A file taken apart into chunks, each with its check confirmed or not. -/
def readChunks? (bytes : List UInt8) : Option (List (Chunk × Bool)) := do
  let (head, rest) ← split? 8 bytes
  if head = [0x89, 0x50, 0x4e, 0x47, 0x0d, 0x0a, 0x1a, 0x0a] then Chunk.readAll? rest.length rest
  else none

/-- A header of eight bits a channel, without interlacing. -/
def Header.read? (body : List UInt8) : Option Header := do
  let (width, rest) ← readBe32? body
  let (height, rest) ← readBe32? rest
  match rest with
  | [8, type, 0, 0, 0] =>
    if type = 2 then return ⟨width, height, .truecolor⟩
    else if type = 3 then return ⟨width, height, .indexed⟩
    else none
  | _ => none

/-- The bytes of a row: three for each pixel, or a place in the palette. -/
def Header.rowSize (h : Header) : Nat :=
  match h.type with
  | .truecolor => 3 * h.width
  | .indexed => h.width

/-- The bytes of the rows without their filter bytes, all of which have to be zero. -/
def unfilter? (stride : Nat) : Nat → List UInt8 → Option (List UInt8)
  | 0, [] => some []
  | n + 1, 0 :: rest => do
    let (row, rest) ← split? stride rest
    let more ← unfilter? stride n rest
    return row ++ more
  | _, _ => none

/-- The bytes of a palette in threes. -/
def triples : List UInt8 → List (List UInt8)
  | r :: g :: b :: rest => [r, g, b] :: triples rest
  | _ => []

/-- The color of each index, if every index lies within the palette. -/
def lookUp? {α : Type} (palette : List α) (indices : List UInt8) : Option (List α) :=
  indices.mapM fun i => palette[i.toNat]?

/-- The chunks of a file, provided that every check is confirmed. -/
def soundChunks? (bytes : List UInt8) : Option (List Chunk) := do
  let chunks ← readChunks? bytes
  if chunks.all (·.2) then some (chunks.map (·.1)) else none

/-- The body of the first chunk of a name. -/
def body? (name : List Char) (chunks : List Chunk) : Option (List UInt8) :=
  (chunks.find? (·.name = letters name)).map (·.body)

/-- The image that the chunks of a file of either color type show. -/
def ofChunks? (inflate : List UInt8 → Option (List UInt8)) (chunks : List Chunk) :
    Option Image := do
  let header ← Header.read? (← body? ['I', 'H', 'D', 'R'] chunks)
  let rows ← inflate (← body? ['I', 'D', 'A', 'T'] chunks)
  let data ← unfilter? header.rowSize header.height rows
  match header.type with
  | .truecolor => return ⟨header.width, header.height, data.toArray⟩
  | .indexed =>
    let colors ← lookUp? (triples (← body? ['P', 'L', 'T', 'E'] chunks)) data
    return ⟨header.width, header.height, colors.flatten.toArray⟩

/-- Reads a file back into the image that it shows. -/
def decode? (inflate : List UInt8 → Option (List UInt8)) (bytes : List UInt8) : Option Image :=
  (soundChunks? bytes).bind (ofChunks? inflate)

end CenterOfMass.Png
