import CenterOfMass.Image.Basic
import CenterOfMass.Png.Bytes
import CenterOfMass.Png.Checksum

namespace CenterOfMass.Png.Zlib

/-- The longest run that one stored block can hold. -/
def blockLimit : Nat := 65535

/-- A block that holds its bytes as they are, behind their number and its complement. -/
def block (final : Bool) (bytes : List UInt8) : List UInt8 :=
  (if final then 1 else 0) :: le16 bytes.length ++ le16 (blockLimit - bytes.length) ++ bytes

/-- Blocks of which only the last is marked as the last; there is always one. -/
def blocks : List (List UInt8) → List UInt8
  | [] => block true []
  | [last] => block true last
  | piece :: rest => block false piece ++ blocks rest

/-- A stream of stored blocks between its header and its checksum. -/
def compress (bytes : List UInt8) : List UInt8 :=
  [0x78, 0x01] ++ blocks (chunksOf blockLimit bytes) ++ be32 (adler32 bytes).toNat

/-- One stored block: whether it is the last, its bytes, and what follows it. -/
def readBlock? : List UInt8 → Option (Bool × List UInt8 × List UInt8)
  | [] => none
  | head :: rest => do
    if head &&& 6 ≠ 0 then none
    else
      let (size, rest) ← readLe16? rest
      let (complement, rest) ← readLe16? rest
      if size + complement ≠ blockLimit then none
      else
        let (bytes, rest) ← split? size rest
        return (head &&& 1 = 1, bytes, rest)

/-- The bytes of the blocks up to the last one, and what follows that; every block takes at least
one of the bytes that `fuel` counts. -/
def readBlocks? : Nat → List UInt8 → Option (List UInt8 × List UInt8)
  | 0, _ => none
  | fuel + 1, bytes => do
    let (final, piece, rest) ← readBlock? bytes
    if final then return (piece, rest)
    else
      let (more, rest) ← readBlocks? fuel rest
      return (piece ++ more, rest)

/-- The bytes of a stream of stored blocks that is complete and has nothing after it. -/
def decompress? : List UInt8 → Option (List UInt8)
  | method :: flags :: rest => do
    if method &&& 15 ≠ 8 ∨ (method.toNat * 256 + flags.toNat) % 31 ≠ 0 ∨ flags &&& 32 ≠ 0 then none
    else
      let (bytes, rest) ← readBlocks? rest.length rest
      let (sum, rest) ← readBe32? rest
      if rest.isEmpty && sum = (adler32 bytes).toNat then return bytes else none
  | _ => none

end CenterOfMass.Png.Zlib
