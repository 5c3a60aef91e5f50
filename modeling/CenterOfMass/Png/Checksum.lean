namespace CenterOfMass.Png

/-- Divides one bit out of a remainder; the lowest bit stands for the highest power. -/
def crcBit (crc : UInt32) : UInt32 :=
  if crc &&& 1 = 1 then (crc >>> 1) ^^^ 0xedb88320 else crc >>> 1

def crcByte (crc : UInt32) (b : UInt8) : UInt32 :=
  Nat.repeat crcBit 8 (crc ^^^ b.toUInt32)

/-- The cyclic redundancy check of 32 bits. -/
def crc32 (bytes : List UInt8) : UInt32 := bytes.foldl crcByte 0xffffffff ^^^ 0xffffffff

/-- The sum of the bytes and the sum of those sums, each modulo the largest prime below `2¹⁶`. -/
def adler32 (bytes : List UInt8) : UInt32 :=
  let (a, b) := bytes.foldl (fun ((a, b) : UInt32 × UInt32) byte =>
    let a := (a + byte.toUInt32) % 65521
    (a, (b + a) % 65521)) (1, 0)
  b <<< 16 ||| a

end CenterOfMass.Png
