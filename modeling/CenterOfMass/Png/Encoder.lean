import CenterOfMass.Png.Writer
import CenterOfMass.Png.Zlib

namespace CenterOfMass.Png

/-- What is left open of the writing of results: how rows are compressed, and how the pixels of the
image under each key are divided. -/
structure Encoder where
  compress : List UInt8 → List UInt8
  division : String → Division

/-- One worker writes rows that are stored as they are, which any inflater undoes. -/
def Encoder.storing : Encoder := ⟨Zlib.compress, fun _ => .single⟩

/-- Writes the image under a key. -/
def Encoder.write (encoder : Encoder) (key : String) (i : Image) : Except Failure (List UInt8) :=
  encodeWith encoder.compress (encoder.division key) i

def encode (i : Image) : Except Failure (List UInt8) := encodeWith Zlib.compress .single i

def writeTruecolor (width height : Nat) (pixels : Array UInt8) : Except Failure (List UInt8) :=
  (truecolorChunks Zlib.compress width height pixels).map assemble

def writeIndexed (width height : Nat) (palette : List Color) (indices : Array UInt8) :
    Except Failure (List UInt8) :=
  (indexedChunks Zlib.compress width height palette indices).map assemble

end CenterOfMass.Png
