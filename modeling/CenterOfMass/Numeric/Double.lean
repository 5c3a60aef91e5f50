import CenterOfMass.Decimal.Shortest
import CenterOfMass.Numeric.Hypot
import CenterOfMass.Numeric.Scalar

namespace CenterOfMass

instance natCastFloat : NatCast Float := ⟨Float.ofNat⟩

instance natCastFloat32 : NatCast Float32 := ⟨Float32.ofNat⟩

instance : Extended Float where
  infinity := Float.ofBits 0x7ff0000000000000
  isNaN := Float.isNaN
  isFinite := Float.isFinite

instance : Elementary Float where
  pi := Float.ofBits 0x400921fb54442d18
  sqrt := Float.sqrt
  hypot := Hypot.length
  atan2 := Float.atan2
  sin := Float.sin
  cos := Float.cos
  exp := Float.exp
  log := Float.log

/-- Cutting off the fraction gives the byte below; half a unit or more above it gives the next. -/
def roundToByte (x : Float) : UInt8 :=
  let below := x.toUInt8
  if 0.5 ≤ x - below.toFloat && below < 255 then below + 1 else below

instance : Quantized Float where
  toByte := roundToByte
  toSingle := Float.toFloat32

instance : Storage Float32 Float where
  widen := Float32.toFloat
  narrow := Float.toFloat32

instance : Scalar Float where
  decidableLE := inferInstance
  decidableLT := inferInstance
  text := Decimal.text

end CenterOfMass
