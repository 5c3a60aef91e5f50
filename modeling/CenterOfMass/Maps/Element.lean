import CenterOfMass.Maps.Reduction
import CenterOfMass.Numeric.Double

namespace CenterOfMass

instance : Element Float Float := ⟨.real id⟩

/-- Single precision is read without loss. -/
instance : Element Float32 Float := ⟨.real Float32.toFloat⟩

instance : Element (Complex Float) Float := ⟨.complex id⟩

instance : Element (Complex Float32) Float := ⟨.complex (Complex.map Float32.toFloat)⟩

end CenterOfMass
