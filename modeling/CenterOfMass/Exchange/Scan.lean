import CenterOfMass.Json.Decode
import CenterOfMass.Scan.Shape

namespace CenterOfMass

variable {R : Type}

/-- Two sides under their names. -/
def sidesJson (height width : Nat) : Json R :=
  .object [("height", .natural height), ("width", .natural width)]

def Draft.asSides (d : Draft R) : Except JsonFault (Nat × Nat) := do
  let found ← d.asRecord [.needed "height" Draft.asNatural, .needed "width" Draft.asNatural]
  return (← found.get "height" Draft.asNatural, ← found.get "width" Draft.asNatural)

def Detector.toJson (d : Detector) : Json R := sidesJson d.height d.width

def Detector.ofDraft (d : Draft R) : Except JsonFault Detector :=
  d.asSides.map fun (height, width) => ⟨height, width⟩

def Scan.toJson (s : Scan) : Json R := sidesJson s.height s.width

def Scan.ofDraft (d : Draft R) : Except JsonFault Scan :=
  d.asSides.map fun (height, width) => ⟨height, width⟩

namespace DatasetShape

def toJson (s : DatasetShape) : Json R :=
  .object [("nav", .array (s.navigation.map .natural)), ("sig", .array (s.signal.map .natural))]

def ofDraft (d : Draft R) : Except JsonFault DatasetShape := do
  let axes := Draft.asList Draft.asNatural
  let found ← d.asRecord [.needed "nav" axes, .needed "sig" axes]
  return ⟨← found.get "nav" axes, ← found.get "sig" axes⟩

end DatasetShape

end CenterOfMass
