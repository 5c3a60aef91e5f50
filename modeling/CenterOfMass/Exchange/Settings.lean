import CenterOfMass.Analysis.Settings
import CenterOfMass.Exchange.Parameters
import CenterOfMass.Maps.Mask

namespace CenterOfMass

variable {R : Type}

namespace MaskKind

def name : MaskKind → String
  | .sum => "sum"
  | .gradientY => "gradient_y"
  | .gradientX => "gradient_x"

def ofDraft : Draft R → Except JsonFault MaskKind :=
  Draft.asOneOf ([.sum, .gradientY, .gradientX].map fun (k : MaskKind) => (k.name, k))

end MaskKind

namespace Colormap

def name : Colormap → String
  | .viridis => "viridis"
  | .inferno => "inferno"
  | .magma => "magma"
  | .plasma => "plasma"
  | .cubehelix => "cubehelix"
  | .greys => "greys"

def all : List Colormap := [.viridis, .inferno, .magma, .plasma, .cubehelix, .greys]

/-- Only the names themselves are known here, in small letters. -/
def ofDraft : Draft R → Except JsonFault Colormap :=
  Draft.asOneOf (all.map fun (m : Colormap) => (m.name, m))

end Colormap

namespace Wheel

def toJson [Extended R] (w : Wheel R) : Json R :=
  .object [("start", .ofNumber w.start), ("rotation", .ofNumber w.rotation),
    ("hue", .ofNumber w.hue), ("light", .ofNumber w.light)]

def ofDraft [NatCast R] [Neg R] (d : Draft R) : Except JsonFault (Wheel R) := do
  let found ← d.asRecord [.needed "start" Draft.asNumber, .needed "rotation" Draft.asNumber,
    .needed "hue" Draft.asNumber, .needed "light" Draft.asNumber]
  return {
    start := ← found.get "start" Draft.asNumber
    rotation := ← found.get "rotation" Draft.asNumber
    hue := ← found.get "hue" Draft.asNumber
    light := ← found.get "light" Draft.asNumber }

end Wheel

namespace Settings

def toJson [Extended R] (s : Settings R) : Json R :=
  .object [("colormap", .text s.colormap.name), ("logarithmic", .bool s.logarithmic),
    ("wheel", s.wheel.toJson)]

def ofDraft [NatCast R] [Neg R] (d : Draft R) : Except JsonFault (Settings R) := do
  let found ← d.asRecord [.needed "colormap" Colormap.ofDraft,
    .needed "logarithmic" Draft.asBool, .needed "wheel" Wheel.ofDraft]
  return {
    colormap := ← found.get "colormap" Colormap.ofDraft
    logarithmic := ← found.get "logarithmic" Draft.asBool
    wheel := ← found.get "wheel" Wheel.ofDraft }

end Settings

end CenterOfMass
