import CenterOfMass.Image.Basic
import CenterOfMass.Image.ColorTable
import CenterOfMass.Numeric.Scalar

namespace CenterOfMass

inductive Colormap
  | viridis
  | inferno
  | magma
  | plasma
  | cubehelix
  | greys
  deriving DecidableEq

namespace Colormap

/-- The colormap of a name in letters of either case; any other name means viridis. No letter
outside ASCII becomes one of these letters in lower case. -/
def ofName (name : String) : Colormap :=
  let lower := String.ofList (name.toList.map Char.toLower)
  if lower = "inferno" then .inferno
  else if lower = "magma" then .magma
  else if lower = "plasma" then .plasma
  else if lower = "cubehelix" then .cubehelix
  else if lower = "greys" ∨ lower = "grays" ∨ lower = "gray" then .greys
  else .viridis

/-- A cubic that runs near four equally spaced values, between the middle two. -/
def spline (t v0 v1 v2 v3 : Float32) : Float32 :=
  let t2 := t * t
  let t3 := t2 * t
  ((1.0 - 3.0 * t + 3.0 * t2 - t3) * v0 + (4.0 - 6.0 * t2 + 3.0 * t3) * v1
    + (1.0 + 3.0 * t + 3.0 * t2 - 3.0 * t3) * v2 + t3 * v3) / 6.0

/-- One channel of a table at `t`, where beyond an end the table goes on evenly. -/
def channelAt (table : Array Nat) (channel : Color → UInt8) (t : Float32) : UInt8 :=
  let n := table.size - 1
  let steps := Nat.toFloat32 n
  let i := min (t * steps).toUInt64.toNat (n - 1)
  let entry (k : Nat) : Float32 := (channel (.ofHex (table.getD k 0))).toFloat32
  let v1 := entry i
  let v2 := entry (i + 1)
  let v0 := if 0 < i then entry (i - 1) else 2.0 * v1 - v2
  let v3 := if i < n - 1 then entry (i + 2) else 2.0 * v2 - v1
  (spline ((t - Nat.toFloat32 i / steps) * steps) v0 v1 v2 v3).toUInt8

def tableAt (table : Array Nat) (t : Float32) : Color :=
  ⟨channelAt table Color.r t, channelAt table Color.g t, channelAt table Color.b t⟩

/-- The helix through the color cube from black to white, one and a half turns. -/
def helixAt (t : Float32) : Color :=
  let hue : Float32 := 300.0 + t * (-240.0 - 300.0)
  let saturation : Float32 := 0.5 + t * (0.5 - 0.5)
  let light : Float32 := 0.0 + t * (1.0 - 0.0)
  let angle := (hue + 120.0) * (Float32.ofBits 0x40490fdb / 180.0)
  let amplitude := saturation * light * (1.0 - light)
  let cos := angle.cos
  let sin := angle.sin
  let channel (x : Float32) : UInt8 := (255.0 * (if x < 1.0 then x else 1.0)).toUInt8
  ⟨channel (light - amplitude * (0.14861 * cos - 1.78277 * sin)),
    channel (light - amplitude * (0.29227 * cos + 0.90649 * sin)),
    channel (light + amplitude * (1.97294 * cos))⟩

/-- The color at a place from zero to one; places outside count as the nearer end. -/
def color {R : Type} [NatCast R] [LT R] [DecidableLT R] [Quantized R] (m : Colormap) (x : R) :
    Color :=
  let t := Quantized.toSingle (clampUnit x)
  match m with
  | .viridis => tableAt ColorTable.viridis t
  | .inferno => tableAt ColorTable.inferno t
  | .magma => tableAt ColorTable.magma t
  | .plasma => tableAt ColorTable.plasma t
  | .cubehelix => helixAt t
  | .greys => tableAt ColorTable.greys t

end Colormap

end CenterOfMass
