import CenterOfMass.Decimal.Literal
import CenterOfMass.Image.Colormap
import CenterOfMass.Image.Wheel
import CenterOfMass.Numeric.Double

namespace CenterOfMass

/-- How results are drawn. -/
@[ext] structure Settings (R : Type) where
  colormap : Colormap
  logarithmic : Bool
  wheel : Wheel R

/-- What is wrong with the color wheel. -/
inductive SettingsFault
  | notFinite
  | negativeHue
  | lightOutside
  deriving DecidableEq

def SettingsFault.message : SettingsFault → String
  | .notFinite => "wheel start, rotation and hue must be finite"
  | .negativeHue => "wheel hue must be >= 0"
  | .lightOutside => "wheel light must be within 0-1"

namespace Settings

section Validate

variable {R : Type} [Scalar R]

def standard : Settings R := ⟨.viridis, false, .standard⟩

/-- Asks for a wheel of finite start, rotation and hue, with a hue not below zero and a lightness
in the unit interval. -/
def validate (s : Settings R) : Except SettingsFault Unit :=
  let w := s.wheel
  if !Extended.isFinite w.start || !Extended.isFinite w.rotation || !Extended.isFinite w.hue then
    .error .notFinite
  else if w.hue < Nat.cast 0 then .error .negativeHue
  else if Nat.cast 0 ≤ w.light ∧ w.light ≤ Nat.cast 1 then .ok ()
  else .error .lightOutside

end Validate

/-- The words for a setting that is switched on, in letters of either case. -/
def isOn (text : String) : Bool :=
  String.ofList (text.toList.map Char.toLower) = "true" || text = "1"

/-- A number of the environment; what is not a number leaves the standard value in place. -/
def numberOr (environment : String → Option String) (name : String) (standard : Float) : Float :=
  ((environment name).bind Decimal.float?).getD standard

/-- The settings that the environment asks for. -/
def ofEnvironment (environment : String → Option String) : Settings Float :=
  let wheel : Wheel Float := .standard
  { colormap := ((environment "COM_COLORMAP").map Colormap.ofName).getD .viridis
    logarithmic := ((environment "COM_LOG_SCALE").map isOn).getD false
    wheel :=
      { start := numberOr environment "COM_WHEEL_START" wheel.start
        rotation := numberOr environment "COM_WHEEL_ROTATION" wheel.rotation
        hue := numberOr environment "COM_WHEEL_HUE" wheel.hue
        light := numberOr environment "COM_WHEEL_LIGHT" wheel.light } }

end Settings

end CenterOfMass
