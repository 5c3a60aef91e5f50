namespace CenterOfMass.Png

/-- A named part of a file. -/
structure Chunk where
  /-- Four letters. -/
  name : List UInt8
  body : List UInt8
  deriving DecidableEq

/-- Whether a pixel gives its color or a place in a palette. -/
inductive ColorType
  | truecolor
  | indexed
  deriving DecidableEq

/-- The sides and the color type that a file promises. -/
structure Header where
  width : Nat
  height : Nat
  type : ColorType
  deriving DecidableEq

end CenterOfMass.Png
