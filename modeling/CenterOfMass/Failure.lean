namespace CenterOfMass

/-- Which two or three shapes do not fit together, or which one does not fit its use. -/
inductive ShapeFault
  | scan (dims : List Nat)
  | shifts (sum y x : Nat × Nat)
  | maps (sum y x : Nat × Nat)
  | components (y x : Nat × Nat)
  | shortAxis (axis : Nat) (shape : Nat × Nat) (least : Nat)
  | notFilled (map : String) (values : Nat) (scan : Nat × Nat)
  | noAxes
  | lastAxis (shape : List Nat)
  | otherScan (maps scan : Nat × Nat)
  | other (message : String)
  deriving DecidableEq

/-- Which sizes keep an image from being drawn or written. -/
inductive RenderFault
  | values (count width height : Nat)
  | components (y x width height : Nat)
  | pixels (bytes width height : Nat)
  | scanlines (expected actual : Nat)
  | other (message : String)
  deriving DecidableEq

/-- What is wrong with a parameter; the value is kept as the text that the message shows. -/
inductive ParameterFault
  | notFinite (value : String)
  | notARadius (value : String)
  | other (message : String)
  deriving DecidableEq

/-- Why the analysis gives no result. -/
inductive Failure
  | unsupportedGeometry (dims : Nat)
  | shapeMismatch (fault : ShapeFault)
  | invalidParameter (name : String) (fault : ParameterFault)
  | duplicateKey (key : String)
  | render (fault : RenderFault)
  /-- An index beyond the end of what it points into. -/
  | outOfRange
  deriving DecidableEq

/-- Sizes in brackets, `[2, 3]`. -/
def listText (dims : List Nat) : String := "[" ++ ", ".intercalate (dims.map toString) ++ "]"

/-- The sides of a table in brackets, `[2, 3]`. -/
def sidesText (shape : Nat × Nat) : String := listText [shape.1, shape.2]

/-- The sides of a table as a pair, `(2, 3)`. -/
def pairText (shape : Nat × Nat) : String :=
  "(" ++ toString shape.1 ++ ", " ++ toString shape.2 ++ ")"

/-- Width by height, `3x2`. -/
def extentText (width height : Nat) : String := toString width ++ "x" ++ toString height

def ShapeFault.message : ShapeFault → String
  | .scan dims => "navigation shape " ++ listText dims ++ " cannot be viewed as a 2D scan"
  | .shifts s y x => "cannot compute shifts from maps of shape sum " ++ sidesText s ++ ", y "
      ++ sidesText y ++ ", x " ++ sidesText x
  | .maps s y x => "reduction maps differ in shape: sum " ++ sidesText s ++ ", y " ++ sidesText y
      ++ ", x " ++ sidesText x
  | .components y x => "vector components differ in shape: y " ++ sidesText y ++ ", x "
      ++ sidesText x
  | .shortAxis axis shape least => "axis " ++ toString axis ++ " of shape " ++ sidesText shape
      ++ " is too small for a numerical gradient, need at least " ++ toString least ++ " elements"
  | .notFilled map values shape => map ++ " map with " ++ toString values
      ++ " values cannot be reshaped to navigation shape " ++ pairText shape
  | .noAxes => "stacked buffer has no axes"
  | .lastAxis shape => "stacked buffer shape " ++ listText shape
      ++ " must end in an axis of length 3"
  | .otherScan given wanted => "reduction maps of shape " ++ pairText given
      ++ " do not match navigation shape " ++ pairText wanted
  | .other message => message

def RenderFault.message : RenderFault → String
  | .values count w h => "data length " ++ toString count ++ " does not match " ++ extentText w h
      ++ " image"
  | .components y x w h => "vector components (" ++ toString y ++ ", " ++ toString x
      ++ ") do not match " ++ extentText w h ++ " image"
  | .pixels bytes w h => "pixel buffer of " ++ toString bytes ++ " bytes does not match "
      ++ extentText w h ++ " RGB image"
  | .scanlines expected actual => "IDAT compression failed: expected " ++ toString expected
      ++ " bytes of image data, got " ++ toString actual
  | .other message => message

def ParameterFault.message : ParameterFault → String
  | .notFinite value => "must be finite, got " ++ value
  | .notARadius value => "must be a non-negative radius, got " ++ value
  | .other message => message

/-- The name of a failure's kind, which does not depend on its details. -/
def Failure.kind : Failure → String
  | .unsupportedGeometry _ => "UnsupportedGeometryError"
  | .shapeMismatch _ => "ShapeMismatchError"
  | .invalidParameter _ _ => "InvalidParameterError"
  | .duplicateKey _ => "DuplicateResultKeyError"
  | .render _ => "RenderError"
  | .outOfRange => "OutOfRangeError"

def Failure.message : Failure → String
  | .unsupportedGeometry dims => "can only handle 2D signals currently, got " ++ toString dims
      ++ "D signal"
  | .shapeMismatch fault => "shape mismatch: " ++ fault.message
  | .invalidParameter name fault => "Invalid parameter value for \x27" ++ name ++ "\x27: "
      ++ fault.message
  | .duplicateKey key => "Duplicate result key: " ++ key
  | .render fault => "Rendering failed: " ++ fault.message
  | .outOfRange => "index out of range"

end CenterOfMass
