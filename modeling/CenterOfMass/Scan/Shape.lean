import CenterOfMass.Failure
import CenterOfMass.Numeric.Word

namespace CenterOfMass

/-- The pixels of one detector frame. -/
structure Detector where
  height : Nat
  width : Nat
  deriving DecidableEq

namespace Detector

/-- Only a signal with two axes is a detector frame. -/
def ofSignal : List Nat → Except Failure Detector
  | [h, w] => .ok ⟨h, w⟩
  | dims => .error (.unsupportedGeometry dims.length)

def shape (d : Detector) : Nat × Nat := (d.height, d.width)

def pixelCount (d : Detector) : Nat := d.height * d.width

def isEmpty (d : Detector) : Bool := d.height == 0 || d.width == 0

/-- The detector, provided that its masks can be held; they take four bytes for a pixel. -/
def held (d : Detector) : Except Failure Detector :=
  if Word.isHeld [d.height, d.width] 4 then .ok d else .error .outOfRange

end Detector

/-- The grid of positions at which frames are taken. -/
structure Scan where
  height : Nat
  width : Nat
  deriving DecidableEq

namespace Scan

/-- A line scan is a scan of one row. -/
def ofNavigation : List Nat → Except Failure Scan
  | [w] => .ok ⟨1, w⟩
  | [h, w] => .ok ⟨h, w⟩
  | dims => .error (.shapeMismatch (.scan dims))

def shape (s : Scan) : Nat × Nat := (s.height, s.width)

def positionCount (s : Scan) : Nat := s.height * s.width

def isEmpty (s : Scan) : Bool := s.positionCount == 0

end Scan

/-- The axes of a data set: those of the scan, then those of a frame. -/
structure DatasetShape where
  navigation : List Nat
  signal : List Nat
  deriving DecidableEq

namespace DatasetShape

def detector (d : DatasetShape) : Except Failure Detector := Detector.ofSignal d.signal

def scan (d : DatasetShape) : Except Failure Scan := Scan.ofNavigation d.navigation

end DatasetShape

end CenterOfMass
