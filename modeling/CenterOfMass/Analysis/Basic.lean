import CenterOfMass.Analysis.Package
import CenterOfMass.Maps.Frames

namespace CenterOfMass

/-- The analysis of one data set. -/
structure Analysis (R : Type) where
  shape : DatasetShape
  detector : Detector
  scan : Scan
  parameters : Parameters R
  settings : Settings R

namespace Analysis

variable {R : Type} [Scalar R]

/-- Looks at the signal first, then at the scan, then at the parameters. -/
def ofDataset (shape : DatasetShape) (user : UserParameters R) : Except Failure (Analysis R) := do
  let detector ← shape.detector
  let scan ← shape.scan
  let parameters ← user.resolve detector
  return ⟨shape, detector, scan, parameters, .standard⟩

def withSettings (a : Analysis R) (settings : Settings R) : Analysis R := { a with settings }

/-- The masks that the maps are to be made with. -/
def masks (a : Analysis R) : Except Failure (Masks R) :=
  Masks.ofSignal a.shape.signal a.parameters.cx a.parameters.cy a.parameters.r

/-- The field of shifts from the disc's center, for maps that have the shape of the scan. -/
def compute (a : Analysis R) (maps : ReductionMaps R) : Except Failure (ShiftField R) :=
  if maps.shape ≠ a.scan.shape then
    .error (.shapeMismatch (.otherScan maps.shape a.scan.shape))
  else ShiftField.ofMaps maps a.parameters.cy a.parameters.cx

def results (a : Analysis R) (maps : ReductionMaps R) : Except Failure (ResultSet R) := do
  (← a.compute maps).resultSet a.settings

/-- Results from three flat maps with one value for every scan position. -/
def resultsOfLists {α : Type} [Element α R] (a : Analysis R) (sum y x : Array α) :
    Except Failure (ResultSet R) := do
  a.results (← ReductionMaps.ofLists sum y x a.scan)

/-- Results from a buffer whose last axis runs over the three maps. -/
def resultsOfStack {α : Type} [Element α R] (a : Analysis R) (stack : Stack α) :
    Except Failure (ResultSet R) := do
  a.results (← ReductionMaps.ofStack stack a.scan)

/-- Has the masks applied and takes the field and its results from the maps. -/
def run (a : Analysis R) (reducer : Reducer R) : Except Failure (ShiftField R × ResultSet R) := do
  let masks ← a.masks
  let maps ← reducer masks a.parameters
  let field ← a.compute maps
  return (field, ← field.resultSet a.settings)

end Analysis

end CenterOfMass
