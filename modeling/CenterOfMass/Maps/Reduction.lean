import CenterOfMass.Grid
import CenterOfMass.Numeric.Complex
import CenterOfMass.Scan.Shape

namespace CenterOfMass

/-- What the three masks give over the scan: three maps of one shape. -/
structure MapTriple (α : Type) where
  sum : Grid α
  y : Grid α
  x : Grid α
  y_shape : y.shape = sum.shape
  x_shape : x.shape = sum.shape

namespace MapTriple

variable {α β : Type}

/-- Takes three maps together, or reports their shapes. -/
def ofGrids (fault : Nat × Nat → Nat × Nat → Nat × Nat → ShapeFault) (sum y x : Grid α) :
    Except Failure (MapTriple α) :=
  if h : y.shape = sum.shape ∧ x.shape = sum.shape then .ok ⟨sum, y, x, h.1, h.2⟩
  else .error (.shapeMismatch (fault sum.shape y.shape x.shape))

def map (f : α → β) (m : MapTriple α) : MapTriple β :=
  ⟨m.sum.map f, m.y.map f, m.x.map f, m.y_shape, m.x_shape⟩

theorem ofGrids_ok (fault : Nat × Nat → Nat × Nat → Nat × Nat → ShapeFault) (m : MapTriple α) :
    ofGrids fault m.sum m.y m.x = .ok m := by
  rw [ofGrids, dif_pos ⟨m.y_shape, m.x_shape⟩]

end MapTriple

/-- Maps of the scan with real or with complex values. -/
inductive ReductionMaps (R : Type)
  | real (maps : MapTriple R)
  | complex (maps : MapTriple (Complex R))

/-- How a stored value is read: as a real or as a complex number. -/
inductive Reading (α R : Type)
  | real (value : α → R)
  | complex (value : α → Complex R)

/-- The element types in which maps are delivered. -/
class Element (α : Type) (R : outParam Type) where
  reading : Reading α R

/-- Three flat maps put into the shape of the scan, the first that does not fit being reported. -/
def Scan.fill {α : Type} (s : Scan) (name : String) (values : Array α) :
    Except Failure (Grid α) :=
  let held := Word.isHeld [s.height, s.width] 1
  match (if held then Grid.ofCells? s.height s.width values else none) with
  | some g => .ok g
  | none => .error (.shapeMismatch (.notFilled name values.size s.shape))

/-- A buffer of any number of axes, the last one running fastest. -/
structure Stack (α : Type) where
  shape : List Nat
  cells : Array α
  size_eq : cells.size = shape.foldr (· * ·) 1

namespace Stack

variable {α : Type}

/-- A buffer of the given axes, provided the values fill it exactly. -/
def ofCells? (shape : List Nat) (cells : Array α) : Option (Stack α) :=
  if h : cells.size = shape.foldr (· * ·) 1 then some ⟨shape, cells, h⟩ else none

/-- Every third value from the given one on: the values at one place of a last axis of length
three. -/
def plane (s : Stack α) (k : Fin 3) : Array α :=
  Array.ofFn fun p : Fin (s.cells.size / 3) =>
    have h : 3 * p.val + k.val < s.cells.size := by omega
    s.cells[3 * p.val + k.val]

end Stack

namespace ReductionMaps

variable {α R : Type}

def isComplex : ReductionMaps R → Bool
  | .real _ => false
  | .complex _ => true

def shape : ReductionMaps R → Nat × Nat
  | .real maps => maps.sum.shape
  | .complex maps => maps.sum.shape

def ofReal (sum y x : Grid R) : Except Failure (ReductionMaps R) :=
  (MapTriple.ofGrids .maps sum y x).map .real

def ofComplex (sum y x : Grid (Complex R)) : Except Failure (ReductionMaps R) :=
  (MapTriple.ofGrids .maps sum y x).map .complex

/-- Reads the values of three maps of one shape as the element type says. -/
def ofTriple [Element α R] (maps : MapTriple α) : ReductionMaps R :=
  match (Element.reading : Reading α R) with
  | .real value => .real (maps.map value)
  | .complex value => .complex (maps.map value)

/-- Maps from one value per scan position and mask. -/
def ofLists [Element α R] (sum y x : Array α) (scan : Scan) :
    Except Failure (ReductionMaps R) := do
  let sum ← scan.fill "sum" sum
  let y ← scan.fill "y" y
  let x ← scan.fill "x" x
  (MapTriple.ofGrids .maps sum y x).map ofTriple

/-- Maps from a buffer whose last axis runs over the three masks. -/
def ofStack [Element α R] (stack : Stack α) (scan : Scan) : Except Failure (ReductionMaps R) :=
  match stack.shape.getLast? with
  | none => .error (.shapeMismatch .noAxes)
  | some last =>
    if last = 3 then ofLists (stack.plane 0) (stack.plane 1) (stack.plane 2) scan
    else .error (.shapeMismatch (.lastAxis stack.shape))

end ReductionMaps

end CenterOfMass
