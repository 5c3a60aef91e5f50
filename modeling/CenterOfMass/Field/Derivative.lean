import CenterOfMass.Field.Shift
import CenterOfMass.Numeric.Scalar

namespace CenterOfMass

inductive Axis
  | rows
  | cols
  deriving DecidableEq

namespace Axis

def index : Axis → Nat
  | .rows => 0
  | .cols => 1

def ofIndex? : Nat → Option Axis
  | 0 => some .rows
  | 1 => some .cols
  | _ => none

end Axis

/-- The number of samples along an axis. -/
def Grid.length {α : Type} (g : Grid α) : Axis → Nat
  | .rows => g.rows
  | .cols => g.cols

/-- How many samples a difference at an edge takes in, less one. -/
inductive EdgeOrder
  | first
  | second
  deriving DecidableEq

def EdgeOrder.least : EdgeOrder → Nat
  | .first => 2
  | .second => 3

variable {R : Type} [Add R] [Sub R] [Mul R] [Div R] [Neg R] [NatCast R]

/-- The slope at one of the evenly spaced samples of a lane: half the difference of the two
neighbors, and at an edge a difference from that edge inward. -/
def slope (order : EdgeOrder) {n : Nat} (f : Fin n → R) (h : order.least ≤ n) (i : Fin n) : R :=
  have hn : 2 ≤ n := by cases order <;> simp [EdgeOrder.least] at h <;> omega
  if first : i.val = 0 then
    match order, h with
    | .first, _ => f ⟨1, hn⟩ - f ⟨0, by omega⟩
    | .second, h => (-(Nat.cast 3) * f ⟨0, by omega⟩ + Nat.cast 4 * f ⟨1, hn⟩ - f ⟨2, h⟩)
        / Nat.cast 2
  else if last : i.val + 1 = n then
    match order, h with
    | .first, _ => f ⟨n - 1, by omega⟩ - f ⟨n - 2, by omega⟩
    | .second, h =>
      have h3 : 3 ≤ n := h
      (Nat.cast 3 * f ⟨n - 1, by omega⟩ - Nat.cast 4 * f ⟨n - 2, by omega⟩ + f ⟨n - 3, by omega⟩)
        / Nat.cast 2
  else (f ⟨i.val + 1, by omega⟩ - f ⟨i.val - 1, by omega⟩) / Nat.cast 2

namespace Grid

/-- The slopes along every lane of an axis. -/
def derivative (g : Grid R) (axis : Axis) (order : EdgeOrder) (h : order.least ≤ g.length axis) :
    Grid R :=
  match axis, h with
  | .rows, h => .ofFn g.rows g.cols fun i j => slope order (fun k => g.get k j) h i
  | .cols, h => .ofFn g.rows g.cols fun i j => slope order (fun k => g.get i k) h j

theorem shape_derivative (g : Grid R) (axis : Axis) (order : EdgeOrder)
    (h : order.least ≤ g.length axis) : (g.derivative axis order h).shape = g.shape := by
  cases axis <;> rfl

/-- Asks for enough samples along an axis. -/
def longEnough {α : Type} (g : Grid α) (axis : Axis) (order : EdgeOrder) :
    Except Failure (PLift (order.least ≤ g.length axis)) :=
  if h : order.least ≤ g.length axis then .ok ⟨h⟩
  else .error (.shapeMismatch (.shortAxis axis.index g.shape order.least))

/-- The numerical gradient along an axis. -/
def gradient (g : Grid R) (axis : Axis) (order : EdgeOrder) : Except Failure (Grid R) := do
  let ⟨h⟩ ← g.longEnough axis order
  return g.derivative axis order h

end Grid

namespace VectorMap

/-- The `y` slope down the rows plus the `x` slope along the columns. -/
def divergence (v : VectorMap R) : Except Failure (Grid R) := do
  let ⟨hy⟩ ← v.y.longEnough .rows .first
  let ⟨hx⟩ ← v.x.longEnough .cols .first
  return .zipWith (· + ·) (v.y.derivative .rows .first hy) (v.x.derivative .cols .first hx)
    v.shape_eq

/-- The `y` slope along the columns less the `x` slope down the rows. -/
def curl (v : VectorMap R) : Except Failure (Grid R) := do
  let ⟨hy⟩ ← v.y.longEnough .cols .first
  let ⟨hx⟩ ← v.x.longEnough .rows .first
  return .zipWith (· - ·) (v.y.derivative .cols .first hy) (v.x.derivative .rows .first hx)
    v.shape_eq

/-- The length of the vector at every position. -/
def magnitude [Elementary R] (v : VectorMap R) : Grid R :=
  .zipWith (fun y x => Elementary.sqrt (y * y + x * x)) v.y v.x v.shape_eq

end VectorMap

end CenterOfMass
