import CenterOfMass.Maps.Mask
import CenterOfMass.Maps.Reduction
import CenterOfMass.Scan.Parameters

namespace CenterOfMass

/-- Whatever applies the masks to the frames of a data set. -/
abbrev Reducer (R : Type) := Masks R → Parameters R → Except Failure (ReductionMaps R)

/-- A table with so many bytes for a cell, provided that it can be held. -/
def Grid.tabulate {α : Type} (cellBytes m n : Nat) (f : Fin m → Fin n → α) :
    Except Failure (Grid α) :=
  if Word.isHeld [m, n] cellBytes then .ok (.ofFn m n f) else .error .outOfRange

section Synthetic

variable {R : Type} [Add R] [Sub R] [Mul R] [Div R] [Neg R] [NatCast R] [Elementary R]

/-- A frame with a round bright spot that falls off over the width `sigma`. -/
def spotFrame {S : Type} [Storage S R] (d : Detector) (cy cx sigma : R) :
    Except Failure (Grid S) :=
  Grid.tabulate 4 d.height d.width fun i j =>
    let dy := Nat.cast i.val - cy
    let dx := Nat.cast j.val - cx
    Storage.narrow (Elementary.exp (-(dy * dy + dx * dx) / (Nat.cast 2 * sigma * sigma)))

/-- A frame that is dark but for one pixel, which has to lie on the detector. -/
def pointFrame {S : Type} [NatCast S] (d : Detector) (pixel : Option (Nat × Nat)) :
    Except Failure (Grid S) :=
  match pixel with
  | none => Grid.tabulate 4 d.height d.width fun _ _ => Nat.cast 0
  | some (y, x) =>
    if y < d.height ∧ x < d.width then
      Grid.tabulate 4 d.height d.width fun i j =>
        if i.val = y ∧ j.val = x then Nat.cast 1 else Nat.cast 0
    else .error .outOfRange

/-- A map that tells its cells apart: ten times the row and the column. -/
def indexMap (h w : Nat) : Except Failure (Grid R) :=
  Grid.tabulate 8 h w fun i j => Nat.cast (i.val * 10 + j.val)

/-- A map with the row as the real and the column as the imaginary part. -/
def complexIndexMap (h w : Nat) : Except Failure (Grid (Complex R)) :=
  Grid.tabulate 16 h w fun i j => ⟨Nat.cast i.val, Nat.cast j.val⟩

end Synthetic

section Dense

variable {R S : Type} [Add R] [Mul R] [Neg R] [NatCast R] [Storage S R]

/-- The sum of a frame's pixels, each weighted by the mask, pixel after pixel. It starts from the
zero below zero, so that a sum of zeros below zero is one too. -/
def Grid.inner (frame mask : Grid S) : R :=
  (List.zipWith (fun f m => Storage.widen f * Storage.widen m) frame.cells.toList
    mask.cells.toList).foldl (· + ·) (-(Nat.cast 0))

/-- The map of one mask over a scan of frames. -/
def denseMap (frames : Grid (Grid S)) (mask : Grid S) : Grid R := frames.map (·.inner mask)

variable [Sub R] [LE R] [DecidableLE R] [NatCast S] [Mul S]

/-- Applies every mask to every frame. All frames have to be held together, with four bytes for a
pixel, and each map with eight for a position. -/
def denseReducer (frames : Grid (Grid S)) : Reducer R := fun masks _ => do
  let d ← masks.sum.detector.held
  if Word.isHeld [frames.rows, frames.cols, d.height, d.width] 4 &&
      Word.isHeld [frames.rows, frames.cols] 8 then
    ReductionMaps.ofReal (denseMap frames (masks.sum.build S))
      (denseMap frames (masks.gradientY.build S)) (denseMap frames (masks.gradientX.build S))
  else throw .outOfRange

end Dense

end CenterOfMass
