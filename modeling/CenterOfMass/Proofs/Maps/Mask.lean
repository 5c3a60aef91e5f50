import CenterOfMass.Maps.Mask
import CenterOfMass.Proofs.Grid
import CenterOfMass.Proofs.Numeric.Exact
import CenterOfMass.Proofs.Outcome
import Mathlib.Data.Finset.Prod
import Mathlib.Data.Fintype.Prod

namespace CenterOfMass

/-- The masks of a disc on a detector. -/
def Masks.ofDisc {R : Type} (d : Detector) (cx cy r : R) : Masks R :=
  ⟨⟨.sum, d, cx, cy, r⟩, ⟨.gradientY, d, cx, cy, r⟩, ⟨.gradientX, d, cx, cy, r⟩⟩

theorem Masks.ofSignal_eq_ok {R : Type} {signal : List Nat} {d : Detector}
    (h : Detector.ofSignal signal = .ok d) (cx cy r : R) :
    ofSignal signal cx cy r = .ok (ofDisc d cx cy r) := by
  unfold ofSignal
  rw [h]
  rfl

/-- A table of rational numbers. -/
def exactGrid {m n : ℕ} (f : Fin m → Fin n → ℚ) : Grid Exact := .ofFn m n fun i j => .finite (f i j)

-- Without a name for this, tables of one shape are compared cell by cell.
theorem shape_exactGrid {m n : ℕ} (f g : Fin m → Fin n → ℚ) :
    (exactGrid f).shape = (exactGrid g).shape := rfl

section Masks

open Exact

/-- The pixels that lie no further than the radius from the center. -/
def disc (h w : ℕ) (cy cx : ℚ) : Exact → Finset (Fin h × Fin w)
  | finite r => Finset.univ.filter fun p => ((p.1 : ℚ) - cy) ^ 2 + ((p.2 : ℚ) - cx) ^ 2 ≤ r ^ 2
  | _ => Finset.univ

/-- What a mask holds for a pixel of the disc. -/
def MaskKind.weight {h w : ℕ} : MaskKind → Fin h × Fin w → ℚ
  | .sum, _ => 1
  | .gradientY, p => p.1
  | .gradientX, p => p.2

variable (d : Detector) (cy cx : ℚ) {r : Exact}

theorem diskMask_eq (hr : r.IsRadius) :
    diskMask Exact d (finite cx) (finite cy) r =
      exactGrid fun i j => if (i, j) ∈ disc d.height d.width cy cx r then 1 else 0 := by
  unfold diskMask exactGrid
  congr 1
  funext i j
  simp only [natCast_eq, finite_sub, finite_mul, finite_add]
  rcases hr with rfl | ⟨x, -, rfl⟩
  · have hunlimited : (infinite false * infinite false : Exact) = infinite false := rfl
    rw [hunlimited, if_pos (finite_le_infinity _)]
    simp [disc]
  · simp only [disc, Finset.mem_filter, Finset.mem_univ, true_and, finite_mul, finite_le_finite,
      ← sq]
    split <;> simp

theorem MaskSpec.build_eq (kind : MaskKind) (hr : r.IsRadius) :
    (⟨kind, d, finite cx, finite cy, r⟩ : MaskSpec Exact).build Exact =
      exactGrid fun i j =>
        if (i, j) ∈ disc d.height d.width cy cx r then kind.weight (i, j) else 0 := by
  unfold MaskSpec.build
  simp only [diskMask_eq d cy cx hr]
  cases kind with
  | sum => rfl
  | gradientY =>
    unfold rowMask exactGrid
    refine (Grid.zipWith_ofFn ..).trans ?_
    simp [MaskKind.weight]
  | gradientX =>
    unfold columnMask exactGrid
    refine (Grid.zipWith_ofFn ..).trans ?_
    simp [MaskKind.weight]

end Masks

end CenterOfMass
