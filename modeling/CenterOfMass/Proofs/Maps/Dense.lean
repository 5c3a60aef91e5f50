import CenterOfMass.Maps.Frames
import CenterOfMass.Proofs.Maps.Mask
import Mathlib.Algebra.BigOperators.Fin
import Mathlib.Algebra.BigOperators.Ring.Finset

namespace CenterOfMass

section Frame

variable {m n : ℕ}

theorem foldl_add_finite (l : List ℚ) (a : ℚ) :
    (l.map Exact.finite).foldl (· + ·) (.finite a) = .finite (a + l.sum) := by
  induction l generalizing a with
  | nil => simp
  | cons x l ih =>
    rw [List.map_cons, List.foldl_cons, Exact.finite_add, ih, List.sum_cons, add_assoc]

theorem sum_cells (f : Fin m → Fin n → ℚ) :
    ∑ p : Fin (m * n), f (Grid.rowOf p) (Grid.colOf p) = ∑ p : Fin m × Fin n, f p.1 p.2 :=
  Fintype.sum_equiv finProdFinEquiv.symm _ _ fun _ => rfl

/-- The sum that runs pixel after pixel is the sum over all pixels. -/
theorem inner_exactGrid (f g : Fin m → Fin n → ℚ) :
    (exactGrid f).inner (exactGrid g) =
      Exact.finite (∑ p : Fin m × Fin n, f p.1 p.2 * g p.1 p.2) := by
  -- both tables are read in the row-after-row order
  have hcells : List.zipWith (fun a b : Exact => Storage.widen a * Storage.widen b)
      (exactGrid f).cells.toList (exactGrid g).cells.toList =
      (List.ofFn fun p : Fin (m * n) => f (Grid.rowOf p) (Grid.colOf p) *
        g (Grid.rowOf p) (Grid.colOf p)).map Exact.finite := by
    simp only [exactGrid, Grid.ofFn, Array.toList_ofFn]
    rw [zipWith_ofFn, List.map_ofFn]
    rfl
  unfold Grid.inner
  rw [hcells, Exact.natCast_eq, Exact.neg_finite, foldl_add_finite, List.sum_ofFn,
    sum_cells fun i j => f i j * g i j]
  simp

end Frame

section Masks

open Exact

variable (d : Detector) (cy cx : ℚ) {r : Exact}

/-- The sum of a frame's pixels in the disc, each with a weight. -/
def discSum {h w : ℕ} (cy cx : ℚ) (r : Exact) (weight : Fin h × Fin w → ℚ)
    (f : Fin h → Fin w → ℚ) : ℚ := ∑ p ∈ disc h w cy cx r, weight p * f p.1 p.2

/-- A frame and a mask give the weighted sum over the disc, whatever stands outside. -/
theorem inner_build (kind : MaskKind) (hr : r.IsRadius)
    (f : Fin d.height → Fin d.width → ℚ) :
    (exactGrid f).inner ((⟨kind, d, finite cx, finite cy, r⟩ : MaskSpec Exact).build Exact) =
      finite (discSum cy cx r kind.weight f) := by
  rw [MaskSpec.build_eq d cy cx kind hr, inner_exactGrid]
  congr 1
  calc ∑ p : Fin d.height × Fin d.width, f p.1 p.2 *
        (if (p.1, p.2) ∈ disc d.height d.width cy cx r then kind.weight (p.1, p.2) else 0)
      = ∑ p : Fin d.height × Fin d.width,
          if p ∈ disc d.height d.width cy cx r then kind.weight p * f p.1 p.2 else 0 := by
        refine Finset.sum_congr rfl fun p _ => ?_
        rw [mul_ite, mul_zero, mul_comm]
    _ = discSum cy cx r kind.weight f := by
        rw [Finset.sum_ite_mem, Finset.univ_inter]
        rfl

variable {H W : ℕ}

/-- A scan of frames. -/
def exactFrames (f : Fin H → Fin W → Fin d.height → Fin d.width → ℚ) : Grid (Grid Exact) :=
  .ofFn H W fun i j => exactGrid (f i j)

theorem denseMap_build (kind : MaskKind) (hr : r.IsRadius)
    (f : Fin H → Fin W → Fin d.height → Fin d.width → ℚ) :
    denseMap (exactFrames d f)
        ((⟨kind, d, finite cx, finite cy, r⟩ : MaskSpec Exact).build Exact) =
      exactGrid fun i j => discSum cy cx r kind.weight (f i j) := by
  unfold denseMap exactFrames
  rw [Grid.map_ofFn]
  simp only [inner_build d cy cx kind hr]
  rfl

theorem held_of_isHeld (hrows : 0 < H) (hcols : 0 < W)
    (hframes : Word.isHeld [H, W, d.height, d.width] 4 = true) : d.held = .ok d := by
  have hscan : 1 ≤ H * W := Nat.mul_pos hrows hcols
  have hone : 1 ≤ max H 1 * max W 1 :=
    Nat.mul_pos (Nat.lt_of_lt_of_le hrows (Nat.le_max_left ..))
      (Nat.lt_of_lt_of_le hcols (Nat.le_max_left ..))
  have hmask : Word.isHeld [d.height, d.width] 4 = true := by
    simp only [Word.isHeld, List.foldr_cons, List.foldr_nil, Bool.and_eq_true,
      decide_eq_true_eq, ← Nat.mul_assoc] at hframes ⊢
    refine ⟨Nat.lt_of_le_of_lt ?_ hframes.1, Nat.lt_of_le_of_lt ?_ hframes.2⟩
    · calc max d.height 1 * max d.width 1 * 1
          = 1 * (max d.height 1 * max d.width 1 * 1) := (Nat.one_mul _).symm
        _ ≤ max H 1 * max W 1 * (max d.height 1 * max d.width 1 * 1) :=
          Nat.mul_le_mul_right _ hone
        _ = _ := by simp only [Nat.mul_assoc]
    · calc d.height * d.width * 4 = 1 * (d.height * d.width * 4) := (Nat.one_mul _).symm
        _ ≤ H * W * (d.height * d.width * 4) := Nat.mul_le_mul_right _ hscan
        _ = _ := by simp only [Nat.mul_assoc]
  exact if_pos hmask

theorem isHeld_map (hrows : 0 < H) (hcols : 0 < W) (hmaps : 8 * (H * W) < Word.memoryLimit) :
    Word.isHeld [H, W] 8 = true := by
  have hbytes : H * (W * 8) = 8 * (H * W) := by rw [← Nat.mul_assoc, Nat.mul_comm]
  simp only [Word.isHeld, List.foldr_cons, List.foldr_nil, Bool.and_eq_true, decide_eq_true_eq,
    Nat.max_eq_left hrows, Nat.max_eq_left hcols, Nat.mul_one, hbytes]
  exact ⟨by omega, hmaps⟩

/-- The maps of the three masks over a scan of frames. -/
def momentMaps (r : Exact) (f : Fin H → Fin W → Fin d.height → Fin d.width → ℚ) :
    MapTriple Exact :=
  ⟨exactGrid fun i j => discSum cy cx r MaskKind.sum.weight (f i j),
    exactGrid fun i j => discSum cy cx r MaskKind.gradientY.weight (f i j),
    exactGrid fun i j => discSum cy cx r MaskKind.gradientX.weight (f i j),
    shape_exactGrid _ _, shape_exactGrid _ _⟩

theorem denseReducer_eq_ok (hr : r.IsRadius)
    (hrows : 0 < H) (hcols : 0 < W)
    (hframes : Word.isHeld [H, W, d.height, d.width] 4 = true)
    (hmaps : 8 * (H * W) < Word.memoryLimit)
    (f : Fin H → Fin W → Fin d.height → Fin d.width → ℚ) (p : Parameters Exact) :
    denseReducer (exactFrames d f) (.ofDisc d (finite cx) (finite cy) r) p =
      .ok (.real (momentMaps d cy cx r f)) := by
  have hgrids := MapTriple.ofGrids_ok .maps (momentMaps d cy cx r f)
  have hheld : (Word.isHeld [H, W, d.height, d.width] 4 && Word.isHeld [H, W] 8) = true := by
    rw [hframes, isHeld_map hrows hcols hmaps, Bool.and_self]
  unfold denseReducer Masks.ofDisc
  simp only [held_of_isHeld d hrows hcols hframes, denseMap_build d cy cx _ hr]
  rw [ok_bind]
  exact (if_pos hheld).trans (congrArg (Except.map ReductionMaps.real) hgrids)

end Masks

end CenterOfMass
