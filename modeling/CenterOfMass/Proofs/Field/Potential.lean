import CenterOfMass.Proofs.Field.Stencil
import Mathlib.Algebra.Field.Rat

namespace CenterOfMass

variable {K : Type} [DivisionRing K]

theorem curl_gradient_ofFn {m n : Nat} (f : Fin m → Fin n → K) (hm : 2 ≤ m) (hn : 2 ≤ n) :
    let φ : Grid K := .ofFn m n f
    ∃ down along, φ.gradient .rows .first = .ok down ∧ φ.gradient .cols .first = .ok along ∧
      (VectorMap.ofGrids down along >>= VectorMap.curl) = .ok (φ.map fun _ => 0) ∧
      (VectorMap.ofGrids along (down.map fun d => -d) >>= VectorMap.divergence) =
        .ok (φ.map fun _ => 0) := by
  intro φ
  let down : Fin m → Fin n → K := fun i j => slope .first (fun k => f k j) hm i
  let along : Fin m → Fin n → K := fun i j => slope .first (fun k => f i k) hn j
  have hcomm (i : Fin m) (j : Fin n) :
      slope .first (fun k => along k j) hm i = slope .first (fun k => down i k) hn j :=
    slope_comm f hm hn i j
  have hzero : φ.map (fun _ => 0) = .ofFn m n fun _ _ => (0 : K) := Grid.map_ofFn _ _ _ f
  have hdown : φ.gradient .rows .first = .ok (.ofFn m n down) :=
    Grid.gradient_rows_ofFn f .first hm
  have halong : φ.gradient .cols .first = .ok (.ofFn m n along) :=
    Grid.gradient_cols_ofFn f .first hn
  refine ⟨_, _, hdown, halong, ?_, ?_⟩
  · have hfield : VectorMap.ofGrids (.ofFn m n down) (.ofFn m n along) =
        .ok ⟨.ofFn m n down, .ofFn m n along, rfl⟩ := dif_pos rfl
    rw [hfield, ok_bind, VectorMap.curl_ofFn down along hm hn, hzero]
    simp only [hcomm, sub_self]
  · have hturned : (Grid.ofFn m n down).map (fun d => -d) = .ofFn m n fun i j => -down i j :=
      Grid.map_ofFn _ _ _ down
    have hneg (i : Fin m) (j : Fin n) : slope .first (fun k => -down i k) hn j =
        -slope .first (fun k => down i k) hn j := slope_neg _ hn j
    have hfield : VectorMap.ofGrids (.ofFn m n along) (.ofFn m n fun i j => -down i j) =
        .ok ⟨.ofFn m n along, .ofFn m n fun i j => -down i j, rfl⟩ := dif_pos rfl
    rw [hturned, hfield, ok_bind, VectorMap.divergence_ofFn _ _ hm hn, hzero]
    simp only [hcomm, hneg, add_neg_cancel]

/-- The slopes of a potential have no curl, and turned by a right angle they have no divergence.
Both hold at the edges too, over every field and even where products do not commute. -/
theorem curl_gradient_eq_zero (φ : Grid K) (hrows : 2 ≤ φ.rows) (hcols : 2 ≤ φ.cols) :
    ∃ down along, φ.gradient .rows .first = .ok down ∧ φ.gradient .cols .first = .ok along ∧
      (VectorMap.ofGrids down along >>= VectorMap.curl) = .ok (φ.map fun _ => 0) ∧
      (VectorMap.ofGrids along (down.map fun d => -d) >>= VectorMap.divergence) =
        .ok (φ.map fun _ => 0) := by
  have h := curl_gradient_ofFn φ.get hrows hcols
  rwa [φ.ofFn_get] at h

/-- A potential of two rows, with no place that is inside. -/
def narrowPotential : Grid ℚ := .ofFn 2 3 fun i j => (i.val + 2) * (j.val + 1) ^ 2

theorem curl_gradient_eq_zero_narrow :
    2 ≤ narrowPotential.rows ∧ 2 ≤ narrowPotential.cols ∧
    ∃ down along, narrowPotential.gradient .rows .first = .ok down ∧
      narrowPotential.gradient .cols .first = .ok along ∧
      (VectorMap.ofGrids down along >>= VectorMap.curl) = .ok (narrowPotential.map fun _ => 0) ∧
      (VectorMap.ofGrids along (down.map fun d => -d) >>= VectorMap.divergence) =
        .ok (narrowPotential.map fun _ => 0) := by
  have hrows : 2 ≤ narrowPotential.rows := by decide
  have hcols : 2 ≤ narrowPotential.cols := by decide
  exact ⟨hrows, hcols, curl_gradient_eq_zero narrowPotential hrows hcols⟩

end CenterOfMass
