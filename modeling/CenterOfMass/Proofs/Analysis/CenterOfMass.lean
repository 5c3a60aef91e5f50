import CenterOfMass.Proofs.Analysis.Basic
import CenterOfMass.Proofs.Maps.Dense
import CenterOfMass.Proofs.Scan.Parameters

namespace CenterOfMass

open Exact

theorem shiftFrom_finite (reference weighted total : ℚ) :
    shiftFrom (finite reference) (finite weighted) (finite total) =
      finite (if total = 0 then 0 else weighted / total - reference) := by
  unfold shiftFrom
  rw [natCast_eq, Nat.cast_zero, finite_bne_finite]
  by_cases htotal : total = 0
  · simp [htotal]
  · simp [htotal, finite_div]

/-- How far the center of mass of some pixels lies from a reference along a coordinate. There is no
shift where there is no mass. -/
def massShift {h w : ℕ} (pixels : Finset (Fin h × Fin w)) (coordinate : Fin h × Fin w → ℚ)
    (reference : ℚ) (f : Fin h → Fin w → ℚ) : ℚ :=
  let total := ∑ p ∈ pixels, f p.1 p.2
  if total = 0 then 0
  else (∑ p ∈ pixels, coordinate p * f p.1 p.2) / total - reference

section Shifts

variable {H W : ℕ} (d : Detector) (cy cx : ℚ) (r : Exact)
  (f : Fin H → Fin W → Fin d.height → Fin d.width → ℚ)

theorem zipWith_shiftFrom (kind : MaskKind) (reference : ℚ) :
    Grid.zipWith (shiftFrom (finite reference))
        (exactGrid fun i j => discSum cy cx r kind.weight (f i j))
        (exactGrid fun i j => discSum cy cx r MaskKind.sum.weight (f i j)) (shape_exactGrid _ _) =
      exactGrid fun i j =>
        massShift (disc d.height d.width cy cx r) kind.weight reference (f i j) := by
  refine (Grid.zipWith_ofFn ..).trans ?_
  unfold exactGrid massShift discSum
  congr 1
  funext i j
  rw [shiftFrom_finite]
  simp only [MaskKind.weight, one_mul]

theorem y_shifts_momentMaps : ((momentMaps d cy cx r f).shifts (finite cy) (finite cx)).y =
    exactGrid fun i j =>
      massShift (disc d.height d.width cy cx r) (fun p => p.1) cy (f i j) :=
  zipWith_shiftFrom d cy cx r f .gradientY cy

theorem x_shifts_momentMaps : ((momentMaps d cy cx r f).shifts (finite cy) (finite cx)).x =
    exactGrid fun i j =>
      massShift (disc d.height d.width cy cx r) (fun p => p.2) cx (f i j) :=
  zipWith_shiftFrom d cy cx r f .gradientX cx

end Shifts

section Run

variable [Elementary Exact] [Quantized Exact]

/-- A run over frames gives the shifts of the moments that the frames have in the disc. The center
that masks are made with is the one that shifts are taken from. -/
theorem run_eq_shifts {shape : DatasetShape} {user : UserParameters Exact} {a : Analysis Exact}
    (ha : Analysis.ofDataset shape user = .ok a) (settings : Settings Exact)
    (hrows : 2 ≤ a.scan.height) (hcols : 2 ≤ a.scan.width)
    (hframes : Word.isHeld [a.scan.height, a.scan.width, a.detector.height, a.detector.width] 4)
    (hmaps : 8 * (a.scan.height * a.scan.width) < Word.memoryLimit)
    (intensity : Fin a.scan.height → Fin a.scan.width →
      Fin a.detector.height → Fin a.detector.width → ℚ) :
    ∃ cy cx, a.parameters.cy = finite cy ∧ a.parameters.cx = finite cx ∧
      a.parameters.r.IsRadius ∧
      let v := (momentMaps a.detector cy cx a.parameters.r intensity).shifts (finite cy) (finite cx)
      ∃ divergence curl results, (a.withSettings settings).run
        (denseReducer (exactFrames a.detector intensity)) =
          .ok (.real ⟨v.x, v.y, v.magnitude, divergence, curl⟩, results) := by
  obtain ⟨hshape, hdetector, -, hparameters, -⟩ := Analysis.ofDataset_eq_ok_iff.mp ha
  obtain ⟨-, haccepted⟩ := UserParameters.resolve_eq_ok_iff.mp hparameters
  obtain ⟨cy, hcy⟩ := exists_eq_finite haccepted.finite_cy
  obtain ⟨cx, hcx⟩ := exists_eq_finite haccepted.finite_cx
  have hr := isRadius_of_not_lt haccepted.number_r haccepted.sign_r
  have hmasks : (a.withSettings settings).masks =
      .ok (.ofDisc a.detector (finite cx) (finite cy) a.parameters.r) := by
    rw [← hcx, ← hcy]
    rw [← hshape] at hdetector
    exact Masks.ofSignal_eq_ok hdetector _ _ _
  have hreduced := denseReducer_eq_ok a.detector cy cx hr (by omega) (by omega) hframes hmaps
    intensity a.parameters
  have himages : 4 * (a.scan.height * a.scan.width) < Word.memoryLimit := by omega
  refine ⟨cy, cx, hcy, hcx, hr, ?_⟩
  rw [← hcy, ← hcx]
  exact Analysis.run_eq_ok hmasks hreduced rfl hrows hcols himages

/-- In arithmetic without rounding, a run over frames gives at every position of the scan how far
the center of mass of the frame's pixels in the disc lies from the disc's center. -/
theorem run_denseReducer {shape : DatasetShape} {user : UserParameters Exact}
    {a : Analysis Exact} (ha : Analysis.ofDataset shape user = .ok a) (settings : Settings Exact)
    (hrows : 2 ≤ a.scan.height) (hcols : 2 ≤ a.scan.width)
    (hframes : Word.isHeld [a.scan.height, a.scan.width, a.detector.height, a.detector.width] 4)
    (hmaps : 8 * (a.scan.height * a.scan.width) < Word.memoryLimit)
    (intensity : Fin a.scan.height → Fin a.scan.width →
      Fin a.detector.height → Fin a.detector.width → ℚ) :
    ∃ cy cx, a.parameters.cy = finite cy ∧ a.parameters.cx = finite cx ∧
      ∃ field results, (a.withSettings settings).run
          (denseReducer (exactFrames a.detector intensity)) = .ok (.real field, results) ∧
        let pixels := disc a.detector.height a.detector.width cy cx a.parameters.r
        field.y = (exactGrid fun i j => massShift pixels (fun p => p.1) cy (intensity i j)) ∧
        field.x = (exactGrid fun i j => massShift pixels (fun p => p.2) cx (intensity i j)) := by
  obtain ⟨cy, cx, hcy, hcx, -, divergence, curl, results, hrun⟩ :=
    run_eq_shifts ha settings hrows hcols hframes hmaps intensity
  exact ⟨cy, cx, hcy, hcx, _, results, hrun, y_shifts_momentMaps .., x_shifts_momentMaps ..⟩

end Run

section Corner

attribute [local instance] elementaryOfDoubles quantizedOfDoubles

/-- A disc of radius one about the corner pixel of a square of four, which holds the other two
pixels beside the corner. -/
def cornerAnalysis : Analysis Exact :=
  ⟨⟨[2, 2], [2, 2]⟩, ⟨2, 2⟩, ⟨2, 2⟩, ⟨finite 0, finite 0, finite 1, false, 3, .float32⟩, .standard⟩

theorem run_denseReducer_corner :
    Analysis.ofDataset ⟨[2, 2], [2, 2]⟩
        { cx := some (finite 0 : Exact), cy := some (finite 0), r := some (finite 1) } =
      .ok cornerAnalysis ∧
    ∃ field results, (cornerAnalysis.withSettings .standard).run
        (denseReducer (exactFrames (H := 2) (W := 2) ⟨2, 2⟩ fun _ _ _ _ => 1)) =
          .ok (.real field, results) ∧
      field.y = (exactGrid fun (_ : Fin 2) (_ : Fin 2) => 1 / 3) ∧
      field.x = (exactGrid fun (_ : Fin 2) (_ : Fin 2) => 1 / 3) := by
  have ha : Analysis.ofDataset ⟨[2, 2], [2, 2]⟩
      { cx := some (finite 0 : Exact), cy := some (finite 0), r := some (finite 1) } =
      .ok cornerAnalysis := by
    have hsign : ¬ (finite 1 : Exact) < Nat.cast 0 := by decide +kernel
    exact Analysis.ofDataset_eq_ok_iff.mpr ⟨rfl, rfl, rfl,
      UserParameters.resolve_eq_ok_iff.mpr ⟨rfl, rfl, rfl, rfl, hsign⟩, rfl⟩
  obtain ⟨cy, cx, hcy, hcx, field, results, hrun, hy, hx⟩ :=
    run_denseReducer ha .standard (by decide) (by decide) (by decide) (by decide)
      (fun _ _ _ _ => 1)
  obtain rfl : 0 = cy := Exact.finite.inj hcy
  obtain rfl : 0 = cx := Exact.finite.inj hcx
  have hdown : massShift (disc 2 2 0 0 (finite 1)) (fun p => p.1) 0 (fun _ _ => 1) = 1 / 3 := by
    decide +kernel
  have hright : massShift (disc 2 2 0 0 (finite 1)) (fun p => p.2) 0 (fun _ _ => 1) = 1 / 3 := by
    decide +kernel
  let constant (c : ℚ) : Grid Exact := exactGrid fun (_ : Fin 2) (_ : Fin 2) => c
  exact ⟨ha, field, results, hrun, hy.trans (congrArg constant hdown),
    hx.trans (congrArg constant hright)⟩

end Corner

end CenterOfMass
