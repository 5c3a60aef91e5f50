import CenterOfMass.Proofs.Analysis.CenterOfMass
import CenterOfMass.Proofs.Grid
import CenterOfMass.Proofs.Numeric.Mean

namespace CenterOfMass

open Exact

section Pixels

variable {h w : ℕ} {f : Fin h → Fin w → ℚ} {pixels : Finset (Fin h × Fin w)}

theorem massShift_eq_sub (hmass : ∑ p ∈ pixels, f p.1 p.2 ≠ 0)
    (coordinate : Fin h × Fin w → ℚ) (reference : ℚ) :
    massShift pixels coordinate reference f =
      weightedMean pixels (fun p => f p.1 p.2) coordinate - reference := if_neg hmass

theorem massShift_eq_zero (hmass : ∑ p ∈ pixels, f p.1 p.2 = 0)
    (coordinate : Fin h × Fin w → ℚ) (reference : ℚ) :
    massShift pixels coordinate reference f = 0 := if_pos hmass

variable (hf : ∀ i j, 0 ≤ f i j)

include hf

/-- The center of mass of a disc's pixels does not lie outside the disc. -/
theorem massShift_mem_disc (cy cx r : ℚ) :
    massShift (disc h w cy cx (finite r)) (fun p => p.1) cy f ^ 2 +
      massShift (disc h w cy cx (finite r)) (fun p => p.2) cx f ^ 2 ≤ r ^ 2 := by
  by_cases hmass : ∑ p ∈ disc h w cy cx (finite r), f p.1 p.2 = 0
  · rw [massShift_eq_zero hmass, massShift_eq_zero hmass]
    simpa using sq_nonneg r
  · rw [massShift_eq_sub hmass, massShift_eq_sub hmass]
    apply weightedMean_mem_disc (fun p _ => hf p.1 p.2) hmass
    intro p hp
    exact (Finset.mem_filter.mp hp).2

/-- A center of mass lies between the least and the greatest place of a pixel. -/
theorem massShift_add_mem {coordinate : Fin h × Fin w → ℚ} {high : ℚ}
    (hcoordinate : ∀ p, 0 ≤ coordinate p ∧ coordinate p ≤ high)
    (hmass : ∑ p ∈ pixels, f p.1 p.2 ≠ 0) (reference : ℚ) :
    0 ≤ massShift pixels coordinate reference f + reference ∧
      massShift pixels coordinate reference f + reference ≤ high := by
  rw [massShift_eq_sub hmass, sub_add_cancel]
  constructor
  · exact le_weightedMean (fun p _ => hf p.1 p.2) hmass fun p _ => (hcoordinate p).1
  · exact weightedMean_le (fun p _ => hf p.1 p.2) hmass fun p _ => (hcoordinate p).2

end Pixels

theorem place_mem {n : ℕ} (i : Fin n) : 0 ≤ (i : ℚ) ∧ (i : ℚ) ≤ n - 1 := by
  have hi : (i : ℚ) + 1 ≤ n := by exact_mod_cast i.isLt
  exact ⟨Nat.cast_nonneg _, le_sub_iff_add_le.mpr hi⟩

section Run

variable [Elementary Exact]

/-- A root is not above a number whose square is large enough. -/
def RootBelow : Prop :=
  ∀ s t : ℚ, 0 ≤ s → 0 ≤ t → s ≤ t ^ 2 → (Elementary.sqrt (finite s) : Exact) ≤ finite t

theorem RootBelow.length_le (hroot : RootBelow) {y x r : ℚ} (hr : 0 ≤ r)
    (hmem : y ^ 2 + x ^ 2 ≤ r ^ 2) :
    (Elementary.sqrt (finite (y ^ 2 + x ^ 2)) : Exact) ≤ finite r :=
  hroot _ r (add_nonneg (sq_nonneg y) (sq_nonneg x)) hr hmem

theorem get?_magnitude {v : VectorMap Exact} {H W : ℕ} {y x : Fin H → Fin W → ℚ}
    (hy : v.y = exactGrid y) (hx : v.x = exactGrid x) (i : Fin H) (j : Fin W) :
    v.magnitude.get? i j = some (Elementary.sqrt (finite (y i j ^ 2 + x i j ^ 2))) := by
  have hyCell : v.y.get? i j = some (finite (y i j)) := by
    rw [hy]
    exact Grid.get?_ofFn _ i j
  have hxCell : v.x.get? i j = some (finite (x i j)) := by
    rw [hx]
    exact Grid.get?_ofFn _ i j
  refine (Grid.get?_zipWith _ v.shape_eq hyCell hxCell).trans ?_
  rw [finite_mul, finite_mul, finite_add, ← sq, ← sq]

variable [Quantized Exact]

/-- In arithmetic without rounding, frames without negative intensities give shifts that lead no
further than the disc's radius, and centers of mass on the detector. -/
theorem run_denseReducer_mem_disc {shape : DatasetShape} {user : UserParameters Exact}
    {a : Analysis Exact} (ha : Analysis.ofDataset shape user = .ok a) (settings : Settings Exact)
    (hrows : 2 ≤ a.scan.height) (hcols : 2 ≤ a.scan.width)
    (hframes : Word.isHeld [a.scan.height, a.scan.width, a.detector.height, a.detector.width] 4)
    (hmaps : 8 * (a.scan.height * a.scan.width) < Word.memoryLimit)
    (intensity : Fin a.scan.height → Fin a.scan.width →
      Fin a.detector.height → Fin a.detector.width → ℚ)
    (hintensity : ∀ i j p q, 0 ≤ intensity i j p q) :
    ∃ cy cx, a.parameters.cy = finite cy ∧ a.parameters.cx = finite cx ∧
      ∃ field results, (a.withSettings settings).run
          (denseReducer (exactFrames a.detector intensity)) = .ok (.real field, results) ∧
        ∃ y x, field.y = exactGrid y ∧ field.x = exactGrid x ∧
          ∀ (i : Fin a.scan.height) (j : Fin a.scan.width),
            (∀ r, a.parameters.r = finite r → y i j ^ 2 + x i j ^ 2 ≤ r ^ 2 ∧
              ∃ length, field.magnitude.get? i j = some length ∧
                (RootBelow → length ≤ finite r)) ∧
            (∑ p ∈ disc a.detector.height a.detector.width cy cx a.parameters.r,
                intensity i j p.1 p.2 ≠ 0 →
              (0 ≤ y i j + cy ∧ y i j + cy ≤ a.detector.height - 1) ∧
                0 ≤ x i j + cx ∧ x i j + cx ≤ a.detector.width - 1) := by
  obtain ⟨cy, cx, hcy, hcx, hr, divergence, curl, results, hrun⟩ :=
    run_eq_shifts ha settings hrows hcols hframes hmaps intensity
  have hy := y_shifts_momentMaps a.detector cy cx a.parameters.r intensity
  have hx := x_shifts_momentMaps a.detector cy cx a.parameters.r intensity
  refine ⟨cy, cx, hcy, hcx, _, results, hrun, _, _, hy, hx, fun i j => ⟨?_, ?_⟩⟩
  · intro r hradius
    have hmem := massShift_mem_disc (hintensity i j) cy cx r
    rw [← hradius] at hmem
    refine ⟨hmem, _, get?_magnitude hy hx i j, fun hroot => hroot.length_le ?_ hmem⟩
    obtain hunlimited | ⟨r', hr', hfinite⟩ := hr
    · rw [hradius] at hunlimited
      cases hunlimited
    · rw [hradius] at hfinite
      obtain rfl := Exact.finite.inj hfinite
      exact hr'
  · intro hmass
    exact ⟨massShift_add_mem (hintensity i j) (fun p => place_mem p.1) hmass cy,
      massShift_add_mem (hintensity i j) (fun p => place_mem p.2) hmass cx⟩

end Run

section Rim

/-- The root of a number, rounded down to a multiple of one over its denominator. -/
def rootBelow : Exact → Exact
  | finite s => if s < 0 then undefined else finite (Nat.sqrt (s.num.toNat * s.den) / s.den)
  | infinite false => infinite false
  | _ => undefined

@[reducible] def elementaryOfRoot : Elementary Exact :=
  { elementaryOfDoubles with sqrt := rootBelow }

attribute [local instance] elementaryOfRoot quantizedOfDoubles

theorem rootBelow_spec : RootBelow := by
  intro s t hs ht hle
  have hden : (0 : ℚ) < s.den := by exact_mod_cast s.den_pos
  have hnum : (s.num.toNat : ℚ) = s * s.den := by
    have hnonneg : ((s.num.toNat : ℤ) : ℚ) = s.num := by
      rw [Int.toNat_of_nonneg (Rat.num_nonneg.mpr hs)]
    rw [Rat.mul_den_eq_num, ← hnonneg, Int.cast_natCast]
  have hsquare : (Nat.sqrt (s.num.toNat * s.den) : ℚ) ^ 2 ≤ s.num.toNat * s.den := by
    exact_mod_cast Nat.sqrt_le' _
  have hroot : (Nat.sqrt (s.num.toNat * s.den) / s.den : ℚ) ≤ t := by
    rw [div_le_iff₀ hden]
    refine (sq_le_sq₀ (Nat.cast_nonneg _) (mul_nonneg ht hden.le)).mp (hsquare.trans ?_)
    rw [hnum, mul_assoc, ← sq, mul_pow]
    exact mul_le_mul_of_nonneg_right hle (sq_nonneg _)
  change rootBelow (finite s) ≤ finite t
  rw [rootBelow, if_neg (not_lt.mpr hs)]
  exact (finite_le_finite _ _).mpr hroot

/-- All the light of every frame falls on the rim of the disc. -/
theorem run_denseReducer_mem_disc_rim :
    Analysis.ofDataset ⟨[2, 2], [2, 2]⟩
        { cx := some (finite 0 : Exact), cy := some (finite 0), r := some (finite 1) } =
      .ok cornerAnalysis ∧
    (∀ (_ _ : Fin 2) (p _ : Fin 2), (0 : ℚ) ≤ p) ∧
    ∃ field results, (cornerAnalysis.withSettings .standard).run
        (denseReducer (exactFrames (H := 2) (W := 2) ⟨2, 2⟩ fun _ _ p _ => p)) =
          .ok (.real field, results) ∧
      ∃ y x : Fin 2 → Fin 2 → ℚ, field.y = exactGrid y ∧ field.x = exactGrid x ∧ ∀ i j : Fin 2,
        y i j ^ 2 + x i j ^ 2 ≤ 1 ∧
        (∃ length, field.magnitude.get? i j = some length ∧ length ≤ finite 1) ∧
        (0 ≤ y i j ∧ y i j ≤ 1) ∧ 0 ≤ x i j ∧ x i j ≤ 1 := by
  have ha : Analysis.ofDataset ⟨[2, 2], [2, 2]⟩
      { cx := some (finite 0 : Exact), cy := some (finite 0), r := some (finite 1) } =
      .ok cornerAnalysis := by
    have hsign : ¬ (finite 1 : Exact) < Nat.cast 0 := by decide +kernel
    exact Analysis.ofDataset_eq_ok_iff.mpr ⟨rfl, rfl, rfl,
      UserParameters.resolve_eq_ok_iff.mpr ⟨rfl, rfl, rfl, rfl, hsign⟩, rfl⟩
  have hlight : ∀ (_ _ : Fin 2) (p _ : Fin 2), (0 : ℚ) ≤ p := fun _ _ p _ => (place_mem p).1
  have hmass : ∑ p ∈ disc 2 2 0 0 (finite 1), ((p.1 : ℕ) : ℚ) ≠ 0 := by decide +kernel
  obtain ⟨cy, cx, hcy, hcx, field, results, hrun, y, x, hy, hx, hall⟩ :=
    run_denseReducer_mem_disc ha .standard (by decide) (by decide) (by decide) (by decide)
      (fun _ _ p _ => p) hlight
  obtain rfl : 0 = cy := Exact.finite.inj hcy
  obtain rfl : 0 = cx := Exact.finite.inj hcx
  refine ⟨ha, hlight, field, results, hrun, y, x, hy, hx, fun i j => ?_⟩
  obtain ⟨hdisc, hdetector⟩ := hall i j
  obtain ⟨hsquares, length, hplace, hlength⟩ := hdisc 1 rfl
  have hside : ((2 : ℕ) : ℚ) - 1 = 1 := by decide +kernel
  have hcenter : (0 ≤ y i j + 0 ∧ y i j + 0 ≤ (2 : ℕ) - 1) ∧
      0 ≤ x i j + 0 ∧ x i j + 0 ≤ (2 : ℕ) - 1 := hdetector hmass
  rw [add_zero, add_zero, hside] at hcenter
  exact ⟨by simpa using hsquares, ⟨length, hplace, hlength rootBelow_spec⟩, hcenter⟩

end Rim

end CenterOfMass
