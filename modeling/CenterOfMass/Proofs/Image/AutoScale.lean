import CenterOfMass.Proofs.Image.Range
import CenterOfMass.Proofs.Image.Sizes
import CenterOfMass.Proofs.Image.Vectors
import CenterOfMass.Proofs.Numeric.Real

namespace CenterOfMass

variable {K : Type}

namespace Exact

variable [DivisionRing K] [LinearOrder K] {k : K} (hk : 0 < k) (a b : Exact K)

include hk

theorem finite_mul_infinite_of_pos (s : Bool) : finite k * infinite s = infinite s := by
  rw [finite_mul_infinite hk.ne', decide_eq_false hk.not_gt, Bool.false_xor]

theorem isFinite_finite_mul : Extended.isFinite (finite k * a) = Extended.isFinite a := by
  cases a with
  | finite x => rfl
  | infinite s => rw [finite_mul_infinite_of_pos hk]
  | undefined => rfl

variable [IsStrictOrderedRing K]

theorem finite_mul_lt_finite_mul : finite k * a < finite k * b ↔ a < b := by
  cases a with
  | finite x =>
    cases b with
    | finite y =>
      rw [finite_mul, finite_mul, finite_lt_finite, finite_lt_finite]
      exact mul_lt_mul_iff_right₀ hk
    | infinite t =>
      rw [finite_mul_infinite_of_pos hk]
      rfl
    | undefined => rfl
  | infinite s =>
    rw [finite_mul_infinite_of_pos hk]
    cases b with
    | finite y => rfl
    | infinite t => rw [finite_mul_infinite_of_pos hk]
    | undefined => rfl
  | undefined => rfl

end Exact

/-- What is assumed of the lengths and the angles of vectors: no length is below zero, and a vector
that is drawn out has the same angle and a length drawn out as far. -/
structure ScalesVectors (K : Type) [DivisionRing K] [LinearOrder K] [Elementary (Exact K)] :
    Prop where
  zero_le_hypot {y x : Exact K} : Extended.isFinite (Elementary.hypot y x) = true →
    Exact.finite 0 ≤ Elementary.hypot y x
  hypot_mul {k : K} (hk : 0 < k) (y x : Exact K) :
    Elementary.hypot (.finite k * y) (.finite k * x) = .finite k * Elementary.hypot y x
  atan2_mul {k : K} (hk : 0 < k) (y x : Exact K) :
    Elementary.atan2 (.finite k * y) (.finite k * x) = Elementary.atan2 y x

/-- Two parts that stand at one place of a field. -/
def HasVector (y x : Array (Exact K)) (vy vx : Exact K) : Prop :=
  ∃ i : ℕ, y[i]? = some vy ∧ x[i]? = some vx

theorem mem_zipWith_iff {y x : Array (Exact K)} {f : Exact K → Exact K → Exact K} {m : Exact K} :
    m ∈ List.zipWith f y.toList x.toList ↔ ∃ vy vx, HasVector y x vy vx ∧ f vy vx = m := by
  simp only [List.mem_iff_getElem?, List.getElem?_zipWith_eq_some, Array.getElem?_toList, HasVector]
  constructor
  · rintro ⟨i, vy, vx, hy, hx, hm⟩
    exact ⟨vy, vx, ⟨i, hy, hx⟩, hm⟩
  · rintro ⟨vy, vx, ⟨i, hy, hx⟩, hm⟩
    exact ⟨i, vy, vx, hy, hx, hm⟩

/-- One component of all vectors of a field, drawn out. -/
def drawnOut [DivisionRing K] [LinearOrder K] (k : K) (a : Array (Exact K)) : Array (Exact K) :=
  a.map (Exact.finite k * ·)

section Lengths

variable [DivisionRing K] [LinearOrder K] [IsStrictOrderedRing K] {k : K} (hk : 0 < k)

include hk

/-- The longest of vectors that are all drawn out is the longest one, drawn out. -/
theorem foldl_finite_mul (lengths : List (Exact K)) (top : Exact K) :
    (lengths.map (Exact.finite k * ·)).foldl (fun top m => if top < m then m else top)
        (.finite k * top) =
      .finite k * lengths.foldl (fun top m => if top < m then m else top) top := by
  induction lengths generalizing top with
  | nil => rfl
  | cons m lengths ih =>
    have hnext : (if Exact.finite k * top < .finite k * m then .finite k * m else .finite k * top) =
        .finite k * (if top < m then m else top) := by
      rw [apply_ite (Exact.finite k * ·)]
      simp only [Exact.finite_mul_lt_finite_mul hk]
    rw [List.map_cons, List.foldl_cons, List.foldl_cons, hnext, ih]

end Lengths

namespace Wheel

variable [DivisionRing K] [LinearOrder K] [ToString K] [Elementary (Exact K)] [Quantized (Exact K)]

/-- The length of the longest of the vectors that have one; zero if there is none. -/
structure IsLongest (y x : Array (Exact K)) (t : K) : Prop where
  longest_eq : longest y x = .finite t
  nonneg : 0 ≤ t
  attained : t = 0 ∨ ∃ vy vx, HasVector y x vy vx ∧ Elementary.hypot vy vx = .finite t
  le : ∀ vy vx m, HasVector y x vy vx → Elementary.hypot vy vx = .finite m → m ≤ t

theorem exists_isLongest (y x : Array (Exact K)) : ∃ t, IsLongest y x t := by
  have order := (Exact.ordersNumbers (K := K)).ordersFinite
  obtain ⟨hmem, hmax⟩ := isExtreme_longest order rfl y x
  obtain ⟨t, ht⟩ := Exact.exists_eq_finite (isFinite_longest order rfl y x)
  rw [ht, Exact.natCast_zero] at hmem hmax
  have hle (m : K) (h : ¬ Exact.finite t < .finite m) : m ≤ t :=
    not_lt.mp fun hlt => h ((Exact.finite_lt_finite t m).mpr hlt)
  refine ⟨t, ht, hle 0 (hmax _ (.inl rfl)), ?_, fun vy vx m hv hm => ?_⟩
  · rcases hmem with hzero | ⟨-, hlength⟩
    · exact .inl (Exact.finite.inj hzero)
    · exact .inr (mem_zipWith_iff.mp hlength)
  · exact hle m (hmax _ (.inr ⟨rfl, mem_zipWith_iff.mpr ⟨vy, vx, hv, hm⟩⟩))

variable [IsStrictOrderedRing K] (laws : ScalesVectors K)

section Saturation

variable {y x : Array (Exact K)} {t : K} (top : IsLongest y x t) {vy vx : Exact K}

include top

omit [IsStrictOrderedRing K] in
theorem shownSaturation_eq (ht : 0 < t) {m : K} (hm : Elementary.hypot vy vx = .finite m) :
    shownSaturation (longest y x) vy vx = .finite (m / t) := by
  have hmeasures : Measures (longest y x) vy vx := by
    rw [Measures, top.longest_eq, hm, Exact.natCast_zero, Exact.finite_le_finite, not_le]
    exact ⟨rfl, ht⟩
  rw [shownSaturation, if_pos hmeasures, top.longest_eq, hm, Exact.finite_div m ht.ne']

include laws in
theorem shownSaturation_mem_unit (hv : HasVector y x vy vx) :
    ∃ s : K, shownSaturation (longest y x) vy vx = .finite s ∧ 0 ≤ s ∧ s ≤ 1 := by
  by_cases hmeasures : Measures (longest y x) vy vx
  · obtain ⟨m, hm⟩ := Exact.exists_eq_finite hmeasures.1
    have ht := hmeasures.2
    rw [top.longest_eq, Exact.natCast_zero, Exact.finite_le_finite, not_le] at ht
    have hzero := laws.zero_le_hypot hmeasures.1
    rw [hm, Exact.finite_le_finite] at hzero
    exact ⟨m / t, shownSaturation_eq top ht hm, div_nonneg hzero ht.le,
      div_le_one_of_le₀ (top.le vy vx m hv hm) ht.le⟩
  · refine ⟨0, ?_, le_rfl, zero_le_one⟩
    rw [shownSaturation, if_neg hmeasures, Exact.natCast_zero]

end Saturation

section Scaling

variable {k : K} (hk : 0 < k)

include laws hk

theorem longest_drawnOut (y x : Array (Exact K)) :
    longest (drawnOut k y) (drawnOut k x) = .finite k * longest y x := by
  have hlengths : List.zipWith Elementary.hypot (drawnOut k y).toList (drawnOut k x).toList =
      (List.zipWith Elementary.hypot y.toList x.toList).map (Exact.finite k * ·) := by
    unfold drawnOut
    rw [Array.toList_map, Array.toList_map, List.zipWith_map, List.map_zipWith]
    simp only [laws.hypot_mul hk]
  have hfinite : Extended.isFinite ∘ (Exact.finite k * ·) = (Extended.isFinite : Exact K → Bool) :=
    funext fun a => Exact.isFinite_finite_mul hk a
  have hzero : (Nat.cast 0 : Exact K) = .finite k * Nat.cast 0 := by
    rw [Exact.natCast_zero, Exact.finite_mul, mul_zero]
  unfold longest
  rw [hlengths, List.filter_map, hfinite]
  conv_lhs => rw [hzero]
  exact foldl_finite_mul hk _ _

theorem measures_mul_iff (t : K) (y x : Exact K) :
    Measures (.finite k * .finite t) (.finite k * y) (.finite k * x) ↔
      Measures (.finite t) y x := by
  unfold Measures
  rw [laws.hypot_mul hk, Exact.isFinite_finite_mul hk, Exact.finite_mul, Exact.natCast_zero,
    Exact.finite_le_finite, Exact.finite_le_finite, ← not_lt, ← not_lt, mul_pos_iff_of_pos_left hk]

variable [IsMulCommutative K]

/-- A vector and the length that it is measured by may be drawn out together. -/
theorem vectorColor_mul (w : Wheel (Exact K)) (t : K) (y x : Exact K) :
    w.vectorColor (.finite k * .finite t) (.finite k * y) (.finite k * x) =
      w.vectorColor (.finite t) y x := by
  have hmeasures := measures_mul_iff laws hk t y x
  rw [vectorColor_eq, vectorColor_eq]
  unfold shownAngle shownSaturation
  simp only [hmeasures]
  split_ifs with h
  · -- angle and ratio are all that the color is made of
    have hratio : .finite k * Elementary.hypot y x / (.finite k * .finite t) =
        Elementary.hypot y x / .finite t := by
      obtain ⟨length, hlength⟩ := Exact.exists_eq_finite h.1
      have ht : t ≠ 0 := by
        rintro rfl
        apply h.2
        rw [Exact.natCast_zero, Exact.finite_le_finite]
      rw [hlength, Exact.finite_mul, Exact.finite_mul, Exact.finite_div _ (mul_ne_zero hk.ne' ht),
        Exact.finite_div _ ht, mul_comm' k length, mul_comm' k t,
        mul_div_mul_right length t hk.ne']
    rw [laws.atan2_mul hk, laws.hypot_mul hk, hratio]
  · rfl

/-- A field that is drawn out is shown as before. -/
theorem render_drawnOut (w : Wheel (Exact K)) (y x : Array (Exact K)) (width height : Nat)
    (sizes : Sizes) :
    w.render (drawnOut k y) (drawnOut k x) width height none sizes =
      w.render y x width height none sizes := by
  obtain ⟨t, longestVector⟩ := exists_isLongest y x
  have hsize (a : Array (Exact K)) : (drawnOut k a).size = a.size := Array.size_map
  have htop := longest_drawnOut laws hk y x
  unfold render
  dsimp only
  rw [hsize, hsize, Option.getD_none, Option.getD_none, htop, longestVector.longest_eq]
  unfold drawnOut
  rw [Array.toList_map, Array.toList_map, List.zipWith_map]
  simp only [vectorColor_mul laws hk]

end Scaling

/-- An image of a field of vectors that are measured by the longest of them. -/
structure AutoScaled (w : Wheel (Exact K)) (y x : Array (Exact K)) (width height : Nat)
    (image : Image) : Prop where
  shows : image.ShowsPairs width height y x fun vy vx =>
    w.color (shownAngle (longest y x) vy vx) (shownSaturation (longest y x) vy vx)
  saturation_mem_unit : ∀ vy vx, HasVector y x vy vx →
    ∃ s : K, shownSaturation (longest y x) vy vx = .finite s ∧ 0 ≤ s ∧ s ≤ 1
  longest_saturated :
    (∀ vy vx, HasVector y x vy vx → Extended.isFinite (Elementary.hypot vy vx) = true →
      Elementary.hypot vy vx = .finite 0) ∨
    ∃ vy vx, HasVector y x vy vx ∧ Extended.isFinite (Elementary.hypot vy vx) = true ∧
      (∀ uy ux, HasVector y x uy ux → Extended.isFinite (Elementary.hypot uy ux) = true →
        Elementary.hypot uy ux ≤ Elementary.hypot vy vx) ∧
      shownSaturation (longest y x) vy vx = .finite 1

include laws in
theorem autoScaled_of_showsPairs {w : Wheel (Exact K)} {y x : Array (Exact K)} {width height : Nat}
    {image : Image} (hshows : image.ShowsPairs width height y x (w.vectorColor (longest y x))) :
    w.AutoScaled y x width height image := by
  obtain ⟨t, top⟩ := exists_isLongest y x
  have hcolor : w.vectorColor (longest y x) = fun vy vx =>
      w.color (shownAngle (longest y x) vy vx) (shownSaturation (longest y x) vy vx) :=
    funext₂ fun vy vx => w.vectorColor_eq _ vy vx
  refine ⟨hcolor ▸ hshows, fun vy vx hv => shownSaturation_mem_unit laws top hv, ?_⟩
  rcases top.nonneg.eq_or_lt with rfl | ht
  · -- no length lies above the longest and none below zero
    refine .inl fun vy vx hv hfinite => ?_
    obtain ⟨m, hm⟩ := Exact.exists_eq_finite hfinite
    have hzero := laws.zero_le_hypot hfinite
    rw [hm, Exact.finite_le_finite] at hzero
    rw [hm, le_antisymm (top.le vy vx m hv hm) hzero]
  · -- a longest length above zero is that of a vector, which is its own measure
    obtain hzero | ⟨vy, vx, hv, hlength⟩ := top.attained
    · exact absurd hzero ht.ne'
    refine .inr ⟨vy, vx, hv, by rw [hlength]; rfl, fun uy ux hu hfinite => ?_, ?_⟩
    · obtain ⟨m, hm⟩ := Exact.exists_eq_finite hfinite
      rw [hm, hlength, Exact.finite_le_finite]
      exact top.le uy ux m hu hm
    · rw [shownSaturation_eq top ht hlength, div_self ht.ne']

end Wheel

/-- In the arithmetic of an ordered field, such as that of the real numbers, a field of vectors is
drawn if each of its parts has a value for every place, and refused otherwise, where the product of
the sides is held as it is: by sizes without a limit, and by words if one can hold it. The longest
vector of finite length is fully saturated and the others in proportion, so that the field may be
drawn out. -/
theorem render_autoScaled [DivisionRing K] [IsMulCommutative K] [LinearOrder K]
    [IsStrictOrderedRing K] [ToString K] [Elementary (Exact K)] [Quantized (Exact K)]
    (laws : ScalesVectors K) (w : Wheel (Exact K)) (y x : Array (Exact K)) (width height : Nat) :
    (∀ sizes : Sizes, sizes = .unlimited ∨ width * height < Word.limit →
      Checks (y.size = width * height ∧ x.size = width * height)
        (.components y.size x.size width height) (w.render y x width height none sizes)) ∧
    (y.size = width * height → x.size = width * height → 8 * y.size < Word.memoryLimit →
      ∃ image, (∀ sizes, w.render y x width height none sizes = .ok image) ∧
        w.AutoScaled y x width height image) ∧
    ∀ k : K, 0 < k → ∀ sizes, w.render (drawnOut k y) (drawnOut k x) width height none sizes =
      w.render y x width height none sizes := by
  refine ⟨fun sizes hsides => w.checks_render_of_mul (Sizes.mul_eq_ok_of_or hsides) y x none,
    fun hy hx hmemory => ?_,
    fun k hk sizes => Wheel.render_drawnOut laws hk w y x width height sizes⟩
  obtain ⟨image, hrender, hshows⟩ := w.exists_render hy hx hmemory none
  exact ⟨image, hrender, Wheel.autoScaled_of_showsPairs laws hshows⟩

section Plane

namespace Exact

variable {k : ℝ} (hk : 0 < k) (y x : Exact ℝ)

include hk

theorem distance_mul : distance (finite k * y) (finite k * x) = finite k * distance y x := by
  rcases y with y | s | _ <;> rcases x with x | t | _
  case finite.finite => exact congrArg finite (real_hypot_mul y x hk)
  all_goals simp only [finite_mul, finite_mul_infinite_of_pos hk, mul_undefined, distance]

theorem angle_mul : angle (finite k * y) (finite k * x) = angle y x := by
  rcases y with y | s | _ <;> rcases x with x | t | _
  case finite.finite => exact congrArg finite (real_atan2_mul y x hk)
  all_goals simp only [finite_mul, finite_mul_infinite_of_pos hk, mul_undefined, angle, side]

end Exact

open Exact

attribute [local instance] elementaryOfReals quantizedOfReals textOfReals

theorem scalesVectors_plane : ScalesVectors ℝ where
  zero_le_hypot {y x} hfinite := by
    rcases y with y | s | _ <;> rcases x with x | t | _
    case finite.finite => exact (finite_le_finite 0 _).mpr (Real.sqrt_nonneg _)
    all_goals cases hfinite
  hypot_mul hk := distance_mul hk
  atan2_mul hk := angle_mul hk

/-- A vector of length five, a shorter one, an unlimited one and a zero one. -/
theorem render_autoScaled_plane :
    let y : Array (Exact ℝ) := #[finite 3, finite 0, infinite false, finite 0]
    let x : Array (Exact ℝ) := #[finite 4, finite (-2), finite 0, finite 0]
    ScalesVectors ℝ ∧ Wheel.longest y x = finite 5 ∧
    ∃ image, Wheel.standard.render y x 2 2 none = .ok image ∧
      Wheel.standard.AutoScaled y x 2 2 image ∧
      Wheel.standard.render (drawnOut 10 y) (drawnOut 10 x) 2 2 none = .ok image := by
  intro y x
  obtain ⟨-, hdrawn, hdrawnOut⟩ := render_autoScaled scalesVectors_plane .standard y x 2 2
  obtain ⟨image, hrender, hscaled⟩ := hdrawn rfl rfl (by decide)
  refine ⟨scalesVectors_plane, ?_, image, hrender .checked, hscaled,
    (hdrawnOut 10 (by norm_num) .checked).trans (hrender .checked)⟩
  have hlengths : (List.zipWith Elementary.hypot y.toList x.toList).filter Extended.isFinite =
      [finite 5, finite 2, finite 0] := by
    change [finite (Elementary.hypot 3 4), finite (Elementary.hypot 0 (-2)),
      finite (Elementary.hypot 0 0)] = _
    rw [real_hypot_eq 3 4 (r := 5) (by norm_num) (by norm_num),
      real_hypot_eq 0 (-2) (r := 2) (by norm_num) (by norm_num),
      real_hypot_eq 0 0 (r := 0) (by norm_num) (by norm_num)]
  rw [Wheel.longest, hlengths]
  norm_num

end Plane

end CenterOfMass
