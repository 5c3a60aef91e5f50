import CenterOfMass.Analysis.Settings
import CenterOfMass.Proofs.Image.Range
import CenterOfMass.Proofs.Image.Stretch
import CenterOfMass.Proofs.Image.Vectors
import CenterOfMass.Proofs.Numeric.Within

namespace CenterOfMass

namespace Wheel

section Parts

variable {R : Type} [Scalar R] (w : Wheel R)

/-- The angle that a direction is turned to in the color cube. -/
def phase (angle : R) : R :=
  let pi : R := Elementary.pi
  Nat.cast 2 * pi * (w.start / Nat.cast 3 + w.rotation * ((angle + pi) / (Nat.cast 2 * pi)))

/-- How far a color lies from the grey of its lightness. -/
def amplitude (saturation : R) : R :=
  w.hue * clampUnit saturation * w.light * (Nat.cast 1 - w.light)

theorem color_eq (angle saturation : R) :
    let sin := Elementary.sin (w.phase angle)
    let cos := Elementary.cos (w.phase angle)
    w.color angle saturation =
      ⟨channelByte (w.light + w.amplitude saturation * (-0.14861 * cos + 1.78277 * sin)),
        channelByte (w.light + w.amplitude saturation * (-0.29227 * cos - 0.90649 * sin)),
        channelByte (w.light + w.amplitude saturation * (1.97294 * cos))⟩ := rfl

/-- The grey of a lightness. -/
def neutral : Color :=
  let grey := Quantized.toByte (w.light * Nat.cast 255)
  ⟨grey, grey, grey⟩

/-- The color without saturation: black where the hue is turned beyond all finite angles. -/
def greyAt (angle : R) : Color :=
  if Extended.isFinite (w.phase angle) = true then w.neutral else ⟨0, 0, 0⟩

/-- The color of a vector without a direction: grey, but black where it is measured by what is no
number. -/
def restColor (top y x : R) : Color :=
  if Measures top y x ∧ Extended.isNaN top = true then ⟨0, 0, 0⟩
  else w.greyAt (shownAngle top y x)

end Parts

/-- A wheel that may be set. -/
structure Valid (w : Wheel Float) : Prop where
  start_finite : w.start.isFinite = true
  rotation_finite : w.rotation.isFinite = true
  hue_finite : w.hue.isFinite = true
  zero_le_light : Nat.cast 0 ≤ w.light
  light_le_one : w.light ≤ Nat.cast 1

end Wheel

theorem Settings.valid_of_validate {settings : Settings Float} (h : settings.validate = .ok ()) :
    settings.wheel.Valid := by
  unfold validate at h
  dsimp only at h
  split_ifs at h with hfinite hhue hlight
  simp only [Bool.or_eq_true, Bool.not_eq_true', not_or, Bool.not_eq_false] at hfinite
  exact ⟨hfinite.1.1, hfinite.1.2, hfinite.2, hlight.1, hlight.2⟩

section Channel

variable {light amplitude turn x : Float}

theorem within_of_mem_unit (hzero : Nat.cast 0 ≤ x) (hone : x ≤ Nat.cast 1) : Within 0 x := by
  have hfinite : x.isFinite = true := ordersNumbers_double.isFinite_of_le
    (a := (Nat.cast 0 : Float)) (c := Nat.cast 1) rfl rfl hzero hone
  rw [double_le_iff_number, number_eq_finite hfinite] at hzero hone
  rw [number_zero, Exact.finite_le_finite] at hzero
  rw [number_one, Exact.finite_le_finite] at hone
  refine ⟨hfinite, ?_⟩
  rwa [abs_of_nonneg hzero, zpow_zero]

/-- Without amplitude a channel has the brightness of the lightness. -/
theorem channelByte_of_isZero (hzero : Nat.cast 0 ≤ light) (hone : light ≤ Nat.cast 1)
    (hamplitude : IsZero amplitude) (hturn : turn.isFinite = true) :
    Wheel.channelByte (light + amplitude * turn) = Quantized.toByte (light * Nat.cast 255) := by
  have hlight := (within_of_mem_unit hzero hone).isFinite
  have hnumber : number (light + amplitude * turn) = number light :=
    number_add_zero hlight (hamplitude.mul hturn)
  have hzeros :
      Wheel.channelByte (-Nat.cast 0 : Float) = Wheel.channelByte (Nat.cast 0 : Float) := by
    decide +kernel
  rw [congr_number hzeros hnumber, Wheel.channelByte,
    clampUnit_eq_self ordersNumbers_double hzero hone]

/-- What is no number makes a channel black. -/
theorem channelByte_undefined (h : number x = .undefined) : Wheel.channelByte x = 0 := by
  have hundefined : number (0.0 / 0.0) = .undefined := number_eq_undefined_iff.mpr (by decide)
  have hzero : (Exact.undefined : Exact) ≠ .finite 0 := nofun
  rw [eq_of_number_eq (h.trans hundefined.symm) (h ▸ hzero)]
  decide +kernel

theorem channelByte_of_undefined (h : number amplitude = .undefined ∨ number turn = .undefined) :
    Wheel.channelByte (light + amplitude * turn) = 0 := by
  apply channelByte_undefined
  rcases h with h | h <;> simp [number_add, number_mul, h]

end Channel

/-- What is assumed of the angle of a vector and of sine and cosine. -/
structure IsTrigonometry (atan2 : Float → Float → Float) (sin cos : Float → Float) : Prop where
  within_atan2 {y x : Float} : IsZero y → IsZero x → Within 2 (atan2 y x)
  within_sin {a : Float} : a.isFinite = true → Within 0 (sin a)
  within_cos {a : Float} : a.isFinite = true → Within 0 (cos a)
  isNaN_sin {a : Float} : a.isFinite = false → (sin a).isNaN = true
  isNaN_cos {a : Float} : a.isFinite = false → (cos a).isNaN = true

section Turns

variable {sin cos : Float}

theorem isFinite_turns (hsin : Within 0 sin) (hcos : Within 0 cos) :
    (-0.14861 * cos + 1.78277 * sin).isFinite = true ∧
      (-0.29227 * cos - 0.90649 * sin).isFinite = true ∧ (1.97294 * cos).isFinite = true := by
  have hfactor {c : Float} (hfinite : c.isFinite = true) (hc : exponentOf c + 53 ≤ 1) {d : Float}
      (hd : Within 0 d) : Within 1 (c * d) :=
    ((within_exponentOf hfinite).mono hc).mul hd (by norm_num) (by norm_num)
  have hred := hfactor (c := -0.14861) (by decide) (by decide) hcos
  have hred' := hfactor (c := 1.78277) (by decide) (by decide) hsin
  have hgreen := hfactor (c := -0.29227) (by decide) (by decide) hcos
  have hgreen' := hfactor (c := 0.90649) (by decide) (by decide) hsin
  have hblue := hfactor (c := 1.97294) (by decide) (by decide) hcos
  exact ⟨(Within.add (by norm_num) (by norm_num) hred hred').isFinite,
    (Within.sub (by norm_num) (by norm_num) hgreen hgreen').isFinite, hblue.isFinite⟩

theorem number_turns_undefined (hsin : number sin = .undefined) (hcos : number cos = .undefined) :
    number (-0.14861 * cos + 1.78277 * sin) = .undefined ∧
      number (-0.29227 * cos - 0.90649 * sin) = .undefined ∧
      number (1.97294 * cos) = .undefined := by
  simp [number_add, number_sub, number_mul, hsin, hcos]

end Turns

/-- Doubles with an angle of vectors, a sine and a cosine of choice. -/
@[reducible] def elementaryTurnedBy (atan2 : Float → Float → Float) (sin cos : Float → Float) :
    Elementary Float :=
  { (inferInstance : Elementary Float) with atan2 := atan2, sin := sin, cos := cos }

@[reducible] def doublesTurnedBy (atan2 : Float → Float → Float) (sin cos : Float → Float) :
    Scalar Float :=
  { (inferInstance : Scalar Float) with toElementary := elementaryTurnedBy atan2 sin cos }

namespace Wheel

section Amplitude

variable {w : Wheel Float} (hvalid : w.Valid) {saturation : Float}

include hvalid

theorem isZero_amplitude (h : IsZero saturation) : IsZero (w.amplitude saturation) := by
  have hlight := within_of_mem_unit hvalid.zero_le_light hvalid.light_le_one
  have hclamped : IsZero (clampUnit saturation) := by
    rw [isZero_iff_number, number_clampUnit, isZero_iff_number.mp h]
    rfl
  have hone : Within 0 (Nat.cast 1) := within_of_mem_unit (by decide) (by decide)
  have hdark : Within 1 (Nat.cast 1 - w.light) := .sub (by norm_num) (by norm_num) hone hlight
  exact ((IsZero.mul' hvalid.hue_finite hclamped).mul hlight.isFinite).mul hdark.isFinite

omit hvalid in
theorem number_amplitude_undefined (h : number saturation = .undefined) :
    number (w.amplitude saturation) = .undefined := by
  have hclamped : number (clampUnit saturation) = .undefined := by
    rw [number_clampUnit, h]
    rfl
  simp [amplitude, number_mul, hclamped]

end Amplitude

variable {atan2 : Float → Float → Float} {sin cos : Float → Float} {w : Wheel Float}
  {saturation : Float}

/-- Without saturation the color is grey, unless the hue is turned beyond all finite angles. -/
theorem color_of_isZero (htrig : IsTrigonometry atan2 sin cos) (hvalid : w.Valid)
    (h : IsZero saturation) (angle : Float) :
    letI := doublesTurnedBy atan2 sin cos
    w.color angle saturation = w.greyAt angle := by
  let _ := doublesTurnedBy atan2 sin cos
  have hzero := isZero_amplitude hvalid h
  rw [color_eq]
  by_cases hfinite : (w.phase angle).isFinite = true
  · obtain ⟨hred, hgreen, hblue⟩ :=
      isFinite_turns (htrig.within_sin hfinite) (htrig.within_cos hfinite)
    have hgrey : w.greyAt angle = w.neutral := if_pos hfinite
    rw [hgrey]
    have hchannel {turn : Float} (hturn : turn.isFinite = true) :=
      channelByte_of_isZero hvalid.zero_le_light hvalid.light_le_one hzero hturn
    exact Color.ext (hchannel hred) (hchannel hgreen) (hchannel hblue)
  · have hsin := number_eq_undefined_iff.mpr (htrig.isNaN_sin (Bool.eq_false_iff.mpr hfinite))
    have hcos := number_eq_undefined_iff.mpr (htrig.isNaN_cos (Bool.eq_false_iff.mpr hfinite))
    obtain ⟨hred, hgreen, hblue⟩ := number_turns_undefined hsin hcos
    have hblack : w.greyAt angle = ⟨0, 0, 0⟩ := if_neg hfinite
    rw [hblack]
    exact Color.ext (channelByte_of_undefined (.inr hred)) (channelByte_of_undefined (.inr hgreen))
      (channelByte_of_undefined (.inr hblue))

/-- A saturation that is no number makes the color black, whatever the angle. -/
theorem color_of_undefined (h : number saturation = .undefined) (angle : Float) :
    letI := doublesTurnedBy atan2 sin cos
    w.color angle saturation = ⟨0, 0, 0⟩ := by
  let _ := doublesTurnedBy atan2 sin cos
  have hamplitude : number (w.amplitude saturation) = .undefined := number_amplitude_undefined h
  rw [color_eq]
  exact Color.ext (channelByte_of_undefined (.inl hamplitude))
    (channelByte_of_undefined (.inl hamplitude)) (channelByte_of_undefined (.inl hamplitude))

/-- Ordinary wheels turn no hue beyond the finite angles. -/
theorem isFinite_phase {angle : Float} (hstart : Within 1000 w.start)
    (hrotation : Within 1000 w.rotation) (hangle : Within 2 angle) :
    (w.phase angle).isFinite = true := by
  have hpi : Within 2 (Elementary.pi : Float) := (within_exponentOf rfl).mono (by decide)
  have hturn : Within 3 (Nat.cast 2 * Elementary.pi : Float) :=
    (within_exponentOf (by decide)).mono (by decide)
  have hsum : Within 3 (angle + Elementary.pi) := .add (by norm_num) (by norm_num) hangle hpi
  have hfraction : Within 3 ((angle + Elementary.pi) / (Nat.cast 2 * Elementary.pi)) :=
    .div (by norm_num) (by norm_num) hsum hturn.isFinite (by decide)
  have hturned :=
    (hrotation.mul hfraction (by norm_num) (by norm_num)).mono (k := 1003) (by norm_num)
  have hstarted : Within 1000 (w.start / Nat.cast 3) :=
    .div (by norm_num) (by norm_num) hstart (by decide) (by decide)
  have hwhole := Within.add (by norm_num) (by norm_num) (hstarted.mono (k := 1003) (by norm_num))
    hturned
  exact (hturn.mul hwhole (by norm_num) (by norm_num)).isFinite

section Rest

variable {top y x : Float}

theorem hypot_of_isZero (hy : IsZero y) (hx : IsZero x) : Elementary.hypot y x = Nat.cast 0 := by
  rcases hy.eq_or_eq with rfl | rfl <;> rcases hx.eq_or_eq with rfl | rfl <;> decide +kernel

/-- No part of a length is zero, or it is no number. -/
theorem number_zero_div (htop : ¬ top ≤ Nat.cast 0) :
    number (Nat.cast 0 / top) = if top.isNaN = true then .undefined else .finite 0 := by
  have hzero : (Exact.finite 0).rounded = .finite 0 := Exact.rounded_natCast (n := 0) (by norm_num)
  rw [double_le_iff_number, number_zero] at htop
  have hwide : number top ≠ .finite 0 := by
    intro h
    rw [h] at htop
    exact htop rfl
  have hundefined := number_eq_undefined_iff (a := top)
  rw [number_div _ hwide, number_zero]
  cases htopnumber : number top with
  | finite q =>
    rw [htopnumber] at hundefined hwide
    have hq : q ≠ 0 := fun h => hwide (congrArg Exact.finite h)
    rw [if_neg (fun h => nomatch hundefined.mpr h), Exact.finite_div _ hq, zero_div, hzero]
  | infinite s =>
    rw [htopnumber] at hundefined
    rw [if_neg (fun h => nomatch hundefined.mpr h)]
    exact hzero
  | undefined =>
    rw [if_pos (hundefined.mp htopnumber), Exact.div_undefined, Exact.rounded_undefined]

theorem vectorColor_eq_restColor (htrig : IsTrigonometry atan2 sin cos) (hvalid : w.Valid)
    (h : IsZero y ∧ IsZero x ∨ (Elementary.hypot y x).isFinite = false) :
    letI := doublesTurnedBy atan2 sin cos
    w.vectorColor top y x = w.restColor top y x := by
  let _ := doublesTurnedBy atan2 sin cos
  rw [vectorColor_eq, restColor]
  by_cases hmeasures : Measures top y x
  · -- a vector with a finite length is the zero vector here
    have hlength : Elementary.hypot y x = Nat.cast 0 := by
      rcases h with ⟨hy, hx⟩ | hinfinite
      · exact hypot_of_isZero hy hx
      · exact absurd hmeasures.1 (Bool.eq_false_iff.mp hinfinite)
    have hsaturation : number (shownSaturation top y x) =
        if top.isNaN = true then .undefined else .finite 0 :=
      calc number (shownSaturation top y x) = number (Elementary.hypot y x / top) :=
            congrArg number (if_pos hmeasures)
        _ = number (Nat.cast 0 / top) :=
            congrArg (fun length : Float => number (length / top)) hlength
        _ = _ := number_zero_div hmeasures.2
    by_cases hnan : top.isNaN = true
    · rw [if_pos hnan] at hsaturation
      exact (color_of_undefined hsaturation _).trans (if_pos ⟨hmeasures, hnan⟩).symm
    · rw [if_neg hnan] at hsaturation
      rw [if_neg fun hboth => hnan hboth.2]
      exact color_of_isZero htrig hvalid (isZero_iff_number.mpr hsaturation) _
  · have hsaturation : shownSaturation top y x = Nat.cast 0 := if_neg hmeasures
    rw [if_neg fun hboth => hmeasures hboth.1, hsaturation]
    exact color_of_isZero htrig hvalid .natCast_zero _

/-- Nothing but a measure that is no number, or a hue turned beyond all bounds, takes the grey away.
-/
theorem restColor_eq_neutral (htrig : IsTrigonometry atan2 sin cos)
    (hstart : Within 1000 w.start) (hrotation : Within 1000 w.rotation)
    (h : IsZero y ∧ IsZero x ∨ (Elementary.hypot y x).isFinite = false)
    (htop : top.isNaN = false) :
    letI := doublesTurnedBy atan2 sin cos
    w.restColor top y x = w.neutral := by
  let _ := doublesTurnedBy atan2 sin cos
  have hzero : Within 2 (Nat.cast 0) := (within_exponentOf rfl).mono (by decide)
  have hangle : Within 2 (shownAngle top y x) := by
    unfold shownAngle
    by_cases hmeasures : Measures top y x
    · rw [if_pos hmeasures]
      rcases h with ⟨hy, hx⟩ | hinfinite
      · exact htrig.within_atan2 hy hx
      · exact absurd hmeasures.1 (Bool.eq_false_iff.mp hinfinite)
    · rw [if_neg hmeasures]
      exact hzero
  unfold restColor
  rw [if_neg fun hboth => Bool.eq_false_iff.mp htop hboth.2]
  exact if_pos (isFinite_phase hstart hrotation hangle)

theorem isNaN_longest (y x : Array Float) : (longest y x).isNaN = false :=
  ordersNumbers_double.isNaN_of_isFinite (isFinite_longest ordersFinite_double rfl y x)

end Rest

end Wheel

/-- A vector field is drawn with every wheel that may be set, and zero vectors and those without a
finite length are grey. They are black only where the field is measured by what is no number, and
where the hue is turned beyond all finite angles. -/
theorem render_neutral {atan2 : Float → Float → Float} {sin cos : Float → Float}
    (htrig : IsTrigonometry atan2 sin cos) {settings : Settings Float}
    (hvalid : settings.validate = .ok ()) {y x : Array Float} {width height : Nat}
    (hy : y.size = width * height) (hx : x.size = width * height)
    (hmemory : 8 * y.size < Word.memoryLimit) (vmax : Option Float) :
    letI := doublesTurnedBy atan2 sin cos
    ∃ image, settings.wheel.render y x width height vmax = .ok image ∧
      image.width = width ∧ image.height = height ∧
      ∀ row < height, ∀ col < width, ∃ vy vx,
        y[row * width + col]? = some vy ∧ x[row * width + col]? = some vx ∧
        (IsZero vy ∧ IsZero vx ∨ (Elementary.hypot vy vx).isFinite = false →
          image.pixel row col =
            .ok (some (settings.wheel.restColor (vmax.getD (Wheel.longest y x)) vy vx)) ∧
          ((∀ top ∈ vmax, top.isNaN = false) → Within 1000 settings.wheel.start →
            Within 1000 settings.wheel.rotation →
            image.pixel row col = .ok (some settings.wheel.neutral))) := by
  let _ := doublesTurnedBy atan2 sin cos
  have hwheel := Settings.valid_of_validate hvalid
  obtain ⟨image, hrender, hwidth, hheight, hpixels⟩ :=
    settings.wheel.exists_render hy hx hmemory vmax
  refine ⟨image, hrender .checked, hwidth, hheight, fun row hrow col hcol => ?_⟩
  obtain ⟨vy, vx, hvy, hvx, hpixel⟩ := hpixels row hrow col hcol
  refine ⟨vy, vx, hvy, hvx, fun hrest => ?_⟩
  have hcolor : settings.wheel.vectorColor (vmax.getD (Wheel.longest y x)) vy vx =
      settings.wheel.restColor (vmax.getD (Wheel.longest y x)) vy vx :=
    Wheel.vectorColor_eq_restColor htrig hwheel hrest
  rw [hcolor] at hpixel
  refine ⟨hpixel, fun hvmax hstart hrotation => ?_⟩
  have htop : (vmax.getD (Wheel.longest y x)).isNaN = false := by
    cases vmax with
    | none => exact Wheel.isNaN_longest y x
    | some top => exact hvmax top rfl
  have hneutral : settings.wheel.restColor (vmax.getD (Wheel.longest y x)) vy vx =
      settings.wheel.neutral := Wheel.restColor_eq_neutral htrig hstart hrotation hrest htop
  rwa [hneutral] at hpixel

/-- The angle of a zero vector whose second part is not the zero below zero. -/
def restAngle (y _x : Float) : Float := y

/-- As coarse as a sine can be that has its true value where the standard wheel shows its grey. -/
def levelSine (a : Float) : Float := if a.isFinite = true then -0.866025403784439 else 0.0 / 0.0

def levelCosine (a : Float) : Float := if a.isFinite = true then 0.49999999999999933 else 0.0 / 0.0

theorem isTrigonometry_level : IsTrigonometry restAngle levelSine levelCosine where
  within_atan2 hy _ := ⟨hy.isFinite, by
    rw [restAngle, hy.valueOf_eq, abs_zero]
    exact (two_zpow_pos 2).le⟩
  within_sin h := by
    rw [levelSine, if_pos h]
    exact (within_exponentOf (by decide)).mono (by decide)
  within_cos h := by
    rw [levelCosine, if_pos h]
    exact (within_exponentOf (by decide)).mono (by decide)
  isNaN_sin h := by
    rw [levelSine, if_neg (Bool.eq_false_iff.mp h)]
    decide
  isNaN_cos h := by
    rw [levelCosine, if_neg (Bool.eq_false_iff.mp h)]
    decide

/-- A zero vector, and one that is no vector. -/
theorem render_neutral_twoVectors :
    letI := doublesTurnedBy restAngle levelSine levelCosine
    IsTrigonometry restAngle levelSine levelCosine ∧
    (Settings.standard : Settings Float).validate = .ok () ∧
    (#[0.0, 0.0 / 0.0] : Array Float).size = 2 * 1 ∧ (#[0.0, 1.0] : Array Float).size = 2 * 1 ∧
    8 * (#[0.0, 0.0 / 0.0] : Array Float).size < Word.memoryLimit ∧
    ∃ image, (Settings.standard : Settings Float).wheel.render #[0.0, 0.0 / 0.0] #[0.0, 1.0] 2 1
        (some 1.0) = .ok image ∧ image.width = 2 ∧ image.height = 1 ∧
      ∀ row < 1, ∀ col < 2, ∃ vy vx : Float,
        #[0.0, 0.0 / 0.0][row * 2 + col]? = some vy ∧ #[0.0, 1.0][row * 2 + col]? = some vx ∧
        (IsZero vy ∧ IsZero vx ∨ (Elementary.hypot vy vx).isFinite = false →
          image.pixel row col = .ok (some ((Settings.standard : Settings Float).wheel.restColor
            ((some 1.0).getD (Wheel.longest #[0.0, 0.0 / 0.0] #[0.0, 1.0])) vy vx)) ∧
          ((∀ top ∈ some (1.0 : Float), top.isNaN = false) →
            Within 1000 (Settings.standard : Settings Float).wheel.start →
            Within 1000 (Settings.standard : Settings Float).wheel.rotation →
            image.pixel row col =
              .ok (some (Settings.standard : Settings Float).wheel.neutral))) :=
  ⟨isTrigonometry_level, by decide, rfl, rfl, by decide,
    render_neutral isTrigonometry_level (by decide) rfl rfl (by decide) (some 1.0)⟩

/-- A zero vector that is measured by what is no number is not grey but black. -/
theorem render_black_undefined :
    (Settings.standard : Settings Float).validate = .ok () ∧
    (Wheel.standard : Wheel Float).neutral = ⟨128, 128, 128⟩ ∧ IsZero (Nat.cast 0) ∧
    Wheel.standard.render #[(Nat.cast 0 : Float)] #[Nat.cast 0] 1 1 (some (0.0 / 0.0)) =
      .ok ⟨1, 1, #[0, 0, 0]⟩ := by
  have hmeasures : Wheel.Measures (0.0 / 0.0 : Float) (Nat.cast 0) (Nat.cast 0) := by
    decide +kernel
  have hsaturation : number (Elementary.hypot (Nat.cast 0) (Nat.cast 0) / (0.0 / 0.0)) =
      .undefined := by
    rw [Wheel.hypot_of_isZero .natCast_zero .natCast_zero]
    exact number_eq_undefined_iff.mpr (by decide)
  have hblack : Wheel.standard.vectorColor (0.0 / 0.0 : Float) (Nat.cast 0) (Nat.cast 0) =
      ⟨0, 0, 0⟩ := by
    rw [Wheel.vectorColor_eq, Wheel.shownSaturation, if_pos hmeasures]
    exact @Wheel.color_of_undefined Float.atan2 Float.sin Float.cos _ _ hsaturation _
  refine ⟨by decide, by decide +kernel, .natCast_zero, ?_⟩
  change Except.ok (Image.mk 1 1 ((Wheel.standard.vectorColor (0.0 / 0.0 : Float) (Nat.cast 0)
    (Nat.cast 0)).toList ++ []).toArray) = _
  rw [hblack]
  rfl

end CenterOfMass
