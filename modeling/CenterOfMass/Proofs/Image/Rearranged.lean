import CenterOfMass.Proofs.Image.Sizes
import CenterOfMass.Proofs.Numeric.Zeros
import Mathlib.Logic.Equiv.Defs

namespace CenterOfMass

section Bounds

variable {value : Float → Prop} (hvalue : ∀ v, value v → v.isFinite = true)

include hvalue

/-- Values have one range only, up to the signs of its zeros. -/
theorem IsRange.number_eq {low high low' high' : Float} (h : IsRange value low high)
    (h' : IsRange value low' high') : number low = number low' ∧ number high = number high' := by
  rcases h with ⟨hnone, rfl, rfl⟩ | ⟨hlow, hhigh⟩ <;>
    rcases h' with ⟨hnone', rfl, rfl⟩ | ⟨hlow', hhigh'⟩
  · exact ⟨rfl, rfl⟩
  · exact absurd hlow'.1 (hnone low')
  · exact absurd hlow.1 (hnone' low)
  · constructor
    · exact number_eq_of_not_lt (hvalue low hlow.1) (hvalue low' hlow'.1) (hlow'.2 low hlow.1)
        (hlow.2 low' hlow'.1)
    · exact number_eq_of_not_lt (hvalue high hhigh.1) (hvalue high' hhigh'.1)
        (hhigh.2 high' hhigh'.1) (hhigh'.2 high hhigh.1)

end Bounds

theorem number_colorRange_congr {values values' : Array Float}
    (h : values.toList.Perm values'.toList) :
    number (colorRange values).1 = number (colorRange values').1 ∧
      number (colorRange values).2 = number (colorRange values').2 := by
  have hrange := isRange_colorRange ordersFinite_double values
  have hrange' := isRange_colorRange ordersFinite_double values'
  simp only [← h.mem_iff] at hrange'
  exact hrange.number_eq (fun v hv => hv.1) hrange'

theorem number_longest_congr {y x y' x' : Array Float}
    (h : (List.zipWith Elementary.hypot y.toList x.toList).Perm
      (List.zipWith Elementary.hypot y'.toList x'.toList)) :
    number (Wheel.longest y x) = number (Wheel.longest y' x') := by
  have hzero : Extended.isFinite (Nat.cast 0 : Float) = true := rfl
  have hlongest := isExtreme_longest ordersFinite_double hzero y x
  have hlongest' := isExtreme_longest ordersFinite_double hzero y' x'
  simp only [← h.mem_iff] at hlongest'
  exact number_eq_of_not_lt (isFinite_longest ordersFinite_double hzero y x)
    (isFinite_longest ordersFinite_double hzero y' x') (hlongest.2 _ hlongest'.1)
    (hlongest'.2 _ hlongest.1)

section Colors

variable {low high low' high' : Float}

theorem number_position_congr (hlow : number low = number low') (hhigh : number high = number high')
    (v : Float) : number (position low high v) = number (position low' high' v) := by
  have hrange : number (high - low) = number (high' - low') := by
    rw [number_sub, number_sub, hlow, hhigh]
  have hdistance : number (v - low) = number (v - low') := by rw [number_sub, number_sub, hlow]
  have hnarrow {r r' : Float} (h : number r = number r') : r ≤ Nat.cast 0 ↔ r' ≤ Nat.cast 0 := by
    rw [double_le_iff_number, double_le_iff_number, h]
  have hfinite : Extended.isFinite (high - low) = Extended.isFinite (high' - low') := by
    rw [isFinite_eq_number, isFinite_eq_number, hrange]
  have hflat : (!Extended.isFinite v || decide (high - low ≤ Nat.cast 0) ||
      !Extended.isFinite (high - low)) = (!Extended.isFinite v ||
        decide (high' - low' ≤ Nat.cast 0) || !Extended.isFinite (high' - low')) := by
    simp only [hfinite, hnarrow hrange]
  by_cases h : (!Extended.isFinite v || decide (high - low ≤ Nat.cast 0) ||
      !Extended.isFinite (high - low)) = true
  · unfold position
    rw [if_pos h, if_pos (hflat.symm.trans h)]
  · have hwide : number (high - low) ≠ .finite 0 := by
      intro hzero
      have hle : high - low ≤ Nat.cast 0 := by
        rw [double_le_iff_number, hzero]
        rfl
      exact h (by simp [hle])
    unfold position
    rw [if_neg h, if_neg (fun h' => h (hflat.trans h')), number_clampUnit, number_clampUnit,
      number_div _ hwide, number_div _ (hrange ▸ hwide), hdistance, hrange]

/-- With logarithms or without, a value is drawn alike next to either zero. -/
theorem scaledValue_congr (logarithmic : Bool) {least least' : Float}
    (h : number least = number least') (v : Float) :
    scaledValue logarithmic least v = scaledValue logarithmic least' v := by
  have hdistance : number (v - least) = number (v - least') := by rw [number_sub, number_sub, h]
  have hone : (-Nat.cast 0 + Nat.cast 1 : Float) = Nat.cast 0 + Nat.cast 1 := by decide
  have hsum : v - least + Nat.cast 1 = v - least' + Nat.cast 1 :=
    congr_number (f := fun d : Float => d + Nat.cast 1) hone hdistance
  unfold scaledValue
  rw [hsum]

theorem Wheel.vectorColor_congr (w : Wheel Float) {top top' : Float}
    (h : number top = number top') : w.vectorColor top = w.vectorColor top' := by
  have hzeros : w.vectorColor (-Nat.cast 0) = w.vectorColor (Nat.cast 0) := by
    have hle : (Nat.cast 0 : Float) ≤ Nat.cast 0 := by decide
    have hle' : (-Nat.cast 0 : Float) ≤ Nat.cast 0 := by decide
    funext y x
    simp [vectorColor, hle, hle']
  exact congr_number hzeros h

end Colors

/-- What is assumed of the narrowing of doubles: that it keeps both zeros. -/
structure KeepsZeros (narrow : Float → Float32) : Prop where
  zero : narrow (Nat.cast 0) = Nat.cast 0
  neg_zero : narrow (-Nat.cast 0) = -Nat.cast 0

/-- Doubles that leave the arithmetic in single precision by a narrowing of choice. -/
@[reducible] def narrowedBy (narrow : Float → Float32) : Quantized Float :=
  { (inferInstance : Quantized Float) with toSingle := narrow }

@[reducible] def doublesNarrowedBy (narrow : Float → Float32) : Scalar Float :=
  { (inferInstance : Scalar Float) with toQuantized := narrowedBy narrow }

namespace Colormap

theorem tableAt_neg_zero : ∀ table ∈ [ColorTable.viridis, ColorTable.inferno, ColorTable.magma,
    ColorTable.plasma, ColorTable.greys],
    tableAt table (-Nat.cast 0) = tableAt table (Nat.cast 0) := by
  decide +kernel

/-- Sine and cosine are asked for one angle at both zeros. -/
theorem helixAt_neg_zero : helixAt (-Nat.cast 0) = helixAt (Nat.cast 0) := by
  have hhue : (300.0 + -Nat.cast 0 * (-240.0 - 300.0) : Float32) =
      300.0 + Nat.cast 0 * (-240.0 - 300.0) := by decide +kernel
  have hsaturation : (0.5 + -Nat.cast 0 * (0.5 - 0.5) : Float32) =
      0.5 + Nat.cast 0 * (0.5 - 0.5) := by decide +kernel
  have hlight : (0.0 + -Nat.cast 0 * (1.0 - 0.0) : Float32) =
      0.0 + Nat.cast 0 * (1.0 - 0.0) := by decide +kernel
  unfold helixAt
  simp only [hhue, hsaturation, hlight]

/-- The color at a place in single precision. -/
def ofSingle (map : Colormap) (t : Float32) : Color :=
  match map with
  | .viridis => tableAt ColorTable.viridis t
  | .inferno => tableAt ColorTable.inferno t
  | .magma => tableAt ColorTable.magma t
  | .plasma => tableAt ColorTable.plasma t
  | .cubehelix => helixAt t
  | .greys => tableAt ColorTable.greys t

theorem color_eq_ofSingle {R : Type} [NatCast R] [LT R] [DecidableLT R] [Quantized R]
    (map : Colormap) (x : R) :
    map.color x = map.ofSingle (Quantized.toSingle (clampUnit x)) := by
  cases map <;> rfl

theorem ofSingle_neg_zero (map : Colormap) :
    map.ofSingle (-Nat.cast 0) = map.ofSingle (Nat.cast 0) := by
  cases map
  case cubehelix => exact helixAt_neg_zero
  all_goals exact tableAt_neg_zero _ (by simp)

/-- Both zeros have one color. -/
theorem color_congr {narrow : Float → Float32} (hnarrow : KeepsZeros narrow) (map : Colormap)
    {a b : Float} (h : number a = number b) :
    letI := narrowedBy narrow
    map.color a = map.color b := by
  let _ := narrowedBy narrow
  have hpositive : clampUnit (Nat.cast 0 : Float) = Nat.cast 0 := by decide
  have hnegative : clampUnit (-Nat.cast 0 : Float) = -Nat.cast 0 := by decide
  have hcolor (x : Float) : map.color x = map.ofSingle (narrow (clampUnit x)) :=
    map.color_eq_ofSingle x
  have hzeros : map.color (-Nat.cast 0 : Float) = map.color (Nat.cast 0 : Float) := by
    rw [hcolor, hcolor, hpositive, hnegative, hnarrow.zero, hnarrow.neg_zero, ofSingle_neg_zero]
  exact congr_number hzeros h

end Colormap

theorem number_drawnPlace_congr (logarithmic : Bool) {values values' : Array Float}
    (h : values.toList.Perm values'.toList) (v : Float) :
    number (drawnPlace logarithmic values v) = number (drawnPlace logarithmic values' v) := by
  have hleast : scaledValue logarithmic (colorRange values).1 =
      scaledValue logarithmic (colorRange values').1 :=
    funext (scaledValue_congr logarithmic (number_colorRange_congr h).1)
  have hscaled : (scaledValues logarithmic values).toList.Perm
      (scaledValues logarithmic values').toList := by
    rw [scaledValues_eq_map, scaledValues_eq_map, Array.toList_map, Array.toList_map, hleast]
    exact h.map _
  obtain ⟨hlow, hhigh⟩ := number_colorRange_congr hscaled
  unfold drawnPlace
  rw [hleast]
  exact number_position_congr hlow hhigh _

section Rearranged

variable {n : Nat} (σ : Equiv.Perm (Fin n))

/-- Two images of the same sides and with the same colors, but for the places of these: a pixel of
the second has the color of the pixel of the first that the permutation takes it from. -/
structure Image.Rearranged (i i' : Image) : Prop where
  width_eq : i'.width = i.width
  height_eq : i'.height = i.height
  exists_colors : ∃ colors : Fin n → Color,
    i.pixels = ((List.ofFn colors).flatMap Color.toList).toArray ∧
    i'.pixels = ((List.ofFn (colors ∘ σ)).flatMap Color.toList).toArray

theorem rearranged_stretchedImage {R : Type} [Scalar R] {map : Colormap} {place place' : R → R}
    (hplace : ∀ v, map.color (place v) = map.color (place' v)) (values : Fin n → R)
    (width height : Nat) :
    Image.Rearranged σ (stretchedImage map (List.ofFn values) place width height)
      (stretchedImage map (List.ofFn (values ∘ σ)) place' width height) := by
  have hpixels (values : Fin n → R) :
      ((List.ofFn values).flatMap fun v => (map.color (place v)).toList) =
        (List.ofFn fun i => map.color (place (values i))).flatMap Color.toList := by
    rw [← List.flatMap_map (fun v => map.color (place v)) Color.toList, List.map_ofFn]
    rfl
  refine ⟨rfl, rfl, fun i => map.color (place (values i)), ?_, ?_⟩
  · exact congrArg List.toArray (hpixels values)
  · unfold stretchedImage
    simp only [← hplace]
    exact congrArg List.toArray (hpixels (values ∘ σ))

theorem perm_toList_ofFn {α : Type} (f : Fin n → α) :
    (Array.ofFn f).toList.Perm (Array.ofFn (f ∘ σ)).toList := by
  rw [Array.toList_ofFn, Array.toList_ofFn]
  exact (σ.ofFn_comp_perm f).symm

variable {width height : Nat} (hmemory : 8 * n < Word.memoryLimit) (hwidth : width < Word.limit)

include hmemory hwidth

theorem agree_visualize_comp {narrow : Float → Float32} (hnarrow : KeepsZeros narrow)
    (map : Colormap) (logarithmic : Bool) (values : Fin n → Float) (sizes : Sizes) :
    letI := doublesNarrowedBy narrow
    Agree (fun _ => True) (Image.Rearranged σ)
      (visualize map logarithmic (Array.ofFn values) width height sizes)
      (visualize map logarithmic (Array.ofFn (values ∘ σ)) width height sizes) := by
  let _ := doublesNarrowedBy narrow
  have hsize (f : Fin n → Float) : (Array.ofFn f).size = n := Array.size_ofFn
  have hnumber := number_drawnPlace_congr logarithmic (perm_toList_ofFn σ values)
  rw [visualize_eq map logarithmic (by rwa [hsize]) hwidth,
    visualize_eq map logarithmic (by rwa [hsize]) hwidth, hsize, hsize, Array.toList_ofFn,
    Array.toList_ofFn]
  apply (sizes.agree_hold trivial _).bind
  rintro count _ rfl
  split_ifs with hpixels hdvd
  · exact .error trivial
  · apply Agree.ok
    apply rearranged_stretchedImage
    intro v
    exact Colormap.color_congr hnarrow map (hnumber v)
  · exact .error trivial

end Rearranged

theorem Wheel.agree_render_comp {n : Nat} (σ : Equiv.Perm (Fin n)) (w : Wheel Float)
    (y x : Fin n → Float) (width height : Nat) (vmax : Option Float) (sizes : Sizes) :
    Agree (fun _ => True) (Image.Rearranged σ)
      (w.render (Array.ofFn y) (Array.ofFn x) width height vmax sizes)
      (w.render (Array.ofFn (y ∘ σ)) (Array.ofFn (x ∘ σ)) width height vmax sizes) := by
  have hsize (f : Fin n → Float) : (Array.ofFn f).size = n := Array.size_ofFn
  have hlengths : (List.zipWith Elementary.hypot (Array.ofFn y).toList (Array.ofFn x).toList).Perm
      (List.zipWith Elementary.hypot (Array.ofFn (y ∘ σ)).toList (Array.ofFn (x ∘ σ)).toList) := by
    simp only [Array.toList_ofFn, zipWith_ofFn]
    exact (σ.ofFn_comp_perm fun i => Elementary.hypot (y i) (x i)).symm
  have htop : w.vectorColor (vmax.getD (longest (Array.ofFn y) (Array.ofFn x))) =
      w.vectorColor (vmax.getD (longest (Array.ofFn (y ∘ σ)) (Array.ofFn (x ∘ σ)))) := by
    cases vmax with
    | none => exact w.vectorColor_congr (number_longest_congr hlengths)
    | some top => rfl
  unfold render
  simp only [hsize, ← htop, Array.toList_ofFn, zipWith_ofFn]
  apply (sizes.agree_hold trivial _).bind
  rintro count _ rfl
  split
  · exact .error trivial
  · exact .ok ⟨rfl, rfl, _, rfl, rfl⟩

/-- Colors do not depend on where a value stands. For fields of any size, and for sides that fit
them or not, however sizes are held, to rearrange the vectors is to rearrange the pixels, whether
the greatest length is given or not, and so it is for the values of a table. -/
theorem image_rearranged {narrow : Float → Float32} (hnarrow : KeepsZeros narrow) {n : Nat}
    (σ : Equiv.Perm (Fin n)) {width : Nat} (height : Nat) (hmemory : 8 * n < Word.memoryLimit)
    (hwidth : width < Word.limit) (map : Colormap) (logarithmic : Bool) (w : Wheel Float)
    (vmax : Option Float) (values y x : Fin n → Float) (sizes : Sizes) :
    Agree (fun _ => True) (Image.Rearranged σ)
      (w.render (Array.ofFn y) (Array.ofFn x) width height vmax sizes)
      (w.render (Array.ofFn (y ∘ σ)) (Array.ofFn (x ∘ σ)) width height vmax sizes) ∧
    letI := doublesNarrowedBy narrow
    Agree (fun _ => True) (Image.Rearranged σ)
      (visualize map logarithmic (Array.ofFn values) width height sizes)
      (visualize map logarithmic (Array.ofFn (values ∘ σ)) width height sizes) :=
  ⟨w.agree_render_comp σ y x width height vmax sizes,
    agree_visualize_comp σ hmemory hwidth hnarrow map logarithmic values sizes⟩

/-- The single nearest to a double, of two the even one. -/
def nearestSingle (x : Float) : Float32 :=
  match x.toModel.unpack with
  | .finite s m e _ => Float32.ofModel
      (.pack (.normalize .binary32 (s.apply m) e s))
  | u => Float32.ofModel (.pack u)

theorem keepsZeros_nearestSingle : KeepsZeros nearestSingle where
  zero := by decide
  neg_zero := by decide

/-- Both zeros are the least of four values, and the first of them changes places with the last. -/
theorem image_rearranged_zeros :
    KeepsZeros nearestSingle ∧ 8 * 4 < Word.memoryLimit ∧ 2 < Word.limit ∧
    Agree (fun _ => True) (Image.Rearranged (Equiv.swap (0 : Fin 4) 3))
      (Wheel.standard.render (Array.ofFn ![-0.0, 3.0, 0.0, 1.0])
        (Array.ofFn ![0.0, 4.0, -0.0, 1.0]) 2 2 none)
      (Wheel.standard.render (Array.ofFn (![-0.0, 3.0, 0.0, 1.0] ∘ Equiv.swap 0 3))
        (Array.ofFn (![0.0, 4.0, -0.0, 1.0] ∘ Equiv.swap 0 3)) 2 2 none) ∧
    letI := doublesNarrowedBy nearestSingle
    Agree (fun _ => True) (Image.Rearranged (Equiv.swap (0 : Fin 4) 3))
      (visualize .cubehelix true (Array.ofFn ![-0.0, 2.0, 0.0, 1.0]) 2 2)
      (visualize .cubehelix true (Array.ofFn (![-0.0, 2.0, 0.0, 1.0] ∘ Equiv.swap 0 3)) 2 2) :=
  ⟨keepsZeros_nearestSingle, by decide, by decide,
    image_rearranged keepsZeros_nearestSingle (Equiv.swap 0 3) 2 (by decide) (by decide) .cubehelix
      true .standard none ![-0.0, 2.0, 0.0, 1.0] ![-0.0, 3.0, 0.0, 1.0] ![0.0, 4.0, -0.0, 1.0]
      .checked⟩

end CenterOfMass
