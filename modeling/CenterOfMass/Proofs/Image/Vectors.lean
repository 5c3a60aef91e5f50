import CenterOfMass.Image.Wheel
import CenterOfMass.Proofs.Image.Pixel

namespace CenterOfMass

section Places

variable {α β : Type}

/-- An image with a color at every place, which is that of the two values there. -/
structure Image.ShowsPairs (image : Image) (width height : Nat) (y : Array α) (x : Array β)
    (color : α → β → Color) : Prop where
  width_eq : image.width = width
  height_eq : image.height = height
  pixel_eq : ∀ row < height, ∀ col < width, ∃ vy vx, y[row * width + col]? = some vy ∧
    x[row * width + col]? = some vx ∧ image.pixel row col = .ok (some (color vy vx))

variable {y : Array α} {x : Array β} {width height : Nat} (hy : y.size = width * height)
  (hx : x.size = width * height)

include hy hx

theorem showsPairs_zipWith (color : α → β → Color) (hword : 3 * (width * height) < Word.limit) :
    Image.ShowsPairs ⟨width, height,
      ((List.zipWith color y.toList x.toList).flatMap Color.toList).toArray⟩
      width height y x color := by
  let colors : Grid Color := {
    rows := height
    cols := width
    cells := (List.zipWith color y.toList x.toList).toArray
    size_eq := by
      rw [List.size_toArray, List.length_zipWith, Array.length_toList, Array.length_toList, hy, hx,
        Nat.min_self, Nat.mul_comm] }
  refine ⟨rfl, rfl, fun row hrow col hcol => ?_⟩
  have hplace : row * width + col < width * height := by
    rw [Nat.mul_comm width]
    exact Grid.cell_lt ⟨row, hrow⟩ ⟨col, hcol⟩
  have hpixel : colors.image.pixel row col = .ok (colors.get? row col) := by
    apply Grid.pixel_image
    rwa [Nat.mul_comm height]
  have hcell :
      colors.get? row col = (List.zipWith color y.toList x.toList)[row * width + col]? := by
    rw [Grid.get?_eq_getElem? hrow hcol]
    exact List.getElem?_toArray
  rw [List.getElem?_zipWith, Array.getElem?_toList, Array.getElem?_toList,
    Array.getElem?_eq_getElem (hy ▸ hplace), Array.getElem?_eq_getElem (hx ▸ hplace)] at hcell
  exact ⟨_, _, Array.getElem?_eq_getElem (hy ▸ hplace), Array.getElem?_eq_getElem (hx ▸ hplace),
    hpixel.trans (congrArg Except.ok hcell)⟩

end Places

namespace Wheel

section Shown

variable {R : Type} [Scalar R]

/-- A vector is measured if its length is finite and there is something to measure it by. -/
def Measures (top y x : R) : Prop :=
  Extended.isFinite (Elementary.hypot y x) = true ∧ ¬ top ≤ Nat.cast 0

instance (top y x : R) : Decidable (Measures top y x) := inferInstanceAs (Decidable (_ ∧ _))

/-- The angle that a vector is shown at. -/
def shownAngle (top y x : R) : R :=
  if Measures top y x then Elementary.atan2 y x else Nat.cast 0

/-- The saturation that a vector is shown with, not yet brought into the unit interval. -/
def shownSaturation (top y x : R) : R :=
  if Measures top y x then Elementary.hypot y x / top else Nat.cast 0

theorem vectorColor_eq (w : Wheel R) (top y x : R) :
    w.vectorColor top y x = w.color (shownAngle top y x) (shownSaturation top y x) := by
  unfold vectorColor shownAngle shownSaturation Measures
  by_cases hlength : Extended.isFinite (Elementary.hypot y x) = true <;>
    by_cases htop : top ≤ Nat.cast 0 <;> simp [hlength, htop]

end Shown

variable {R : Type} [Scalar R] (w : Wheel R) {y x : Array R} {width height : Nat}

/-- A vector field of the right size is drawn, each vector in its own color, however sizes are
held. -/
theorem exists_render (hy : y.size = width * height) (hx : x.size = width * height)
    (hmemory : 8 * y.size < Word.memoryLimit) (vmax : Option R) :
    ∃ image, (∀ sizes, w.render y x width height vmax sizes = .ok image) ∧
      image.ShowsPairs width height y x (w.vectorColor (vmax.getD (longest y x))) := by
  have hlimit := Word.limit_eq
  refine ⟨_, fun sizes => ?_, showsPairs_zipWith hy hx _ (by omega)⟩
  unfold render
  rw [sizes.mul_eq_ok (by omega), ok_bind, if_neg (by omega)]
  rfl

end Wheel

end CenterOfMass
