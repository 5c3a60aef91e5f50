import CenterOfMass.Proofs.Grid
import CenterOfMass.Proofs.Image.Pieces
import CenterOfMass.Proofs.Outcome

namespace CenterOfMass

/-- The bytes of a color follow one another, three places for every color before it. -/
theorem getElem?_flatMap_toList (colors : List Color) (p : Nat) :
    (colors.flatMap Color.toList)[p * 3]? = colors[p]?.map Color.r ∧
      (colors.flatMap Color.toList)[p * 3 + 1]? = colors[p]?.map Color.g ∧
      (colors.flatMap Color.toList)[p * 3 + 2]? = colors[p]?.map Color.b := by
  induction colors generalizing p with
  | nil => simp
  | cons c cs ih =>
    have hbytes : (c :: cs).flatMap Color.toList =
        c.r :: c.g :: c.b :: cs.flatMap Color.toList := rfl
    rw [hbytes]
    cases p with
    | zero => exact ⟨rfl, rfl, rfl⟩
    | succ p =>
      rw [Nat.succ_mul]
      exact ih p

/-- An image of given sides, three bytes to a pixel, with a color at each of its places and nowhere
else. -/
structure Image.Shows (image : Image) (rows cols : Nat) (color : Nat → Nat → Option Color) :
    Prop where
  width_eq : image.width = cols
  height_eq : image.height = rows
  size_eq : image.pixels.size = 3 * (rows * cols)
  isSome_iff : ∀ row col, (color row col).isSome ↔ row < rows ∧ col < cols
  pixel_eq : ∀ row col, image.pixel row col = .ok (color row col)

namespace Grid

/-- The image of a table of colors. -/
def image (g : Grid Color) : Image :=
  ⟨g.cols, g.rows, (g.cells.toList.flatMap Color.toList).toArray⟩

variable {g : Grid Color}

theorem size_pixels_image : g.image.pixels.size = 3 * (g.rows * g.cols) := by
  unfold image
  rw [List.size_toArray, length_flatMap_toList, Array.length_toList, g.size_eq]

theorem pixel_image (hword : 3 * (g.rows * g.cols) < Word.limit) (row col : Nat) :
    g.image.pixel row col = .ok (g.get? row col) := by
  unfold Image.pixel
  by_cases hin : row < g.rows ∧ col < g.cols
  · have hplace : row * g.cols + col < g.rows * g.cols := cell_lt ⟨row, hin.1⟩ ⟨col, hin.2⟩
    have hrow : Sizes.checked.mul row g.cols = .ok (row * g.cols) := Sizes.mul_eq_ok _ (by omega)
    have hcell : Sizes.checked.add (row * g.cols) col = .ok (row * g.cols + col) :=
      Sizes.add_eq_ok _ (by omega)
    have hstart : Sizes.checked.mul (row * g.cols + col) 3 = .ok ((row * g.cols + col) * 3) :=
      Sizes.mul_eq_ok _ (by omega)
    have hnext (k : Nat) (hk : k < 3) : Sizes.checked.add ((row * g.cols + col) * 3) k =
        .ok ((row * g.cols + col) * 3 + k) := Sizes.add_eq_ok _ (by omega)
    have houtside : ¬ (g.image.height ≤ row ∨ g.image.width ≤ col) := by
      rw [not_or, Nat.not_le, Nat.not_le]
      exact hin
    have hcolor : g.cells.toList[row * g.cols + col]? = some (g.get ⟨row, hin.1⟩ ⟨col, hin.2⟩) := by
      rw [Array.getElem?_toList, ← get?_eq_getElem? hin.1 hin.2, get?_of_lt hin.1 hin.2]
    obtain ⟨hr, hg, hb⟩ := getElem?_flatMap_toList g.cells.toList (row * g.cols + col)
    rw [hcolor] at hr hg hb
    rw [if_neg houtside, get?_of_lt hin.1 hin.2]
    simp only [image, hrow, hcell, hstart, hnext 1 (by decide), hnext 2 (by decide), ok_bind,
      List.getElem?_toArray, hr, hg, hb, Option.map_some, pure_eq_ok]
  · have houtside : g.image.height ≤ row ∨ g.image.width ≤ col := by
      simp only [image]
      omega
    rw [if_pos houtside, get?_eq_none hin]

theorem image_shows (hword : 3 * (g.rows * g.cols) < Word.limit) :
    g.image.Shows g.rows g.cols g.get? where
  width_eq := rfl
  height_eq := rfl
  size_eq := size_pixels_image
  isSome_iff _ _ := isSome_get?
  pixel_eq := pixel_image hword

end Grid

end CenterOfMass
