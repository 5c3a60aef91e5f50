import CenterOfMass.Proofs.Image.Sizes
import CenterOfMass.Proofs.Png.Buffer
import CenterOfMass.Proofs.Png.Palette

namespace CenterOfMass

/-- What a product of sizes decides is decided the same where sizes are checked, unless the product
does not fit. -/
theorem Answers.of_checked {α : Type} {n : Nat} {accepted : Prop} {refused : RenderFault → Prop}
    {next : Nat → Except Failure α} (h : n < Word.limit → Answers accepted refused (next n)) :
    Answers (accepted ∧ n < Word.limit) (fun f => refused f ∧ n < Word.limit)
      (Sizes.checked.hold n >>= next) := by
  rcases Nat.lt_or_ge n Word.limit with hn | hn
  · rw [Sizes.checked.hold_eq_ok hn, ok_bind]
    simpa [hn] using h hn
  · rw [Sizes.hold_checked_eq_error hn]
    exact .outOfRange (fun h => absurd hn (Nat.not_le.mpr h.2))
      fun _ h => absurd hn (Nat.not_le.mpr h.2)

namespace Png

section Rows

variable {data : Array UInt8} {stride row n : Nat}

theorem failsOnly_rowSlice (sizes : Sizes) :
    FailsOnly (· = .outOfRange) (rowSlice data stride sizes row) := by
  apply (sizes.failsOnly_hold _).bind
  intro start
  apply (sizes.failsOnly_hold _).bind
  intro stop
  split
  · exact .ok _
  · exact .error rfl

/-- The row at which the end of the words is passed seems to end before it starts. -/
theorem rowSlice_wrapping_eq_error (hstride : stride < Word.limit)
    (hstart : row * stride < Word.limit) (hstop : Word.limit ≤ (row + 1) * stride) :
    rowSlice data stride .wrapping row = .error .outOfRange := by
  have hnext : (row + 1) * stride = row * stride + stride := Nat.succ_mul row stride
  have hover : (row + 1) * stride % Word.limit = (row + 1) * stride - Word.limit := by
    rw [Nat.mod_eq_sub_mod hstop, Nat.mod_eq_of_lt (by omega)]
  have hbegin : Sizes.wrapping.mul row stride = .ok (row * stride) := Sizes.mul_eq_ok _ hstart
  have hend : Sizes.wrapping.mul (row + 1) stride = .ok ((row + 1) * stride - Word.limit) :=
    congrArg Except.ok hover
  rw [rowSlice, hbegin, ok_bind, hend, ok_bind, if_neg (by omega)]
  rfl

/-- No rows are cut that together reach beyond the words. -/
theorem rowsFrom_wrapping_eq_error (hstride : stride < Word.limit)
    (hstart : row * stride < Word.limit) (hall : Word.limit ≤ (row + n) * stride) :
    rowsFrom data stride .wrapping n row = .error .outOfRange := by
  induction n generalizing row with
  | zero => exact absurd hstart (Nat.not_lt.mpr hall)
  | succ n ih =>
    unfold rowsFrom
    rcases Nat.lt_or_ge ((row + 1) * stride) Word.limit with hnext | hnext
    · have hrest : row + (n + 1) = row + 1 + n := by omega
      rw [hrest] at hall
      rw [ih hnext hall]
      cases hslice : rowSlice data stride .wrapping row with
      | ok slice => rfl
      | error e =>
        rw [failsOnly_rowSlice .wrapping e hslice]
        rfl
    · rw [rowSlice_wrapping_eq_error hstride hstart hnext]
      rfl

end Rows

/-- Rows that are no longer than data, and their filter bytes, are counted without loss. -/
theorem mul_one_add_mod {stride height : Nat} (hheight : height < Word.limit)
    (hall : stride * height < Word.memoryLimit) :
    height * ((1 + stride) % Word.limit) % Word.limit = height * (1 + stride) := by
  have hlimit := Word.limit_eq
  have hexpand : height * (1 + stride) = height + stride * height := by ring
  rcases Nat.eq_zero_or_pos height with rfl | hrows
  · simp
  · have hstride : stride ≤ stride * height := Nat.le_mul_of_pos_right _ hrows
    rw [Nat.mod_eq_of_lt (a := 1 + stride) (by omega)]
    apply Nat.mod_eq_of_lt
    rcases Nat.eq_zero_or_pos stride with rfl | hcols
    · simpa using hheight
    · have hle : height ≤ stride * height := Nat.le_mul_of_pos_left _ hcols
      omega

section Scanlines

variable {data : Array UInt8} {width height : Nat} {type : ColorType}
  (hdata : data.size < Word.memoryLimit)

include hdata

/-- Where sizes are checked, data that is long enough comes out in rows if these can be held. -/
theorem scanlines_checked (hsize : width * type.bytesPerPixel * height ≤ data.size) :
    scanlines data width height type .checked =
      if 1 + width * type.bytesPerPixel < Word.limit ∧
          height * (1 + width * type.bytesPerPixel) < Word.memoryLimit then
        .ok (rowsOf data (width * type.bytesPerPixel) 0 height)
      else .error .outOfRange := by
  have hlimit := Word.limit_eq
  rcases Nat.lt_or_ge (width * type.bytesPerPixel) Word.limit with hstride | hstride
  · have hall : (0 + height) * (width * type.bytesPerPixel) ≤ data.size := by
      rwa [Nat.zero_add, Nat.mul_comm]
    rw [scanlines_eq_ite (Sizes.checked.mul_eq_ok hstride) (Sizes.checked.mul_eq_ok (by omega)),
      if_neg (Nat.not_lt.mpr hsize), rowsFrom_eq .checked hall (by omega)]
    split_ifs with hheld
    · rw [Sizes.checked.add_eq_ok hheld.1, ok_bind, Sizes.checked.mul_eq_ok (by omega), ok_bind,
        if_neg (Nat.not_le.mpr hheld.2)]
    · rcases Nat.lt_or_ge (1 + width * type.bytesPerPixel) Word.limit with hrow | hrow
      · rw [Sizes.checked.add_eq_ok hrow, ok_bind]
        rcases Nat.lt_or_ge (height * (1 + width * type.bytesPerPixel)) Word.limit with hm | hm
        · rw [Sizes.checked.mul_eq_ok hm, ok_bind, if_pos (by omega)]
        · rw [Sizes.mul, Sizes.hold_checked_eq_error hm]
          rfl
      · rw [Sizes.add, Sizes.hold_checked_eq_error hrow]
        rfl
  · rw [if_neg (by omega), scanlines, Sizes.mul, Sizes.hold_checked_eq_error hstride]
    rfl

/-- Where sizes are reduced, so is the length that data is asked for. Rows come out of the data only
if the length in full is there as well. -/
theorem scanlines_wrapping (hheight : height < Word.limit) {stride : Nat}
    (hstride : stride = width * type.bytesPerPixel % Word.limit) :
    scanlines data width height type .wrapping =
      if data.size < stride * height % Word.limit then
        .error (.render (.scanlines (stride * height % Word.limit) data.size))
      else if stride * height ≤ data.size ∧ height * (1 + stride) < Word.memoryLimit then
        .ok (rowsOf data stride 0 height)
      else .error .outOfRange := by
  have hlimit := Word.limit_eq
  have hword : stride < Word.limit := hstride ▸ Nat.mod_lt _ (by decide)
  have hrow : Sizes.wrapping.mul width type.bytesPerPixel = .ok stride :=
    congrArg Except.ok hstride.symm
  have hall : Sizes.wrapping.mul stride height = .ok (stride * height % Word.limit) := rfl
  have hadd : Sizes.wrapping.add 1 stride = .ok ((1 + stride) % Word.limit) := rfl
  have hbytes : Sizes.wrapping.mul height ((1 + stride) % Word.limit) =
      .ok (height * ((1 + stride) % Word.limit) % Word.limit) := rfl
  rw [scanlines_eq_ite hrow hall]
  split_ifs with hshort hheld
  · rfl
  · have hrows : (0 + height) * stride ≤ data.size := by
      rw [Nat.zero_add, Nat.mul_comm]
      exact hheld.1
    rw [hadd, ok_bind, hbytes, mul_one_add_mod hheight (by omega), ok_bind,
      if_neg (Nat.not_le.mpr hheld.2), rowsFrom_eq .wrapping hrows (by omega)]
  · rw [hadd, ok_bind, hbytes, ok_bind]
    rcases Nat.lt_or_ge data.size (stride * height) with hlong | hlong
    · have hover : Word.limit ≤ stride * height := by
        refine Nat.le_of_not_lt fun hlt => hshort ?_
        rwa [Nat.mod_eq_of_lt hlt]
      split_ifs
      · rfl
      · apply rowsFrom_wrapping_eq_error hword
        · rw [Nat.zero_mul]
          decide
        · rwa [Nat.zero_add, Nat.mul_comm]
    · rw [mul_one_add_mod hheight (by omega),
        if_pos (Nat.le_of_not_lt fun hlt => hheld ⟨hlong, hlt⟩)]

end Scanlines

/-- The bytes of a row of an image: one for each pixel if there are few enough colors for a palette,
else three. -/
def rowStride (width : Nat) (pixels : Array UInt8) : Nat :=
  if (colorsOf pixels.toList).toFinset.card ≤ 256 then width else 3 * width

/-- The bytes that the rows of an image are cut from. -/
def rowsSize (pixels : Array UInt8) : Nat :=
  if (colorsOf pixels.toList).toFinset.card ≤ 256 then pixels.size / 3 else pixels.size

theorem rowsSize_le (pixels : Array UInt8) : rowsSize pixels ≤ pixels.size := by
  unfold rowsSize
  split_ifs
  · exact Nat.div_le_self _ _
  · exact Nat.le_refl _

theorem rowStride_le (width : Nat) (pixels : Array UInt8) : rowStride width pixels ≤ 3 * width := by
  unfold rowStride
  split_ifs <;> omega

/-- The bytes of all pixels are those of all rows. -/
theorem rowStride_mul {width height : Nat} {pixels : Array UInt8}
    (h : pixels.size = 3 * (width * height)) :
    rowStride width pixels * height = rowsSize pixels := by
  unfold rowStride rowsSize
  split_ifs
  · rw [h, Nat.mul_div_cancel_left _ (by decide)]
  · rw [h, Nat.mul_assoc]

section Encode

variable (compress : List UInt8 → List UInt8) (d : Division) (image : Image) {sizes : Sizes}

/-- An image whose bytes have been counted is written from a buffer in one of the two forms. -/
theorem exists_encodeWith_eq {count size : Nat}
    (hcount : sizes.mul image.width image.height = .ok count)
    (hsize : sizes.mul count 3 = .ok size) :
    ∃ (f : Form) (data : Array UInt8), data.size = rowsSize image.pixels ∧
      f.rowSize image.width = rowStride image.width image.pixels ∧
      encodeWith compress d image sizes =
        if image.pixels.size ≠ size then
          .error (.render (.pixels image.pixels.size image.width image.height))
        else f.write compress image.width image.height data sizes := by
  have hform := indexImage_isSome_iff d count image.pixels.toList
  unfold encodeWith imageChunks rowStride rowsSize
  rw [hcount, ok_bind, hsize, ok_bind]
  cases hindex : indexImage d count image.pixels.toList with
  | some r =>
    have hfew : (colorsOf image.pixels.toList).toFinset.card ≤ 256 := hform.mp (by rw [hindex]; rfl)
    have hlength := (indexImage_sound hindex).shows.length_eq
    rw [length_colorsOf, Array.length_toList] at hlength
    refine ⟨.indexed r.palette, r.indices.toArray, ?_, (if_pos hfew).symm, ?_⟩
    · rw [if_pos hfew, List.size_toArray, hlength]
    · split_ifs <;> rfl
  | none =>
    have hmany : ¬ (colorsOf image.pixels.toList).toFinset.card ≤ 256 := fun hfew => by
      have hsome := hform.mpr hfew
      rw [hindex] at hsome
      cases hsome
    refine ⟨.truecolor, image.pixels, (if_neg hmany).symm, (if_neg hmany).symm, ?_⟩
    split_ifs <;> rfl

/-- Where there is memory for the rows, nothing but the number of bytes keeps an image from being
written, however sizes are held. -/
theorem checks_encodeWith (hstride : 3 * image.width < Word.half)
    (hmemory : image.height * (1 + 3 * image.width) < Word.memoryLimit) (sizes : Sizes) :
    Checks (image.pixels.size = 3 * (image.width * image.height))
      (.pixels image.pixels.size image.width image.height)
      (encodeWith compress d image sizes) := by
  have hlimit := Word.limit_eq
  have hexpand : image.height * (1 + 3 * image.width) =
      image.height + 3 * (image.width * image.height) := by ring
  have hcount : sizes.mul image.width image.height = .ok (image.width * image.height) :=
    sizes.mul_eq_ok (by omega)
  have htriple : sizes.mul (image.width * image.height) 3 =
      .ok (3 * (image.width * image.height)) := by
    rw [sizes.mul_eq_ok (by omega), Nat.mul_comm]
  obtain ⟨f, data, hdata, hrow, hencode⟩ := exists_encodeWith_eq compress d image hcount htriple
  rw [hencode]
  have hle : f.rowSize image.width ≤ 3 * image.width := hrow ▸ rowStride_le _ _
  split_ifs with hsize
  · exact .refused hsize
  · rw [not_not] at hsize
    have hall : f.rowSize image.width * image.height = data.size := by
      rw [hrow, hdata, rowStride_mul hsize]
    rw [Form.write_eq_ite sizes (Nat.lt_of_le_of_lt hle hstride)
      (Nat.lt_of_le_of_lt (Nat.mul_le_mul_left _ (by omega)) hmemory), if_neg (by omega)]
    exact .accepted hsize

variable (hpixels : image.pixels.size < Word.memoryLimit)

include hpixels

/-- Where sizes are checked, an image with the right number of bytes is written if its rows can be
held, and a wrong number is found if the right one fits. -/
theorem answers_encodeWith_checked :
    Answers (image.pixels.size = 3 * (image.width * image.height) ∧
        1 + rowStride image.width image.pixels < Word.limit ∧
        image.height * (1 + rowStride image.width image.pixels) < Word.memoryLimit)
      (fun f => f = .pixels image.pixels.size image.width image.height ∧
        image.pixels.size ≠ 3 * (image.width * image.height) ∧
        3 * (image.width * image.height) < Word.limit)
      (encodeWith compress d image .checked) := by
  have hlimit := Word.limit_eq
  rcases Nat.lt_or_ge (3 * (image.width * image.height)) Word.limit with hfits | hfits
  · have hcount : Sizes.checked.mul image.width image.height = .ok (image.width * image.height) :=
      Sizes.mul_eq_ok _ (by omega)
    have htriple : Sizes.checked.mul (image.width * image.height) 3 =
        .ok (3 * (image.width * image.height)) := by
      rw [Sizes.mul_eq_ok _ (by omega), Nat.mul_comm]
    obtain ⟨f, data, hdata, hrow, hencode⟩ := exists_encodeWith_eq compress d image hcount htriple
    rw [hencode]
    split_ifs with hsize
    · exact .render (fun h => hsize h.1) fun _ => and_iff_left ⟨hsize, hfits⟩
    · rw [not_not] at hsize
      have hall : f.rowSize image.width * image.height = data.size := by
        rw [hrow, hdata, rowStride_mul hsize]
      have hshort : data.size < Word.memoryLimit := by
        rw [hdata]
        exact Nat.lt_of_le_of_lt (rowsSize_le _) hpixels
      rw [f.write_eq, scanlines_checked hshort (by rw [f.rowSize_eq, hall]), f.rowSize_eq, hrow]
      split_ifs with hheld
      · exact .ok ⟨hsize, hheld⟩ fun _ h => h.2.1 hsize
      · exact .outOfRange (fun h => hheld h.2) fun _ h => h.2.1 hsize
  · have hstop : encodeWith compress d image .checked = .error .outOfRange := by
      unfold encodeWith imageChunks
      rcases Nat.lt_or_ge (image.width * image.height) Word.limit with hcount | hcount
      · rw [Sizes.mul_eq_ok _ hcount, ok_bind, Sizes.mul, Sizes.hold_checked_eq_error (by omega)]
        rfl
      · rw [Sizes.mul, Sizes.hold_checked_eq_error hcount]
        rfl
    rw [hstop]
    exact .outOfRange (fun h => by omega) fun _ h => by omega

/-- Where sizes are reduced, so is the number of bytes that is asked for, and the row that they are
cut by. An image with that number is written if rows of that length are there and can be held. -/
theorem answers_encodeWith_wrapping (hheight : image.height < Word.limit) {stride : Nat}
    (hstride : stride = rowStride image.width image.pixels % Word.limit) :
    Answers (image.pixels.size = 3 * (image.width * image.height) % Word.limit ∧
        stride * image.height ≤ rowsSize image.pixels ∧
        image.height * (1 + stride) < Word.memoryLimit)
      (fun f => f = .pixels image.pixels.size image.width image.height ∧
          image.pixels.size ≠ 3 * (image.width * image.height) % Word.limit ∨
        f = .scanlines (stride * image.height % Word.limit) (rowsSize image.pixels) ∧
          image.pixels.size = 3 * (image.width * image.height) % Word.limit ∧
          rowsSize image.pixels < stride * image.height % Word.limit)
      (encodeWith compress d image .wrapping) := by
  have hcount : Sizes.wrapping.mul image.width image.height =
      .ok (image.width * image.height % Word.limit) := rfl
  have htriple : Sizes.wrapping.mul (image.width * image.height % Word.limit) 3 =
      .ok (3 * (image.width * image.height) % Word.limit) := by
    rw [Sizes.mul, Sizes.hold, Nat.mod_mul_mod, Nat.mul_comm]
  obtain ⟨f, data, hdata, hrow, hencode⟩ := exists_encodeWith_eq compress d image hcount htriple
  rw [hencode]
  split_ifs with hsize
  · exact .render (fun h => hsize h.1) fun fault => by simp [hsize]
  · rw [not_not] at hsize
    have hshort : data.size < Word.memoryLimit := by
      rw [hdata]
      exact Nat.lt_of_le_of_lt (rowsSize_le _) hpixels
    have hword : stride = image.width * f.type.bytesPerPixel % Word.limit := by
      rw [f.rowSize_eq, hrow, hstride]
    rw [f.write_eq, scanlines_wrapping hshort hheight hword, hdata]
    have hle := Nat.mod_le (stride * image.height) Word.limit
    split_ifs with hlong hheld
    · exact .render (fun h => by omega) fun fault => by simp [hsize, hlong]
    · exact .ok ⟨hsize, hheld⟩ fun _ h => by omega
    · exact .outOfRange (fun h => hheld h.2) fun _ h => by omega

end Encode

end Png

open Png

section Checked

variable {R : Type} [Scalar R] {values : Array R} {width height : Nat}

theorem answers_visualize_checked (map : Colormap) (logarithmic : Bool)
    (hmemory : 8 * values.size < Word.memoryLimit) (hwidth : width < Word.limit) :
    Answers (values.size = width * height ∧ width * height < Word.limit)
      (fun f => (f = .values values.size width height ∧ values.size ≠ width * height) ∧
        width * height < Word.limit) (visualize map logarithmic values width height .checked) := by
  rw [visualize_eq map logarithmic hmemory hwidth]
  apply Answers.of_checked
  intro hfits
  have hchecks := checks_visualize (Sizes.checked.mul_eq_ok hfits) map logarithmic hmemory hwidth
  rwa [visualize_eq map logarithmic hmemory hwidth, Sizes.mul_eq_ok _ hfits, ok_bind] at hchecks

theorem answers_visualize_wrapping (map : Colormap) (logarithmic : Bool)
    (hmemory : 8 * values.size < Word.memoryLimit) (hwidth : width < Word.limit) :
    Answers (values.size = width * height % Word.limit ∧ width ∣ values.size)
      (fun f => f = .values values.size width height ∧
        values.size ≠ width * height % Word.limit)
      (visualize map logarithmic values width height .wrapping) := by
  have hcount : Sizes.wrapping.mul width height = .ok (width * height % Word.limit) := rfl
  rw [visualize_eq map logarithmic hmemory hwidth, hcount, ok_bind]
  split_ifs with hsize hdvd
  · exact .render (fun h => hsize h.1) fun _ => and_iff_left hsize
  · exact .ok ⟨not_not.mp hsize, hdvd⟩ fun _ h => hsize h.2
  · exact .outOfRange (fun h => hdvd h.2) fun _ h => hsize h.2

theorem Wheel.answers_render_checked (w : Wheel R) (y x : Array R) (vmax : Option R) :
    Answers ((y.size = width * height ∧ x.size = width * height) ∧ width * height < Word.limit)
      (fun f => (f = .components y.size x.size width height ∧
        ¬ (y.size = width * height ∧ x.size = width * height)) ∧ width * height < Word.limit)
      (w.render y x width height vmax .checked) := by
  unfold render
  apply Answers.of_checked
  intro hfits
  have hchecks := w.checks_render_of_mul (Sizes.checked.mul_eq_ok hfits) y x vmax
  rwa [render, Sizes.mul_eq_ok _ hfits, ok_bind] at hchecks

end Checked

/-- How the sides of an image are met where a table or a vector field is drawn and where an image is
written. While the products fit, every fault in the sizes is found, and nothing else keeps the image
away. Beyond that it is told what is drawn, what is refused and where the program stops: if products
are checked, and if they are reduced to words. -/
structure SidesChecked {R : Type} [Scalar R] (map : Colormap) (logarithmic : Bool)
    (values : Array R) (w : Wheel R) (y x : Array R) (vmax : Option R)
    (compress : List UInt8 → List UInt8) (d : Division) (pixels : Array UInt8)
    (width height : Nat) : Prop where
  values_fit : width * height < Word.limit → ∀ sizes,
    Checks (values.size = width * height) (.values values.size width height)
      (visualize map logarithmic values width height sizes)
  vectors_fit : width * height < Word.limit → ∀ sizes,
    Checks (y.size = width * height ∧ x.size = width * height)
      (.components y.size x.size width height) (w.render y x width height vmax sizes)
  pixels_fit : 3 * width < Word.half → height * (1 + 3 * width) < Word.memoryLimit → ∀ sizes,
    Checks (pixels.size = 3 * (width * height)) (.pixels pixels.size width height)
      (encodeWith compress d ⟨width, height, pixels⟩ sizes)
  values_checked : Answers (values.size = width * height ∧ width * height < Word.limit)
    (fun f => (f = .values values.size width height ∧ values.size ≠ width * height) ∧
      width * height < Word.limit)
    (visualize map logarithmic values width height .checked)
  vectors_checked : Answers
    ((y.size = width * height ∧ x.size = width * height) ∧ width * height < Word.limit)
    (fun f => (f = .components y.size x.size width height ∧
      ¬ (y.size = width * height ∧ x.size = width * height)) ∧ width * height < Word.limit)
    (w.render y x width height vmax .checked)
  pixels_checked : Answers (pixels.size = 3 * (width * height) ∧
      1 + rowStride width pixels < Word.limit ∧
      height * (1 + rowStride width pixels) < Word.memoryLimit)
    (fun f => f = .pixels pixels.size width height ∧ pixels.size ≠ 3 * (width * height) ∧
      3 * (width * height) < Word.limit)
    (encodeWith compress d ⟨width, height, pixels⟩ .checked)
  values_wrapping : Answers (values.size = width * height % Word.limit ∧ width ∣ values.size)
    (fun f => f = .values values.size width height ∧ values.size ≠ width * height % Word.limit)
    (visualize map logarithmic values width height .wrapping)
  vectors_wrapping : Checks
    (y.size = width * height % Word.limit ∧ x.size = width * height % Word.limit)
    (.components y.size x.size width height) (w.render y x width height vmax .wrapping)
  pixels_wrapping : ∀ stride, stride = rowStride width pixels % Word.limit →
    Answers (pixels.size = 3 * (width * height) % Word.limit ∧
        stride * height ≤ rowsSize pixels ∧ height * (1 + stride) < Word.memoryLimit)
      (fun f => f = .pixels pixels.size width height ∧
          pixels.size ≠ 3 * (width * height) % Word.limit ∨
        f = .scanlines (stride * height % Word.limit) (rowsSize pixels) ∧
          pixels.size = 3 * (width * height) % Word.limit ∧
          rowsSize pixels < stride * height % Word.limit)
      (encodeWith compress d ⟨width, height, pixels⟩ .wrapping)

theorem sidesChecked {R : Type} [Scalar R] (map : Colormap) (logarithmic : Bool)
    {values : Array R} (w : Wheel R) (y x : Array R) (vmax : Option R)
    (compress : List UInt8 → List UInt8) (d : Division) {pixels : Array UInt8}
    {width height : Nat} (hmemory : 8 * values.size < Word.memoryLimit)
    (hpixels : pixels.size < Word.memoryLimit) (hwidth : width < Word.limit)
    (hheight : height < Word.limit) :
    SidesChecked map logarithmic values w y x vmax compress d pixels width height where
  values_fit hfits sizes :=
    checks_visualize (sizes.mul_eq_ok hfits) map logarithmic hmemory hwidth
  vectors_fit hfits sizes := w.checks_render_of_mul (sizes.mul_eq_ok hfits) y x vmax
  pixels_fit := checks_encodeWith compress d ⟨width, height, pixels⟩
  values_checked := answers_visualize_checked map logarithmic hmemory hwidth
  vectors_checked := w.answers_render_checked y x vmax
  pixels_checked := answers_encodeWith_checked compress d ⟨width, height, pixels⟩ hpixels
  values_wrapping := answers_visualize_wrapping map logarithmic hmemory hwidth
  vectors_wrapping := w.checks_render_of_mul rfl y x vmax
  pixels_wrapping _ :=
    answers_encodeWith_wrapping compress d ⟨width, height, pixels⟩ hpixels hheight

/-- Two values in a row that is three wide, and so high that the product of the sides is two. -/
theorem sidesChecked_overflow :
    8 * (#[1.0, 2.0] : Array Float).size < Word.memoryLimit ∧
    (#[0, 0, 0, 9, 9, 9] : Array UInt8).size < Word.memoryLimit ∧
    3 < Word.limit ∧ 6148914691236517206 < Word.limit ∧
    SidesChecked .greys false (#[1.0, 2.0] : Array Float) .standard #[1.0, 2.0] #[3.0, 4.0] none
      Zlib.compress .single #[0, 0, 0, 9, 9, 9] 3 6148914691236517206 :=
  ⟨by decide, by decide, by decide, by decide, sidesChecked .greys false .standard #[1.0, 2.0]
    #[3.0, 4.0] none Zlib.compress .single (by decide) (by decide) (by decide) (by decide)⟩

section Overflow

variable {sizes : Sizes} (h : sizes = .checked ∨ sizes = .wrapping)

include h

theorem not_checks_visualize_overflow :
    ¬ Checks ((#[] : Array Float).size = 9223372036854775808 * 2)
      (.values 0 9223372036854775808 2)
      (visualize .greys false (#[] : Array Float) 9223372036854775808 2 sizes) := by
  intro hvalues
  have hrefused := (hvalues.render_iff _).mpr ⟨rfl, by decide⟩
  rw [visualize_eq .greys false (by decide) (by decide)] at hrefused
  rcases h with rfl | rfl <;> cases hrefused

theorem not_checks_render_overflow :
    ¬ Checks ((#[] : Array Float).size = 9223372036854775808 * 2 ∧
        (#[] : Array Float).size = 9223372036854775808 * 2)
      (.components 0 0 9223372036854775808 2)
      (Wheel.standard.render (#[] : Array Float) #[] 9223372036854775808 2 none sizes) := by
  intro hvectors
  have hrefused := (hvectors.render_iff _).mpr ⟨rfl, by decide⟩
  rcases h with rfl | rfl <;> cases hrefused

theorem not_checks_encodeWith_overflow :
    ¬ Checks ((#[] : Array UInt8).size = 3 * (0 * 9223372036854775808))
      (.pixels 0 0 9223372036854775808)
      (encodeWith Zlib.compress .single ⟨0, 9223372036854775808, #[]⟩ sizes) := by
  intro hpixels
  obtain ⟨bytes, hbytes⟩ := hpixels.ok_iff.mpr rfl
  rcases h with rfl | rfl <;> cases hbytes

end Overflow

/-- No values and no vectors are refused where the sides are too long: the program stops if products
are checked, and an image without pixels comes through if they are reduced. In both cases the rows
of an image without pixels are refused by the memory if it is too high. -/
theorem not_checks_overflow :
    (¬ Checks ((#[] : Array Float).size = 9223372036854775808 * 2)
        (.values 0 9223372036854775808 2)
        (visualize .greys false (#[] : Array Float) 9223372036854775808 2 .checked) ∧
      ¬ Checks ((#[] : Array Float).size = 9223372036854775808 * 2)
        (.values 0 9223372036854775808 2)
        (visualize .greys false (#[] : Array Float) 9223372036854775808 2 .wrapping)) ∧
    (¬ Checks ((#[] : Array Float).size = 9223372036854775808 * 2 ∧
          (#[] : Array Float).size = 9223372036854775808 * 2)
        (.components 0 0 9223372036854775808 2)
        (Wheel.standard.render (#[] : Array Float) #[] 9223372036854775808 2 none .checked) ∧
      ¬ Checks ((#[] : Array Float).size = 9223372036854775808 * 2 ∧
          (#[] : Array Float).size = 9223372036854775808 * 2)
        (.components 0 0 9223372036854775808 2)
        (Wheel.standard.render (#[] : Array Float) #[] 9223372036854775808 2 none .wrapping)) ∧
    ¬ Checks ((#[] : Array UInt8).size = 3 * (0 * 9223372036854775808))
        (.pixels 0 0 9223372036854775808)
        (encodeWith Zlib.compress .single ⟨0, 9223372036854775808, #[]⟩ .checked) ∧
    ¬ Checks ((#[] : Array UInt8).size = 3 * (0 * 9223372036854775808))
      (.pixels 0 0 9223372036854775808)
      (encodeWith Zlib.compress .single ⟨0, 9223372036854775808, #[]⟩ .wrapping) :=
  ⟨⟨not_checks_visualize_overflow (.inl rfl), not_checks_visualize_overflow (.inr rfl)⟩,
    ⟨not_checks_render_overflow (.inl rfl), not_checks_render_overflow (.inr rfl)⟩,
    not_checks_encodeWith_overflow (.inl rfl), not_checks_encodeWith_overflow (.inr rfl)⟩

end CenterOfMass
