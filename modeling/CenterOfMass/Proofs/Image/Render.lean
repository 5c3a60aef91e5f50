import CenterOfMass.Image.Render
import CenterOfMass.Proofs.Image.Pieces
import CenterOfMass.Proofs.Outcome

namespace CenterOfMass

theorem chunksOf_replicate {α : Type} {n : Nat} (hn : 0 < n) (count : Nat) (a : α) :
    chunksOf n (List.replicate (n * count) a) = List.replicate count (List.replicate n a) := by
  induction count with
  | zero => exact chunksOf_nil
  | succ count ih =>
    have hsplit : List.replicate (n * (count + 1)) a =
        List.replicate n a ++ List.replicate (n * count) a := by
      rw [List.replicate_append_replicate, Nat.mul_succ, Nat.add_comm]
    rw [hsplit, chunksOf_append hn List.length_replicate, ih]
    rfl

theorem mapM_range {ε α : Type} {f : Nat → Except ε α} {l : List α}
    (h : ∀ x a, l[x]? = some a → f x = .ok a) : (List.range l.length).mapM f = .ok l := by
  induction l generalizing f with
  | nil => rfl
  | cons a l ih =>
    have hhead : f 0 = .ok a := h 0 a rfl
    have htail : (List.range l.length).mapM (f ∘ Nat.succ) = .ok l := ih fun x => h (x + 1)
    rw [List.length_cons, List.range_succ_eq_map, List.mapM_cons, List.mapM_map, hhead]
    simp [htail]

/-- What is written last into a place of an array stands there. -/
theorem getElem?_foldl_set {α : Type} (f : Nat → α) (rows : List Nat) (done : Array α) {i : Nat}
    (hi : i < done.size) :
    (rows.foldl (fun done row => done.setIfInBounds row (f row)) done)[i]? =
      if i ∈ rows then some (f i) else done[i]? := by
  induction rows generalizing done with
  | nil => simp
  | cons row rows ih =>
    rw [List.foldl_cons, ih _ (by simpa using hi)]
    -- a later row may be written to the same place again
    by_cases hrest : i ∈ rows
    · simp [hrest]
    · by_cases hrow : i = row
      · subst hrow
        simp [hrest, hi]
      · simp [hrest, hrow, Array.getElem?_setIfInBounds_ne (Ne.symm hrow)]

theorem size_foldl_set {α : Type} (f : Nat → α) (rows : List Nat) (done : Array α) :
    (rows.foldl (fun done row => done.setIfInBounds row (f row)) done).size = done.size := by
  induction rows generalizing done with
  | nil => rfl
  | cons row rows ih => rw [List.foldl_cons, ih, Array.size_setIfInBounds]

/-- When every place is written, in whatever order, all that stood there before is gone. -/
theorem toList_foldl_set {α : Type} (f : Nat → α) {rows : List Nat} {done : Array α}
    (hrows : ∀ row < done.size, row ∈ rows) :
    (rows.foldl (fun done row => done.setIfInBounds row (f row)) done).toList =
      (List.range done.size).map f := by
  refine List.ext_getElem? fun i => ?_
  rw [Array.getElem?_toList]
  by_cases hi : i < done.size
  · rw [getElem?_foldl_set f rows done hi, if_pos (hrows i hi), List.getElem?_map,
      List.getElem?_range hi]
    rfl
  · have hlong : done.size ≤ i := by omega
    rw [Array.getElem?_eq_none (by rwa [size_foldl_set]), List.getElem?_eq_none (by simpa)]

section Draw

variable {R : Type} [Sub R] [Div R] [NatCast R] [LE R] [DecidableLE R] [LT R] [DecidableLT R]
  [Extended R] (color : R → Color) (low high : R)

/-- The bytes of values, each in the color of its place between the bounds. -/
def colorBytes (values : List R) : List UInt8 :=
  values.flatMap fun v => (color (position low high v)).toList

theorem length_colorBytes (values : List R) :
    (colorBytes color low high values).length = 3 * values.length := by
  have hcolors := length_flatMap_toList (values.map fun v => color (position low high v))
  rwa [List.flatMap_map, List.length_map] at hcolors

variable {values : Array R} {width height : Nat} (sizes : Sizes)

theorem rowBytes_eq_ok {row : Nat} (hrow : (row + 1) * width ≤ values.size)
    (hword : (row + 1) * width < Word.limit) {piece : List UInt8}
    (hpiece : piece.length = 3 * width) : rowBytes color values low high width row piece sizes =
      .ok (colorBytes color low high (rowValues values width row)) := by
  have hlength := length_rowValues hrow
  have hvalue : ∀ x v, (rowValues values width row)[x]? = some v →
      valueAt values width row x sizes = .ok v := by
    intro x v hv
    have hx : x < width := by
      rw [← hlength]
      exact (List.getElem?_eq_some_iff.mp hv).1
    rw [Nat.succ_mul] at hword
    rw [getElem?_rowValues hrow hx] at hv
    simp only [valueAt, sizes.mul_eq_ok (show row * width < Word.limit by omega),
      sizes.add_eq_ok (show row * width + x < Word.limit by omega), ok_bind, hv, pure_eq_ok]
  have hread := mapM_range hvalue
  rw [hlength] at hread
  rw [rowBytes, if_pos hpiece, hread]
  rfl

/-- Row tasks put their rows into the image, one after the other. -/
theorem foldlM_drawRow (hfull : height * width ≤ values.size)
    (hword : height * width < Word.limit) (rows : List Nat) {done : Array (List UInt8)}
    (hsize : done.size = height) (hdone : ∀ piece ∈ done, piece.length = 3 * width) :
    rows.foldlM (drawRow color values low high width sizes) done =
    .ok (rows.foldl (fun done row => done.setIfInBounds row
      (colorBytes color low high (rowValues values width row))) done) := by
  induction rows generalizing done with
  | nil => rfl
  | cons row rows ih =>
    rw [List.foldlM_cons, List.foldl_cons, drawRow]
    by_cases hrow : row < height
    · have hle : (row + 1) * width ≤ height * width := Nat.mul_le_mul_right _ hrow
      have hpiece := hdone done[row] (Array.getElem_mem (by omega))
      have hbytes := rowBytes_eq_ok color low high sizes (Nat.le_trans hle hfull) (by omega) hpiece
      rw [Array.getElem?_eq_getElem (by omega)]
      simp only [hbytes, ok_bind, pure_eq_ok]
      refine ih (by simpa using hsize) ?_
      intro piece hmem
      rcases Array.mem_or_eq_of_mem_setIfInBounds hmem with h | rfl
      · exact hdone piece h
      · rw [length_colorBytes, length_rowValues (Nat.le_trans hle hfull)]
    · have hbeyond : done.size ≤ row := by omega
      rw [Array.getElem?_eq_none hbeyond, Array.setIfInBounds_eq_of_size_le hbeyond]
      exact ih hsize hdone

/-- In whatever order rows are drawn into pieces of their length, the pieces hold the color of each
value in its place in the end. -/
theorem exists_foldlM_drawRow (hfull : height * width ≤ values.size)
    (hword : height * width < Word.limit) {rows : List Nat}
    (hrows : rows.Perm (List.range height)) {done : Array (List UInt8)} (hsize : done.size = height)
    (hdone : ∀ piece ∈ done, piece.length = 3 * width) :
    ∃ drawn, rows.foldlM (drawRow color values low high width sizes) done = .ok drawn ∧
      drawn.toList.flatten = colorBytes color low high (values.toList.take (height * width)) := by
  have hall : ∀ row < done.size, row ∈ rows := by
    intro row hlt
    rw [hsize] at hlt
    exact hrows.mem_iff.mpr (List.mem_range.mpr hlt)
  refine ⟨_, foldlM_drawRow color low high sizes hfull hword rows hsize hdone, ?_⟩
  rw [toList_foldl_set _ hall, hsize, ← flatMap_rowValues, ← List.flatMap_def, colorBytes,
    List.flatMap_assoc]
  rfl

/-- In whatever order the rows are drawn, the image holds the color of each value in its place. -/
theorem renderGridIn_eq_ok {arrange : List Nat → List Nat}
    (harrange : (arrange (List.range height)).Perm (List.range height))
    (hfull : width * height ≤ values.size) (hmemory : 3 * (width * height) < Word.memoryLimit) :
    renderGridIn arrange color values low high width height sizes =
      .ok (colorBytes color low high (values.toList.take (height * width))).toArray := by
  have hlimit := Word.limit_eq
  have hcommute : height * width = width * height := Nat.mul_comm _ _
  have harea : sizes.mul width height = .ok (width * height) := sizes.mul_eq_ok (by omega)
  have hsize : sizes.mul (width * height) 3 = .ok (width * height * 3) := sizes.mul_eq_ok (by omega)
  have hthird : width * height * 3 / 3 = width * height := Nat.mul_div_cancel _ (by decide)
  unfold renderGridIn
  simp only [harea, hsize, ok_bind, hthird]
  rw [if_neg (by omega)]
  -- an image without pixels is not cut into pieces
  by_cases hempty : width = 0 ∨ height = 0
  · have hnone : height * width = 0 := by
      rcases hempty with rfl | rfl
      · exact Nat.mul_zero _
      · exact Nat.zero_mul _
    rw [if_pos hempty, hnone]
    rfl
  · have hwidth : 0 < width := by omega
    have hrow : width * 1 ≤ width * height := Nat.mul_le_mul_left _ (by omega)
    have hstride : sizes.mul width 3 = .ok (width * 3) := sizes.mul_eq_ok (by omega)
    have hbytes : width * height * 3 = width * 3 * height := Nat.mul_right_comm _ _ _
    let black := Array.replicate height (List.replicate (width * 3) (0 : UInt8))
    have hblack : ∀ piece ∈ black, piece.length = 3 * width := by
      intro piece hpiece
      rw [(Array.mem_replicate.mp hpiece).2, List.length_replicate, Nat.mul_comm]
    obtain ⟨drawn, hdrawn, hflatten⟩ := exists_foldlM_drawRow color low high sizes
      (hcommute ▸ hfull) (by omega) harrange Array.size_replicate hblack
    rw [if_neg hempty, if_neg (by omega), hstride, ok_bind, hbytes, chunksOf_replicate (by omega),
      List.toArray_replicate, Array.size_replicate]
    refine (congrArg (· >>= _) hdrawn).trans ?_
    rw [ok_bind, hflatten]
    rfl

end Draw

section Visualize

variable {R : Type} [Scalar R]

theorem size_scaledValues (logarithmic : Bool) (values : Array R) :
    (scaledValues logarithmic values).size = values.size := by
  unfold scaledValues
  split
  · exact Array.size_map
  · rfl

/-- The bounds that the colors of a table are stretched between. -/
def colorRange (values : Array R) : R × R :=
  (finiteRange values.toList).getD (Nat.cast 0, Nat.cast 0)

/-- A table whose image fits into memory can be drawn. -/
theorem visualize_eq_ok (map : Colormap) (logarithmic : Bool) {values : Array R}
    {width height : Nat} (hsize : values.size = width * height)
    (hmemory : 3 * (width * height) < Word.memoryLimit) (sizes : Sizes) :
    let scaled := scaledValues logarithmic values
    visualize map logarithmic values width height sizes =
      .ok ⟨width, height, (colorBytes map.color (colorRange scaled).1 (colorRange scaled).2
        scaled.toList).toArray⟩ := by
  intro scaled
  have hlimit := Word.limit_eq
  have harea : sizes.mul width height = .ok (width * height) := sizes.mul_eq_ok (by omega)
  have hscaled : scaled.size = width * height := by rw [size_scaledValues, hsize]
  have hdrawn : renderGrid map.color scaled (colorRange scaled).1 (colorRange scaled).2
      width height sizes = .ok (colorBytes map.color (colorRange scaled).1 (colorRange scaled).2
        (scaled.toList.take (height * width))).toArray :=
    renderGridIn_eq_ok _ _ _ _ (.refl (List.range height)) (Nat.le_of_eq hscaled.symm) hmemory
  have hlength : scaled.toList.length = height * width := by
    rw [Array.length_toList, hscaled, Nat.mul_comm]
  have hwhole : scaled.toList.take (height * width) = scaled.toList :=
    List.take_of_length_le (Nat.le_of_eq hlength)
  rw [hwhole] at hdrawn
  unfold visualize
  rw [harea, ok_bind, if_neg (not_not.mpr hsize)]
  exact (congrArg (· >>= _) hdrawn).trans rfl

end Visualize

end CenterOfMass
