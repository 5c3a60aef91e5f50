import CenterOfMass.Numeric.Double
import CenterOfMass.Proofs.Image.Pixel
import CenterOfMass.Proofs.Image.Place
import CenterOfMass.Proofs.Image.Render
import Mathlib

namespace CenterOfMass

section Writes

/-- The bytes of a row, each with its place in an image of rows of that many bytes. -/
def rowWrites (task : Nat → List UInt8) (stride row : Nat) : List (UInt8 × Nat) :=
  (task row).zipIdx (row * stride)

/-- Carries out single writes one after the other. -/
def carryOut (writes : List (UInt8 × Nat)) (bytes : Array UInt8) : Array UInt8 :=
  writes.foldl (fun bytes write => bytes.setIfInBounds write.2 write.1) bytes

/-- Rows of one length follow one another without a gap. -/
theorem flatMap_range'_rowWrites {task : Nat → List UInt8} {stride row n : Nat}
    (hlength : ∀ k < row + n, (task k).length = stride) :
    (List.range' row n).flatMap (rowWrites task stride) =
      ((List.range' row n).flatMap task).zipIdx (row * stride) := by
  induction n generalizing row with
  | zero => rfl
  | succ n ih =>
    have hnext : row * stride + (task row).length = (row + 1) * stride := by
      rw [hlength row (by omega), Nat.succ_mul]
    rw [List.range'_succ, List.flatMap_cons, List.flatMap_cons, List.zipIdx_append, hnext,
      ih fun k hk => hlength k (by omega)]
    rfl

theorem flatMap_rowWrites {task : Nat → List UInt8} {stride height : Nat}
    (hlength : ∀ row < height, (task row).length = stride) :
    (List.range height).flatMap (rowWrites task stride) =
      ((List.range height).flatMap task).zipIdx := by
  rw [List.range_eq_range', flatMap_range'_rowWrites (by simpa using hlength), Nat.zero_mul]

/-- Writes to different places may be carried out in any order. -/
theorem carryOut_eq {order : List (UInt8 × Nat)} {bytes done : Array UInt8}
    (horder : order.Perm bytes.toList.zipIdx) (hsize : done.size = bytes.size) :
    carryOut order done = bytes := by
  let byteAt (i : Nat) : UInt8 := bytes[i]?.getD 0
  have hwrite : ∀ write ∈ order, write.1 = byteAt write.2 := by
    rintro ⟨b, i⟩ hmem
    have hbyte := List.mem_zipIdx_iff_getElem?.mp (horder.mem_iff.mp hmem)
    rw [Array.getElem?_toList] at hbyte
    exact (congrArg (·.getD 0) hbyte).symm
  have hfold : carryOut order done =
      (order.map Prod.snd).foldl (fun done i => done.setIfInBounds i (byteAt i)) done := by
    unfold carryOut
    rw [List.foldl_map]
    exact List.foldl_ext _ _ _ fun done write hmem => by rw [hwrite write hmem]
  have hplaces : ∀ i < done.size, i ∈ order.map Prod.snd := by
    intro i hi
    have hperm := horder.map Prod.snd
    rw [List.zipIdx_map_snd] at hperm
    exact hperm.mem_iff.mpr (by simpa [hsize] using hi)
  have hbytes : (List.range bytes.size).map byteAt = bytes.toList := by
    refine List.ext_getElem (by simp) fun i hi _ => ?_
    have hlt : i < bytes.size := by simpa using hi
    simp [byteAt, hlt]
  apply Array.toList_inj.mp
  rw [hfold, toList_foldl_set byteAt hplaces, hsize, hbytes]

end Writes

theorem take_eq_take {α : Type} {a b : Array α} {n : Nat} (h : ∀ i < n, a[i]? = b[i]?) :
    a.toList.take n = b.toList.take n := by
  refine List.ext_getElem? fun i => ?_
  rw [List.getElem?_take, List.getElem?_take, Array.getElem?_toList, Array.getElem?_toList]
  split_ifs with hi
  · exact h i hi
  · rfl

theorem le_size_of_getElem? {α : Type} {a b : Array α} {n : Nat} (h : ∀ i < n, a[i]? = b[i]?)
    (hb : n ≤ b.size) : n ≤ a.size := by
  by_contra hshort
  have hlast := h a.size (by omega)
  rw [Array.getElem?_eq_none le_rfl, Array.getElem?_eq_getElem (by omega)] at hlast
  cases hlast

/-- There is a value for every pixel, and it is one of those that are drawn. -/
theorem exists_value {α : Type} {values : Array α} {width height row column : Nat}
    (hfull : height * width ≤ values.size) (hrow : row < height) (hcolumn : column < width) :
    ∃ v, values[row * width + column]? = some v ∧
      (values.toList.take (height * width))[row * width + column]? = some v := by
  have hplace : row * width + column < height * width :=
    Grid.cell_lt (⟨row, hrow⟩ : Fin height) (⟨column, hcolumn⟩ : Fin width)
  have hvalue := Array.getElem?_eq_getElem (hplace.trans_le hfull)
  refine ⟨_, hvalue, ?_⟩
  rw [List.getElem?_take_of_lt hplace, Array.getElem?_toList, hvalue]

section Draw

variable {R : Type} [Sub R] [Div R] [NatCast R] [LE R] [DecidableLE R] [LT R] [DecidableLT R]
  [Extended R]

/-- An image of the given values is drawn by one task to a row, however sizes are held. Tasks may
run in any order, and even their single writes may be mixed, for no two of them go to one place. -/
structure DrawnByRows (color : R → Color) (values : Array R) (low high : R) (width height : Nat)
    (bytes : Array UInt8) : Prop where
  size_eq : bytes.size = 3 * (width * height)
  pixel_eq : ∀ row < height, ∀ column < width, ∃ v, values[row * width + column]? = some v ∧
    bytes[3 * (row * width + column)]? = some (color (normalized low high v)).r ∧
    bytes[3 * (row * width + column) + 1]? = some (color (normalized low high v)).g ∧
    bytes[3 * (row * width + column) + 2]? = some (color (normalized low high v)).b
  in_any_order : ∀ (sizes : Sizes) (arrange : List Nat → List Nat),
    (arrange (List.range height)).Perm (List.range height) →
      renderGridIn arrange color values low high width height sizes = .ok bytes
  unread : ∀ (sizes : Sizes) (others : Array R), (∀ i < width * height, others[i]? = values[i]?) →
    renderGrid color others low high width height sizes = .ok bytes
  exists_task : ∃ task : Nat → List UInt8,
    (∀ (sizes : Sizes), ∀ row < height, ∀ piece : List UInt8, piece.length = 3 * width →
      rowBytes color values low high width row piece sizes = .ok (task row)) ∧
    let writes := (List.range height).flatMap (rowWrites task (3 * width))
    writes.map Prod.snd = List.range (3 * (width * height)) ∧
    ∀ order, order.Perm writes →
      carryOut order (Array.replicate (3 * (width * height)) 0) = bytes

variable (color : R → Color) {values : Array R} (low high : R) {width height : Nat}

theorem getElem?_colorBytes {vs : List R} {v : R} {p : Nat} (h : vs[p]? = some v) :
    (colorBytes color low high vs)[3 * p]? = some (color (normalized low high v)).r ∧
      (colorBytes color low high vs)[3 * p + 1]? = some (color (normalized low high v)).g ∧
      (colorBytes color low high vs)[3 * p + 2]? = some (color (normalized low high v)).b := by
  have hcolors := getElem?_flatMap_toList (vs.map fun v => color (position low high v)) p
  rw [← position_eq_normalized]
  rwa [List.flatMap_map, List.getElem?_map, h, Nat.mul_comm] at hcolors

/-- The rows of the image are written without a gap, from the first byte to the last. -/
theorem flatMap_rowWrites_colorBytes (hfull : height * width ≤ values.size) :
    let task (row : Nat) := colorBytes color low high (rowValues values width row)
    (List.range height).flatMap (rowWrites task (3 * width)) =
      (colorBytes color low high (values.toList.take (height * width))).zipIdx := by
  intro task
  have hlength : ∀ row < height, (task row).length = 3 * width := by
    intro row hrow
    rw [length_colorBytes, length_rowValues (le_trans (Nat.mul_le_mul_right _ hrow) hfull)]
  rw [flatMap_rowWrites hlength, ← flatMap_rowValues, colorBytes, List.flatMap_assoc]
  rfl

/-- A table with a value for every pixel is drawn, each row by a task of its own. -/
theorem renderGrid_drawnByRows (hfull : width * height ≤ values.size)
    (hmemory : 8 * values.size < Word.memoryLimit) :
    ∃ bytes, renderGrid color values low high width height = .ok bytes ∧
      DrawnByRows color values low high width height bytes := by
  have hlimit := Word.limit_eq
  have harea : height * width = width * height := Nat.mul_comm _ _
  have hdrawn {others : Array R} (h : width * height ≤ others.size) (sizes : Sizes)
      (arrange : List Nat → List Nat)
      (harrange : (arrange (List.range height)).Perm (List.range height)) :=
    renderGridIn_eq_ok color low high sizes harrange h (by omega)
  let all := values.toList.take (height * width)
  have hall : all.length = width * height := by
    rw [List.length_take, Array.length_toList, harea, Nat.min_eq_left hfull]
  have hsize : (colorBytes color low high all).length = 3 * (width * height) := by
    rw [length_colorBytes, hall]
  refine ⟨_, hdrawn hfull .checked id (.refl _), hsize, ?_, hdrawn hfull, ?_, ?_⟩
  · intro row hlt column hcolumn
    obtain ⟨v, hvalue, hlisted⟩ := exists_value (harea.trans_le hfull) hlt hcolumn
    refine ⟨v, hvalue, ?_⟩
    simpa only [List.getElem?_toArray] using getElem?_colorBytes color low high hlisted
  · intro sizes others hothers
    have hsame := take_eq_take hothers
    rw [← harea] at hsame
    have hothers := hdrawn (le_size_of_getElem? hothers hfull) sizes id (.refl _)
    rwa [hsame] at hothers
  · refine ⟨fun row => colorBytes color low high (rowValues values width row), ?_, ?_⟩
    · intro sizes row hlt piece hpiece
      have hend : (row + 1) * width ≤ height * width := Nat.mul_le_mul_right _ hlt
      exact rowBytes_eq_ok color low high sizes (by omega) (by omega) hpiece
    · dsimp only
      rw [flatMap_rowWrites_colorBytes color low high (harea.trans_le hfull)]
      refine ⟨?_, fun order horder => carryOut_eq horder ?_⟩
      · rw [List.zipIdx_map_snd, hsize, List.range_eq_range']
      · rw [Array.size_replicate, List.size_toArray, hsize]

end Draw

/-- Two rows of three values, and one value more than is drawn. -/
def longTable : Array Float := #[1.0, 2.0, 3.0, 4.0, 5.0, 6.0, 7.0]

theorem renderGrid_drawnByRows_longTable :
    3 * 2 ≤ longTable.size ∧ 8 * longTable.size < Word.memoryLimit ∧
    ∃ bytes, renderGrid (Colormap.color .greys) longTable 1.0 6.0 3 2 = .ok bytes ∧
      DrawnByRows (Colormap.color .greys) longTable 1.0 6.0 3 2 bytes :=
  ⟨by decide, by decide, renderGrid_drawnByRows _ _ _ (by decide) (by decide)⟩

end CenterOfMass
