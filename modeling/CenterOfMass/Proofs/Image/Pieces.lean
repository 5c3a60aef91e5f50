import CenterOfMass.Image.Basic
import Mathlib.Data.List.Basic

namespace CenterOfMass

section Pieces

variable {α : Type} {n : Nat}

theorem chunksOf_nil : chunksOf n ([] : List α) = [] := by simp [chunksOf]

theorem chunksOf_append (hn : 0 < n) {a : List α} (ha : a.length = n) (b : List α) :
    chunksOf n (a ++ b) = a :: chunksOf n b := by
  have hcons : ¬ (n = 0 ∨ (a ++ b).isEmpty = true) := by
    cases a with
    | nil => simp at ha; omega
    | cons => simp; omega
  rw [chunksOf, if_neg hcons, List.take_left' ha, List.drop_left' ha]

theorem flatten_chunksOf (hn : 0 < n) (l : List α) : (chunksOf n l).flatten = l := by
  fun_induction chunksOf n l with
  | case1 l h =>
    rcases h with h | h
    · omega
    · simpa using h.symm
  | case2 l h ih => rw [List.flatten_cons, ih, List.take_append_drop]

theorem length_le_of_mem_chunksOf {l piece : List α} (h : piece ∈ chunksOf n l) :
    piece.length ≤ n := by
  fun_induction chunksOf n l with
  | case1 => simp at h
  | case2 l _ ih =>
    rcases List.mem_cons.mp h with rfl | h
    · exact List.length_take_le n l
    · exact ih h

end Pieces

section Rows

variable {α : Type} {values : Array α} {width : Nat}

/-- The values of a row of a table. -/
def rowValues (values : Array α) (width row : Nat) : List α :=
  (values.extract (row * width) ((row + 1) * width)).toList

theorem length_rowValues {row : Nat} (hrow : (row + 1) * width ≤ values.size) :
    (rowValues values width row).length = width := by
  rw [rowValues, Array.length_toList, Array.size_extract, Nat.min_eq_left hrow, Nat.succ_mul]
  omega

theorem getElem?_rowValues {row x : Nat} (hrow : (row + 1) * width ≤ values.size)
    (hx : x < width) : (rowValues values width row)[x]? = values[row * width + x]? := by
  rw [Nat.succ_mul] at hrow
  have hlt : x < min ((row + 1) * width) values.size - row * width := by
    rw [Nat.succ_mul]
    omega
  rw [rowValues, Array.getElem?_toList, Array.getElem?_extract, if_pos hlt]

/-- Rows one below the other are a piece of the table. -/
theorem flatMap_range'_rowValues {row n : Nat} :
    (List.range' row n).flatMap (rowValues values width) =
      (values.extract (row * width) ((row + n) * width)).toList := by
  induction n generalizing row with
  | zero => simp
  | succ n ih =>
    have hnext : row + (n + 1) = row + 1 + n := by omega
    have hstart : row * width ≤ (row + 1) * width := Nat.mul_le_mul_right _ (Nat.le_succ _)
    have hstop : (row + 1) * width ≤ (row + 1 + n) * width :=
      Nat.mul_le_mul_right _ (Nat.le_add_right _ _)
    rw [List.range'_succ, List.flatMap_cons, ih, hnext, rowValues, ← Array.toList_append,
      Array.extract_append_extract, Nat.min_eq_left hstart, Nat.max_eq_right hstop]

/-- The rows of a table are its values, row after row. -/
theorem flatMap_rowValues {height : Nat} :
    (List.range height).flatMap (rowValues values width) =
      values.toList.take (height * width) := by
  rw [List.range_eq_range', flatMap_range'_rowValues, Nat.zero_mul, Nat.zero_add,
    Array.toList_extract, List.extract_eq_take_drop, List.drop_zero, Nat.sub_zero]

end Rows

theorem exists_toList_append {bytes : List UInt8} {n : Nat} (h : bytes.length = 3 * (n + 1)) :
    ∃ (c : Color) (rest : List UInt8), bytes = c.toList ++ rest ∧ rest.length = 3 * n := by
  rcases bytes with _ | ⟨r, _ | ⟨g, _ | ⟨b, rest⟩⟩⟩
  · simp at h
  · simp at h
    omega
  · simp at h
    omega
  · refine ⟨⟨r, g, b⟩, rest, rfl, ?_⟩
    simp only [List.length_cons] at h
    omega

theorem colorsOf_toList_append (c : Color) (rest : List UInt8) :
    colorsOf (c.toList ++ rest) = c :: colorsOf rest := by
  simp [Color.toList, colorsOf]

/-- Pixels are three bytes long, so a run of whole pixels can be cut off in front. -/
theorem colorsOf_append {a : List UInt8} (b : List UInt8) {n : Nat} (ha : a.length = 3 * n) :
    colorsOf (a ++ b) = colorsOf a ++ colorsOf b := by
  induction n generalizing a with
  | zero =>
    have hnil : a = [] := List.eq_nil_of_length_eq_zero ha
    subst hnil
    rfl
  | succ n ih =>
    obtain ⟨c, rest, rfl, hrest⟩ := exists_toList_append ha
    rw [List.append_assoc, colorsOf_toList_append, colorsOf_toList_append, ih hrest,
      List.cons_append]

/-- No pixel is lost where the bytes are cut between pixels. -/
theorem flatMap_colorsOf_chunksOf {n : Nat} (hn : 0 < n) (bytes : List UInt8) :
    (chunksOf (3 * n) bytes).flatMap colorsOf = colorsOf bytes := by
  fun_induction chunksOf (3 * n) bytes with
  | case1 bytes h =>
    have hnil : bytes = [] := by
      rcases h with h | h
      · omega
      · simpa using h
    subst hnil
    rfl
  | case2 bytes h ih =>
    rw [List.flatMap_cons, ih]
    rcases Nat.le_total (3 * n) bytes.length with hlong | hshort
    · have htake : (bytes.take (3 * n)).length = 3 * n := List.length_take_of_le hlong
      rw [← colorsOf_append _ htake, List.take_append_drop]
    · rw [List.take_of_length_le hshort, List.drop_eq_nil_of_le hshort]
      simp [colorsOf]

theorem length_flatMap_toList (colors : List Color) :
    (colors.flatMap Color.toList).length = 3 * colors.length := by
  induction colors with
  | nil => rfl
  | cons c cs ih =>
    rw [List.flatMap_cons, List.length_append, ih, List.length_cons, Nat.mul_succ, Nat.add_comm]
    rfl

/-- Whole pixels are the bytes of their colors. -/
theorem flatMap_toList_colorsOf {bytes : List UInt8} {n : Nat} (h : bytes.length = 3 * n) :
    (colorsOf bytes).flatMap Color.toList = bytes := by
  induction n generalizing bytes with
  | zero => simp [List.eq_nil_of_length_eq_zero h, colorsOf]
  | succ n ih =>
    obtain ⟨c, rest, rfl, hrest⟩ := exists_toList_append h
    rw [colorsOf_toList_append, List.flatMap_cons, ih hrest]

theorem length_colorsOf (bytes : List UInt8) : (colorsOf bytes).length = bytes.length / 3 := by
  fun_induction colorsOf bytes with
  | case1 r g b rest ih =>
    simp only [List.length_cons, ih]
    omega
  | case2 bytes h =>
    rcases bytes with _ | ⟨r, _ | ⟨g, _ | ⟨b, rest⟩⟩⟩
    · simp
    · simp
    · simp
    · exact absurd rfl (h r g b rest)

end CenterOfMass
