import CenterOfMass.Proofs.Maps.Mask
import CenterOfMass.Proofs.Numeric.Single

namespace CenterOfMass

section Distance

variable {R : Type} [Add R] [Sub R] [Mul R] [NatCast R]

/-- The squared distance of a pixel from the center. -/
def squaredDistance (cy cx : R) (i j : Nat) : R :=
  (Nat.cast i - cy) * (Nat.cast i - cy) + (Nat.cast j - cx) * (Nat.cast j - cx)

end Distance

/-- What it asks of an arithmetic that discs can be told from what lies beside them. -/
structure MeasuresDiscs (R : Type) [Add R] [Sub R] [Mul R] [NatCast R] [LE R] [Extended R] :
    Prop where
  add_comm (a b : R) : a + b = b + a
  le_trans {a b c : R} : a ≤ b → b ≤ c → a ≤ c
  mul_self_le_mul_self {a b : R} : Nat.cast 0 ≤ a → a ≤ b → a * a ≤ b * b
  isNaN_squaredDistance {cy cx : R} {i j : Nat} : Extended.isFinite cy = true →
    Extended.isFinite cx = true → i < 2 ^ 24 → j < 2 ^ 24 →
    Extended.isNaN (squaredDistance cy cx i j) = false
  le_infinity_mul_self {a : R} : Extended.isNaN a = false →
    a ≤ Extended.infinity * Extended.infinity

theorem measuresDiscs_double : MeasuresDiscs Float where
  add_comm := double_add_comm
  le_trans := ordersNumbers_double.le_trans
  mul_self_le_mul_self {a b} ha hab := by
    rw [double_le_iff_number] at ha hab ⊢
    rw [number_mul, number_mul]
    exact Exact.rounded_mono (Exact.mul_self_mono ha hab)
  isNaN_squaredDistance {cy cx i j} hcy hcx hi hj := by
    have hside {c : Float} {k : ℕ} (hc : c.isFinite = true) (hk : k < 2 ^ 24) :
        .finite 0 ≤ number ((Nat.cast k - c) * (Nat.cast k - c)) := by
      have hnumber : number (Nat.cast k - c) ≠ .undefined := by
        rw [number_sub, number_natCast (by omega), number_eq_finite hc, Exact.finite_sub]
        exact Exact.rounded_ne_undefined nofun
      rw [number_mul]
      exact Exact.zero_le_rounded (Exact.zero_le_mul_self hnumber)
    have hsum := Exact.zero_le_rounded (Exact.zero_le_add (hside hcy hi) (hside hcx hj))
    rw [isNaN_eq_number, squaredDistance, number_add]
    exact (Exact.ordersNumbers.isNaN_of_le hsum).2
  le_infinity_mul_self {a} ha := by
    rw [isNaN_eq_number, Exact.isNaN_eq_false_iff] at ha
    rw [double_le_iff_number, number_mul]
    exact Exact.le_infinity ha

section Cells

variable {R : Type} [Add R] [Sub R] [Mul R] [NatCast R] [LE R] [DecidableLE R]

/-- One inside the disc, and zero outside. -/
def discCell (cy cx r : R) (i j : Nat) : Float32 :=
  if squaredDistance cy cx i j ≤ r * r then Nat.cast 1 else Nat.cast 0

theorem build_sum (d : Detector) (cx cy r : R) :
    (⟨.sum, d, cx, cy, r⟩ : MaskSpec R).build Float32 =
      .ofFn d.height d.width fun i j => discCell cy cx r i j := rfl

theorem build_gradientY (d : Detector) (cx cy r : R) :
    (⟨.gradientY, d, cx, cy, r⟩ : MaskSpec R).build Float32 =
      .ofFn d.height d.width fun i j => Nat.cast i.val * discCell cy cx r i j :=
  Grid.zipWith_ofFn (· * ·) d.height d.width (fun i _ => Nat.cast i.val)
    (fun i j => discCell cy cx r i j) rfl

theorem build_gradientX (d : Detector) (cx cy r : R) :
    (⟨.gradientX, d, cx, cy, r⟩ : MaskSpec R).build Float32 =
      .ofFn d.height d.width fun i j => Nat.cast j.val * discCell cy cx r i j :=
  Grid.zipWith_ofFn (· * ·) d.height d.width (fun _ j => Nat.cast j.val)
    (fun i j => discCell cy cx r i j) rfl

theorem discCell_eq_one_iff {cy cx r : R} {i j : Nat} :
    discCell cy cx r i j = Nat.cast 1 ↔ squaredDistance cy cx i j ≤ r * r := by
  have hne : (Nat.cast 0 : Float32) ≠ Nat.cast 1 := by decide
  unfold discCell
  split_ifs with h <;> simp [h, hne]

theorem discCell_eq_one_or_zero (cy cx r : R) (i j : Nat) :
    discCell cy cx r i j = Nat.cast 1 ∨ discCell cy cx r i j = Nat.cast 0 := by
  unfold discCell
  split_ifs
  · exact .inl rfl
  · exact .inr rfl

/-- A row or a column in a mask is exactly what it is in the disc. -/
theorem singleNumber_mul_discCell (cy cx r : R) (i j : Nat) {k : Nat} (hk : k < 2 ^ 24) :
    singleNumber (Nat.cast k * discCell cy cx r i j) =
      Nat.cast k * singleNumber (discCell cy cx r i j) := by
  have hone : singleNumber (Nat.cast 1) = Nat.cast 1 := singleNumber_natCast (by norm_num)
  have hzero : singleNumber (Nat.cast 0) = Nat.cast 0 := singleNumber_natCast (by norm_num)
  rcases discCell_eq_one_or_zero cy cx r i j with h | h <;> rw [h]
  · rw [natCast_mul_one_single hk, singleNumber_natCast hk, hone]
    simp
  · rw [natCast_mul_zero_single hk, hzero]
    simp

/-- The masks as they are built, in order. -/
def Masks.built (masks : Masks R) : List (Grid Float32) :=
  masks.toList.map (MaskSpec.build Float32)

theorem built_ofDisc (h w : Nat) (cx cy r : R) : (Masks.ofDisc ⟨h, w⟩ cx cy r).built =
    [.ofFn h w fun i j => discCell cy cx r i j,
      .ofFn h w fun i j => Nat.cast i.val * discCell cy cx r i j,
      .ofFn h w fun i j => Nat.cast j.val * discCell cy cx r i j] := by
  have hdisc := build_sum ⟨h, w⟩ cx cy r
  have hrows := build_gradientY ⟨h, w⟩ cx cy r
  have hcolumns := build_gradientX ⟨h, w⟩ cx cy r
  simp only [Masks.built, Masks.toList, Masks.ofDisc, List.map_cons, List.map_nil, hdisc, hrows,
    hcolumns]

theorem map_built_ofSignal (h w : Nat) (cx cy r : R) :
    (Masks.ofSignal [h, w] cx cy r).map Masks.built =
      .ok (Masks.ofDisc ⟨h, w⟩ cx cy r).built := rfl

/-- The masks of a disc on a detector: the disc, and in it the rows and the columns. -/
structure DiscMasks [Extended R] (h w : Nat) (cx cy r : R) (disc rows columns : Grid Float32) :
    Prop where
  shape_eq : disc.shape = (h, w) ∧ rows.shape = (h, w) ∧ columns.shape = (h, w)
  disc_eq : ∀ i < h, ∀ j < w, disc.get? i j =
    some (if squaredDistance cy cx i j ≤ r * r then Nat.cast 1 else Nat.cast 0)
  rows_eq : ∀ i j x, disc.get? i j = some x → rows.get? i j = some (Nat.cast i * x) ∧
    singleNumber (Nat.cast i * x) = Nat.cast i * singleNumber x
  columns_eq : ∀ i j x, disc.get? i j = some x → columns.get? i j = some (Nat.cast j * x) ∧
    singleNumber (Nat.cast j * x) = Nat.cast j * singleNumber x
  unlimited : r = Extended.infinity → ∀ i < h, ∀ j < w, disc.get? i j = some (Nat.cast 1)

end Cells

section Discs

variable {R : Type} [Add R] [Sub R] [Mul R] [NatCast R] [LE R] [DecidableLE R] [Extended R]
  {h w : Nat} {cx cy r r' : R}

theorem held_of_le (hh : h ≤ 2 ^ 24) (hw : w ≤ 2 ^ 24) :
    Detector.held ⟨h, w⟩ = .ok ⟨h, w⟩ := by
  have hlimit : 2 ^ 24 * (2 ^ 24 * 4) < Word.memoryLimit := by decide
  have harea : h * (w * 4) ≤ 2 ^ 24 * (2 ^ 24 * 4) :=
    Nat.mul_le_mul hh (Nat.mul_le_mul_right 4 hw)
  have hsides : max h 1 * (max w 1 * 1) ≤ 2 ^ 24 * (2 ^ 24 * 4) :=
    Nat.mul_le_mul (by omega) (by omega)
  apply if_pos
  simp only [Word.isHeld, List.foldr_cons, List.foldr_nil, Bool.and_eq_true]
  exact ⟨decide_eq_true (by omega), decide_eq_true (by omega)⟩

theorem get?_cells (f : Nat → Nat → Float32) {i j : Nat} (hi : i < h) (hj : j < w) :
    (Grid.ofFn h w fun i j => f i j).get? i j = some (f i j) := Grid.get?_ofFn _ ⟨i, hi⟩ ⟨j, hj⟩

theorem eq_of_get?_cells {f : Nat → Nat → Float32} {i j : Nat} {x : Float32}
    (hx : (Grid.ofFn h w fun i j => f i j).get? i j = some x) : i < h ∧ j < w ∧ x = f i j := by
  obtain ⟨hi, hj⟩ := Grid.lt_of_get? hx
  exact ⟨hi, hj, Option.some.inj (hx.symm.trans (get?_cells f hi hj))⟩

namespace MeasuresDiscs

variable (laws : MeasuresDiscs R)

include laws

/-- Nothing lies beside an unlimited disc. -/
theorem discCell_infinity (hcx : Extended.isFinite cx = true) (hcy : Extended.isFinite cy = true)
    {i j : Nat} (hi : i < 2 ^ 24) (hj : j < 2 ^ 24) :
    discCell cy cx Extended.infinity i j = Nat.cast 1 :=
  discCell_eq_one_iff.mpr
    (laws.le_infinity_mul_self (laws.isNaN_squaredDistance hcy hcx hi hj))

theorem discCell_of_le (hr : Nat.cast 0 ≤ r) (hle : r ≤ r') {i j : Nat}
    (h : discCell cy cx r i j = Nat.cast 1) : discCell cy cx r' i j = Nat.cast 1 :=
  discCell_eq_one_iff.mpr
    (laws.le_trans (discCell_eq_one_iff.mp h) (laws.mul_self_le_mul_self hr hle))

theorem discCell_exchange (cy cx r : R) (i j : Nat) :
    discCell cx cy r i j = discCell cy cx r j i := by
  unfold discCell squaredDistance
  rw [laws.add_comm]

theorem discMasks (hh : h ≤ 2 ^ 24) (hw : w ≤ 2 ^ 24) (hcx : Extended.isFinite cx = true)
    (hcy : Extended.isFinite cy = true) : DiscMasks h w cx cy r
      (.ofFn h w fun i j => discCell cy cx r i j)
      (.ofFn h w fun i j => Nat.cast i.val * discCell cy cx r i j)
      (.ofFn h w fun i j => Nat.cast j.val * discCell cy cx r i j) where
  shape_eq := ⟨rfl, rfl, rfl⟩
  disc_eq i hi j hj := get?_cells (discCell cy cx r) hi hj
  rows_eq i j x hx := by
    obtain ⟨hi, hj, rfl⟩ := eq_of_get?_cells (f := discCell cy cx r) hx
    exact ⟨get?_cells (fun i j => Nat.cast i * discCell cy cx r i j) hi hj,
      singleNumber_mul_discCell cy cx r i j (hi.trans_le hh)⟩
  columns_eq i j x hx := by
    obtain ⟨hi, hj, rfl⟩ := eq_of_get?_cells (f := discCell cy cx r) hx
    exact ⟨get?_cells (fun i j => Nat.cast j * discCell cy cx r i j) hi hj,
      singleNumber_mul_discCell cy cx r i j (hj.trans_le hw)⟩
  unlimited hr i hi j hj := by
    rw [get?_cells (discCell cy cx r) hi hj, hr,
      laws.discCell_infinity hcx hcy (hi.trans_le hh) (hj.trans_le hw)]

end MeasuresDiscs

/-- The three masks of a disc on a detector whose rows and columns have numbers in single precision.
A greater radius only adds pixels, and leaves all masks as they are where the smaller disc is. Over
exchanged axes the row and the column masks exchange. -/
theorem built_masks (laws : MeasuresDiscs R) (hh : h ≤ 2 ^ 24) (hw : w ≤ 2 ^ 24)
    (hcx : Extended.isFinite cx = true) (hcy : Extended.isFinite cy = true)
    (hr : Nat.cast 0 ≤ r) :
    Detector.held ⟨h, w⟩ = .ok ⟨h, w⟩ ∧
    ∃ disc rows columns : Grid Float32,
      (Masks.ofSignal [h, w] cx cy r).map Masks.built = .ok [disc, rows, columns] ∧
      DiscMasks h w cx cy r disc rows columns ∧
      (∀ r', r ≤ r' → ∃ disc' rows' columns',
        (Masks.ofSignal [h, w] cx cy r').map Masks.built = .ok [disc', rows', columns'] ∧
        ∀ i j, disc.get? i j = some (Nat.cast 1) → disc'.get? i j = some (Nat.cast 1) ∧
          rows'.get? i j = rows.get? i j ∧ columns'.get? i j = columns.get? i j) ∧
      (Masks.ofSignal [w, h] cy cx r).map Masks.built =
        .ok [disc.transpose, columns.transpose, rows.transpose] := by
  refine ⟨held_of_le hh hw, _, _, _, congrArg Except.ok (built_ofDisc h w cx cy r),
    laws.discMasks hh hw hcx hcy, ?_, ?_⟩
  · intro r' hle
    refine ⟨_, _, _, congrArg Except.ok (built_ofDisc h w cx cy r'), ?_⟩
    intro i j hone
    obtain ⟨hi, hj, hcell⟩ := eq_of_get?_cells (f := discCell cy cx r) hone
    have hkept := laws.discCell_of_le hr hle hcell.symm
    have hsame := hkept.trans hcell
    refine ⟨(get?_cells (discCell cy cx r') hi hj).trans (congrArg some hkept), ?_, ?_⟩
    · rw [get?_cells (fun i j => Nat.cast i * discCell cy cx r' i j) hi hj,
        get?_cells (fun i j => Nat.cast i * discCell cy cx r i j) hi hj, hsame]
    · rw [get?_cells (fun i j => Nat.cast j * discCell cy cx r' i j) hi hj,
        get?_cells (fun i j => Nat.cast j * discCell cy cx r i j) hi hj, hsame]
  · rw [map_built_ofSignal, built_ofDisc]
    simp only [Grid.transpose_ofFn, laws.discCell_exchange cy cx r]

end Discs

/-- A detector of more columns than rows, with a disc around a place between its pixels. -/
theorem built_masks_offCenter :
    MeasuresDiscs Float ∧ 2 ≤ 2 ^ 24 ∧ 3 ≤ 2 ^ 24 ∧ Extended.isFinite (1.5 : Float) = true ∧
    Extended.isFinite (0.25 : Float) = true ∧ (Nat.cast 0 : Float) ≤ 1.0 ∧
    ∃ disc rows columns : Grid Float32,
      (Masks.ofSignal [2, 3] (1.5 : Float) 0.25 1.0).map Masks.built =
        .ok [disc, rows, columns] ∧
      DiscMasks 2 3 (1.5 : Float) 0.25 1.0 disc rows columns ∧
      (Masks.ofSignal [3, 2] (0.25 : Float) 1.5 1.0).map Masks.built =
        .ok [disc.transpose, columns.transpose, rows.transpose] := by
  have hcx : Extended.isFinite (1.5 : Float) = true := by decide
  have hcy : Extended.isFinite (0.25 : Float) = true := by decide
  have hr : (Nat.cast 0 : Float) ≤ 1.0 := by decide
  obtain ⟨-, disc, rows, columns, hbuilt, hmasks, -, hexchanged⟩ :=
    built_masks measuresDiscs_double (h := 2) (w := 3) (by norm_num) (by norm_num) hcx hcy hr
  exact ⟨measuresDiscs_double, by norm_num, by norm_num, hcx, hcy, hr, disc, rows, columns, hbuilt,
    hmasks, hexchanged⟩

end CenterOfMass
