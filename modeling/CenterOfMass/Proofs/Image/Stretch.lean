import CenterOfMass.Proofs.Image.Range
import CenterOfMass.Proofs.Numeric.DoubleExact

namespace CenterOfMass

/-- What it asks of an arithmetic that values can be stretched over a colormap. -/
structure Stretches (R : Type) [Sub R] [Div R] [NatCast R] [LE R] [LT R] [Extended R] : Prop
    extends OrdersNumbers R where
  isFinite_zero : Extended.isFinite (Nat.cast 0 : R) = true
  zero_le_one : (Nat.cast 0 : R) ≤ Nat.cast 1
  sub_le_sub {a b c : R} : Extended.isFinite c = true → a ≤ b → a - c ≤ b - c
  sub_pos {a b : R} : Extended.isFinite a = true → Extended.isFinite b = true → a < b →
    Nat.cast 0 < b - a
  sub_self {a : R} : Extended.isFinite a = true → a - a = Nat.cast 0
  div_le_div {a b c : R} : Nat.cast 0 < c → Extended.isFinite c = true → a ≤ b → a / c ≤ b / c
  zero_div {a : R} : Nat.cast 0 < a → Extended.isFinite a = true → Nat.cast 0 / a = Nat.cast 0
  div_self {a : R} : Nat.cast 0 < a → Extended.isFinite a = true → a / a = Nat.cast 1

theorem stretches_double : Stretches Float where
  toOrdersNumbers := ordersNumbers_double
  isFinite_zero := rfl
  zero_le_one := by decide
  sub_le_sub {a b c} hc h := by
    rw [double_le_iff_number] at h ⊢
    rw [number_sub, number_sub, number_eq_finite hc]
    exact Exact.rounded_mono (Exact.sub_le_sub h _)
  sub_pos := double_sub_pos
  sub_self := double_sub_self
  div_le_div {a b c} hpos hc h := by
    rw [double_lt_iff_number, number_zero, number_eq_finite hc, Exact.finite_lt_finite] at hpos
    have hzero : number c ≠ .finite 0 := by
      rw [number_eq_finite hc]
      exact fun h => hpos.ne' (Exact.finite.inj h)
    rw [double_le_iff_number] at h ⊢
    rw [number_div a hzero, number_div b hzero, number_eq_finite hc]
    exact Exact.rounded_mono (Exact.div_le_div h hpos)
  zero_div hpos ha := double_zero_div ha hpos
  div_self hpos ha := double_div_self ha hpos

section Position

variable {R : Type} [Scalar R] {low high v w x : R}

theorem clampUnit_eq_self (order : OrdersNumbers R) (hzero : Nat.cast 0 ≤ x)
    (hone : x ≤ Nat.cast 1) : clampUnit x = x := by
  unfold clampUnit
  rw [if_neg (order.not_lt_of_le hzero)]
  exact if_neg (order.not_lt_of_le hone)

/-- Bounds with a finite distance between them. -/
def Spreads (low high : R) : Prop := low < high ∧ Extended.isFinite (high - low) = true

theorem position_of_not_finite (h : Extended.isFinite v = false) :
    position low high v = Nat.cast 0 := by
  simp [position, h]

namespace Stretches

variable (laws : Stretches R)

include laws

theorem position_of_not_spreads (hlow : Extended.isFinite low = true)
    (hhigh : Extended.isFinite high = true) (h : ¬ Spreads low high) :
    position low high v = Nat.cast 0 := by
  have hnarrow : high - low ≤ Nat.cast 0 ∨ Extended.isFinite (high - low) = false := by
    by_cases hlt : low < high
    · exact .inr (Bool.eq_false_iff.mpr fun hrange => h ⟨hlt, hrange⟩)
    · have hle : high ≤ low := laws.le_of_not_lt (laws.isNaN_of_isFinite hlow)
        (laws.isNaN_of_isFinite hhigh) hlt
      exact .inl (laws.sub_self hlow ▸ laws.sub_le_sub hlow hle)
  rcases hnarrow with hnarrow | hrange
  · simp [position, hnarrow]
  · simp [position, hrange]

theorem fraction_le_fraction (hlow : Extended.isFinite low = true)
    (hhigh : Extended.isFinite high = true) (h : Spreads low high) (hvw : v ≤ w) :
    (v - low) / (high - low) ≤ (w - low) / (high - low) :=
  laws.div_le_div (laws.sub_pos hlow hhigh h.1) h.2 (laws.sub_le_sub hlow hvw)

/-- Between the bounds nothing has to be cut off. -/
theorem position_of_spreads (hlow : Extended.isFinite low = true)
    (hhigh : Extended.isFinite high = true) (h : Spreads low high)
    (hv : Extended.isFinite v = true) (hlv : low ≤ v) (hvh : v ≤ high) :
    position low high v = (v - low) / (high - low) ∧ Nat.cast 0 ≤ position low high v ∧
      position low high v ≤ Nat.cast 1 := by
  have hpos := laws.sub_pos hlow hhigh h.1
  have hzero := laws.fraction_le_fraction hlow hhigh h hlv
  have hone := laws.fraction_le_fraction hlow hhigh h hvh
  rw [laws.sub_self hlow, laws.zero_div hpos h.2] at hzero
  rw [laws.div_self hpos h.2] at hone
  have hwide : ¬ high - low ≤ Nat.cast 0 := (laws.lt_iff.mp hpos).2
  have hposition : position low high v = (v - low) / (high - low) := by
    rw [← clampUnit_eq_self laws.toOrdersNumbers hzero hone]
    simp [position, hv, hwide, h.2]
  rw [hposition]
  exact ⟨rfl, hzero, hone⟩

theorem position_low (hlow : Extended.isFinite low = true) (hhigh : Extended.isFinite high = true)
    (h : Spreads low high) : position low high low = Nat.cast 0 := by
  have hself := laws.le_refl (laws.isNaN_of_isFinite hlow)
  have hle := (laws.lt_iff.mp h.1).1
  rw [(laws.position_of_spreads hlow hhigh h hlow hself hle).1, laws.sub_self hlow,
    laws.zero_div (laws.sub_pos hlow hhigh h.1) h.2]

theorem position_high (hlow : Extended.isFinite low = true) (hhigh : Extended.isFinite high = true)
    (h : Spreads low high) : position low high high = Nat.cast 1 := by
  have hself := laws.le_refl (laws.isNaN_of_isFinite hhigh)
  have hle := (laws.lt_iff.mp h.1).1
  rw [(laws.position_of_spreads hlow hhigh h hhigh hle hself).1,
    laws.div_self (laws.sub_pos hlow hhigh h.1) h.2]

end Stretches

end Position

/-- The finite values of a table lie from zero to one as they lie in the table, the least at zero
and the greatest at one. What is not finite lies at zero, and so does everything where no finite
distance can be divided. -/
structure Stretched {R : Type} [Scalar R] (value : R → Prop) (low high : R) (place : R → R) :
    Prop where
  isNaN_eq : ∀ v, value v → Extended.isNaN (place v) = false
  zero_le : ∀ v, value v → Nat.cast 0 ≤ place v
  le_one : ∀ v, value v → place v ≤ Nat.cast 1
  least : Spreads low high → place low = Nat.cast 0
  greatest : Spreads low high → place high = Nat.cast 1
  mono : ∀ a b, value a → value b → Extended.isFinite a = true → Extended.isFinite b = true →
    a ≤ b → place a ≤ place b
  not_finite : ∀ v, Extended.isFinite v = false → place v = Nat.cast 0
  flat : ¬ Spreads low high → ∀ v, place v = Nat.cast 0

section Stretch

variable {R : Type} [Scalar R] (laws : Stretches R) {value : R → Prop} {low high : R}

include laws

theorem Stretches.isFinite_of_isRange
    (h : IsRange (fun v => Extended.isFinite v = true ∧ value v) low high) :
    Extended.isFinite low = true ∧ Extended.isFinite high = true := by
  rcases h with ⟨-, rfl, rfl⟩ | ⟨hlow, hhigh⟩
  · exact ⟨laws.isFinite_zero, laws.isFinite_zero⟩
  · exact ⟨hlow.1.1, hhigh.1.1⟩

theorem Stretches.bounds_of_isRange
    (h : IsRange (fun v => Extended.isFinite v = true ∧ value v) low high) {v : R}
    (hfinite : Extended.isFinite v = true) (hv : value v) : low ≤ v ∧ v ≤ high := by
  have hnumber := laws.isNaN_of_isFinite hfinite
  rcases h with ⟨hnone, -, -⟩ | ⟨hlow, hhigh⟩
  · exact absurd ⟨hfinite, hv⟩ (hnone v)
  · exact ⟨laws.le_of_not_lt hnumber (laws.isNaN_of_isFinite hlow.1.1) (hlow.2 v ⟨hfinite, hv⟩),
      laws.le_of_not_lt (laws.isNaN_of_isFinite hhigh.1.1) hnumber (hhigh.2 v ⟨hfinite, hv⟩)⟩

/-- No value goes beyond the ends of the colormap. -/
theorem Stretches.position_mem_unit
    (h : IsRange (fun v => Extended.isFinite v = true ∧ value v) low high) {v : R} (hv : value v) :
    Nat.cast 0 ≤ position low high v ∧ position low high v ≤ Nat.cast 1 := by
  obtain ⟨hlow, hhigh⟩ := laws.isFinite_of_isRange h
  have hzero := laws.le_refl (laws.isNaN_of_isFinite laws.isFinite_zero)
  by_cases hspreads : Spreads low high
  · by_cases hfinite : Extended.isFinite v = true
    · obtain ⟨hlv, hvh⟩ := laws.bounds_of_isRange h hfinite hv
      exact (laws.position_of_spreads hlow hhigh hspreads hfinite hlv hvh).2
    · rw [position_of_not_finite (Bool.eq_false_iff.mpr hfinite)]
      exact ⟨hzero, laws.zero_le_one⟩
  · rw [laws.position_of_not_spreads hlow hhigh hspreads]
    exact ⟨hzero, laws.zero_le_one⟩

theorem Stretches.stretched_position
    (h : IsRange (fun v => Extended.isFinite v = true ∧ value v) low high) :
    Stretched value low high (position low high) := by
  obtain ⟨hlow, hhigh⟩ := laws.isFinite_of_isRange h
  refine ⟨fun v hv => (laws.isNaN_of_le (laws.position_mem_unit h hv).1).2,
    fun v hv => (laws.position_mem_unit h hv).1, fun v hv => (laws.position_mem_unit h hv).2,
    laws.position_low hlow hhigh, laws.position_high hlow hhigh, ?_,
    fun v => position_of_not_finite,
    fun hspreads v => laws.position_of_not_spreads hlow hhigh hspreads⟩
  intro a b ha hb hafinite hbfinite hab
  by_cases hspreads : Spreads low high
  · obtain ⟨hla, hah⟩ := laws.bounds_of_isRange h hafinite ha
    obtain ⟨hlb, hbh⟩ := laws.bounds_of_isRange h hbfinite hb
    rw [(laws.position_of_spreads hlow hhigh hspreads hafinite hla hah).1,
      (laws.position_of_spreads hlow hhigh hspreads hbfinite hlb hbh).1]
    exact laws.fraction_le_fraction hlow hhigh hspreads hab
  · rw [laws.position_of_not_spreads hlow hhigh hspreads,
      laws.position_of_not_spreads hlow hhigh hspreads]
    exact laws.le_refl (laws.isNaN_of_isFinite laws.isFinite_zero)

end Stretch

/-- An image of as many pixels as there are values, each in the color of its place between the
bounds. -/
def stretchedImage {R : Type} [Scalar R] (map : Colormap) (values : List R) (place : R → R)
    (width height : Nat) : Image :=
  ⟨width, height, (values.flatMap fun v => (map.color (place v)).toList).toArray⟩

/-- Without logarithms a table of any values is drawn, and each value in the color of a place from
zero to one: the finite values between the least and the greatest of them. -/
theorem visualize_stretched {R : Type} [Scalar R] (laws : Stretches R) (map : Colormap)
    {values : Array R} {width height : Nat} (hsize : values.size = width * height)
    (hmemory : 8 * values.size < Word.memoryLimit) :
    ∃ low high : R, IsRange (fun v => Extended.isFinite v = true ∧ v ∈ values.toList) low high ∧
      Stretched (· ∈ values.toList) low high (position low high) ∧
      visualize map false values width height =
        .ok (stretchedImage map values.toList (position low high) width height) := by
  have hrange := isRange_colorRange laws.ordersFinite values
  exact ⟨_, _, hrange, laws.stretched_position hrange,
    visualize_eq_ok map false hsize (by omega) .checked⟩

/-- A table of two rows, of which only half of the values are finite. -/
def brokenTable : Array Float := #[3.0, Extended.infinity, -1.0, 0.0 / 0.0]

theorem visualize_stretched_brokenTable :
    Stretches Float ∧ brokenTable.size = 2 * 2 ∧ 8 * brokenTable.size < Word.memoryLimit ∧
    ∃ low high : Float,
      IsRange (fun v => Extended.isFinite v = true ∧ v ∈ brokenTable.toList) low high ∧
      Stretched (· ∈ brokenTable.toList) low high (position low high) ∧
      visualize .greys false brokenTable 2 2 =
        .ok (stretchedImage .greys brokenTable.toList (position low high) 2 2) :=
  ⟨stretches_double, rfl, by decide,
    visualize_stretched stretches_double .greys rfl (by decide)⟩

end CenterOfMass
