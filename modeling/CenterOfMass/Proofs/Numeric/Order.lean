import CenterOfMass.Proofs.Numeric.Exact
import Mathlib

namespace CenterOfMass

/-- The numbers of an arithmetic lie on a line, on which there is no place for what is no number. -/
structure OrdersNumbers (R : Type) [LE R] [LT R] [Extended R] : Prop where
  isNaN_of_isFinite {a : R} : Extended.isFinite a = true → Extended.isNaN a = false
  isNaN_of_le {a b : R} : a ≤ b → Extended.isNaN a = false ∧ Extended.isNaN b = false
  le_trans {a b c : R} : a ≤ b → b ≤ c → a ≤ c
  le_total {a b : R} : Extended.isNaN a = false → Extended.isNaN b = false → a ≤ b ∨ b ≤ a
  lt_iff {a b : R} : a < b ↔ a ≤ b ∧ ¬ b ≤ a
  isFinite_of_le {a b c : R} : Extended.isFinite a = true → Extended.isFinite c = true → a ≤ b →
    b ≤ c → Extended.isFinite b = true

namespace OrdersNumbers

variable {R : Type} [LE R] [LT R] [Extended R] (order : OrdersNumbers R) {a b c : R}

include order

theorem le_refl (ha : Extended.isNaN a = false) : a ≤ a := or_self_iff.mp (order.le_total ha ha)

theorem le_of_not_lt (ha : Extended.isNaN a = false) (hb : Extended.isNaN b = false)
    (h : ¬ a < b) : b ≤ a := by
  rcases order.le_total ha hb with hle | hle
  · by_contra hba
    exact h (order.lt_iff.mpr ⟨hle, hba⟩)
  · exact hle

theorem lt_asymm (h : a < b) : ¬ b < a := fun h' => (order.lt_iff.mp h).2 (order.lt_iff.mp h').1

/-- Two numbers that lie apart are not both beside a third. -/
theorem lt_or_lt (hc : Extended.isNaN c = false) (h : a < b) : a < c ∨ c < b := by
  obtain ⟨hab, hba⟩ := order.lt_iff.mp h
  obtain ⟨ha, hb⟩ := order.isNaN_of_le hab
  by_contra hnone
  obtain ⟨hac, hcb⟩ := not_or.mp hnone
  exact hba (order.le_trans (order.le_of_not_lt hc hb hcb) (order.le_of_not_lt ha hc hac))

theorem not_lt_of_le (h : a ≤ b) : ¬ b < a := fun hlt => (order.lt_iff.mp hlt).2 h

/-- Numbers are in the order of those that they stand for. -/
theorem of_embedding {S : Type} [LE S] [LT S] [Extended S] (f : S → R)
    (hle : ∀ {a b : S}, a ≤ b ↔ f a ≤ f b) (hlt : ∀ {a b : S}, a < b ↔ f a < f b)
    (hnan : ∀ a : S, Extended.isNaN a = Extended.isNaN (f a))
    (hfinite : ∀ a : S, Extended.isFinite a = Extended.isFinite (f a)) : OrdersNumbers S where
  isNaN_of_isFinite {a} h := by
    rw [hnan]
    exact order.isNaN_of_isFinite ((hfinite a).symm.trans h)
  isNaN_of_le {a b} h := by
    rw [hnan, hnan]
    exact order.isNaN_of_le (hle.mp h)
  le_trans hab hbc := hle.mpr (order.le_trans (hle.mp hab) (hle.mp hbc))
  le_total {a b} ha hb := by
    rw [hle, hle]
    exact order.le_total ((hnan a).symm.trans ha) ((hnan b).symm.trans hb)
  lt_iff {a b} := by
    rw [hlt, hle, hle]
    exact order.lt_iff
  isFinite_of_le {a b c} ha hc hab hbc := by
    rw [hfinite] at ha hc ⊢
    exact order.isFinite_of_le ha hc (hle.mp hab) (hle.mp hbc)

end OrdersNumbers

namespace Exact

variable {K : Type}

section Line

/-- Where a number stands on the line, unlimited numbers at its ends. -/
def place : Exact K → WithBot (WithTop K)
  | finite x => ((x : WithTop K) : WithBot (WithTop K))
  | infinite false => ((⊤ : WithTop K) : WithBot (WithTop K))
  | infinite true => ⊥
  | undefined => ⊥

variable [LinearOrder K] {a b : Exact K}

theorem le_iff_place : a ≤ b ↔ a ≠ undefined ∧ b ≠ undefined ∧ place a ≤ place b := by
  change a.le b = true ↔ _
  rcases a with x | (_ | _) | _ <;> rcases b with y | (_ | _) | _ <;> simp [le, place]

theorem lt_iff_place : a < b ↔ a ≠ undefined ∧ b ≠ undefined ∧ place a < place b := by
  change a.lt b = true ↔ _
  rcases a with x | (_ | _) | _ <;> rcases b with y | (_ | _) | _ <;> simp [lt, place]
  case finite.infinite.false => exact WithBot.coe_lt_coe.mpr (WithTop.coe_lt_top x)

theorem le_iff_not_lt : a ≤ b ↔ a ≠ undefined ∧ b ≠ undefined ∧ ¬ b < a := by
  rw [le_iff_place, lt_iff_place, ← not_lt]
  tauto

theorem eq_infinite_of_le {x : K} (h : finite x ≤ a) (ha : Extended.isFinite a = false) :
    a = infinite false := by
  rcases a with y | (_ | _) | _
  · cases ha
  · rfl
  · cases h
  · cases h

theorem isNaN_eq_false_iff : Extended.isNaN a = false ↔ a ≠ undefined := decide_eq_false_iff_not

theorem ordersNumbers : OrdersNumbers (Exact K) where
  isNaN_of_isFinite {a} h := by
    obtain ⟨x, rfl⟩ := exists_eq_finite h
    rfl
  isNaN_of_le {a b} h := by
    rw [isNaN_eq_false_iff, isNaN_eq_false_iff]
    obtain ⟨ha, hb, -⟩ := le_iff_place.mp h
    exact ⟨ha, hb⟩
  le_trans {a b c} hab hbc := by
    obtain ⟨ha, -, hab⟩ := le_iff_place.mp hab
    obtain ⟨-, hc, hbc⟩ := le_iff_place.mp hbc
    exact le_iff_place.mpr ⟨ha, hc, hab.trans hbc⟩
  le_total {a b} ha hb := by
    rw [isNaN_eq_false_iff] at ha hb
    rcases le_total (place a) (place b) with h | h
    · exact .inl (le_iff_place.mpr ⟨ha, hb, h⟩)
    · exact .inr (le_iff_place.mpr ⟨hb, ha, h⟩)
  lt_iff {a b} := by
    rw [lt_iff_place, le_iff_place, le_iff_place, lt_iff_le_not_ge]
    tauto
  isFinite_of_le {a b c} ha hc hab hbc := by
    obtain ⟨x, rfl⟩ := exists_eq_finite ha
    obtain ⟨z, rfl⟩ := exists_eq_finite hc
    rcases b with y | (_ | _) | _
    · rfl
    · cases hbc
    · cases hab
    · cases hab

/-- What keeps the order of the finite numbers, and the unlimited ones in their places, keeps the
order of all. -/
theorem map_le_map {f : Exact K → Exact K} {g : K → K} (hg : Monotone g)
    (hfinite : ∀ x, f (finite x) = finite (g x)) (hinfinite : ∀ s, f (infinite s) = infinite s)
    (h : a ≤ b) : f a ≤ f b := by
  rcases a with x | s | _ <;> rcases b with y | t | _
  case finite.finite =>
    rw [hfinite, hfinite, finite_le_finite]
    exact hg ((finite_le_finite x y).mp h)
  case finite.infinite =>
    rw [hfinite, hinfinite]
    exact h
  case infinite.finite =>
    rw [hinfinite, hfinite]
    exact h
  case infinite.infinite =>
    rw [hinfinite, hinfinite]
    exact h
  all_goals exact absurd h (by simp [LE.le, le])

theorem le_infinity (h : a ≠ undefined) : a ≤ infinite false := by
  rcases a with x | (_ | _) | _
  · rfl
  · rfl
  · rfl
  · exact absurd rfl h

end Line

variable [DivisionRing K] [LinearOrder K] {a b : Exact K}

/-- A number not below zero is limited or lies at the end of the line. -/
theorem zero_le_cases (h : finite 0 ≤ a) : a = infinite false ∨ ∃ x, 0 ≤ x ∧ a = finite x := by
  rcases a with x | (_ | _) | _
  · exact .inr ⟨x, (finite_le_finite 0 x).mp h, rfl⟩
  · exact .inl rfl
  · cases h
  · cases h

variable [IsStrictOrderedRing K]

theorem sub_le_sub (h : a ≤ b) (z : K) : a - finite z ≤ b - finite z :=
  map_le_map (f := (· - finite z)) (fun _ _ hxy => sub_le_sub_right hxy z)
    (fun x => finite_sub x z) (fun _ => rfl) h

theorem add_le_add (h : a ≤ b) (z : K) : a + finite z ≤ b + finite z :=
  map_le_map (f := (· + finite z)) (fun _ _ hxy => add_le_add_left hxy z)
    (fun x => finite_add x z) (fun _ => rfl) h

theorem div_le_div (h : a ≤ b) {z : K} (hz : 0 < z) : a / finite z ≤ b / finite z := by
  refine map_le_map (f := (· / finite z)) (fun _ _ hxy => div_le_div_of_nonneg_right hxy hz.le)
    (fun x => finite_div x hz.ne') (fun s => ?_) h
  have hsign : decide (z < 0) = false := decide_eq_false hz.not_gt
  change infinite (s ^^ decide (z < 0)) = infinite s
  rw [hsign, Bool.xor_false]

theorem mul_self_mono (ha : finite 0 ≤ a) (h : a ≤ b) : a * a ≤ b * b := by
  have hb := ordersNumbers.le_trans ha h
  rcases zero_le_cases ha with rfl | ⟨x, hx, rfl⟩ <;>
    rcases zero_le_cases hb with rfl | ⟨y, -, rfl⟩
  · rfl
  · cases h
  · rfl
  · rw [finite_le_finite] at h
    rw [finite_mul, finite_mul, finite_le_finite]
    exact mul_le_mul h h hx (hx.trans h)

theorem zero_le_mul_self (h : a ≠ undefined) : finite 0 ≤ a * a := by
  rcases a with x | (_ | _) | _
  · rw [finite_mul, finite_le_finite]
    exact mul_self_nonneg x
  · rfl
  · rfl
  · exact absurd rfl h

theorem zero_le_add (ha : finite 0 ≤ a) (hb : finite 0 ≤ b) : finite 0 ≤ a + b := by
  rcases zero_le_cases ha with rfl | ⟨x, hx, rfl⟩ <;>
    rcases zero_le_cases hb with rfl | ⟨y, hy, rfl⟩
  · rfl
  · rfl
  · rfl
  · rw [finite_add, finite_le_finite]
    exact add_nonneg hx hy

end Exact

end CenterOfMass
