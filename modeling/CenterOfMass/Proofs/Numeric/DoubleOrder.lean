import CenterOfMass.Proofs.Numeric.DoubleValue
import CenterOfMass.Proofs.Numeric.Order
import Mathlib

namespace CenterOfMass

open Float.Model Float.Model.UnpackedFloat

section Unpacked

/-- The number of exact arithmetic that an unpacked double stands for. -/
def Exact.ofUnpacked : UnpackedFloat → Exact
  | .infinity s => .infinite (s == .negative)
  | .notANumber => .undefined
  | u => .finite (value u)

variable {a b : UnpackedFloat}

theorem IsFinite.ofUnpacked_eq (h : IsFinite a) : Exact.ofUnpacked a = .finite (value a) := by
  cases h <;> rfl

/-- A greater exponent outweighs every mantissa, since mantissas above the least exponent are all of
one length. -/
theorem Canonical.value_lt_value {m n : ℕ} {e f : ℤ} (hc : Canonical m e) (hd : Canonical n f)
    (h : e < f ∨ e = f ∧ m < n) : (m * 2 ^ e : ℚ) < n * 2 ^ f := by
  have hunit := two_zpow_pos e
  rcases h with hexponent | ⟨rfl, hmantissa⟩
  · have hleast := hc.least_le
    calc (m * 2 ^ e : ℚ) < 2 ^ 53 * 2 ^ e :=
          mul_lt_mul_of_pos_right (by exact_mod_cast hc.fits) hunit
      _ = 2 ^ (e + (53 : ℕ)) := (two_zpow_add e 53).symm
      _ ≤ 2 ^ (f + (52 : ℕ)) := zpow_le_zpow_right₀ one_le_two (by omega)
      _ = 2 ^ 52 * 2 ^ f := two_zpow_add f 52
      _ ≤ n * 2 ^ f :=
          mul_le_mul_of_nonneg_right (by exact_mod_cast hd.normal (by omega)) (two_zpow_pos f).le
  · exact mul_lt_mul_of_pos_right (by exact_mod_cast hmantissa) hunit

theorem value_lt_value (ha : IsFinite a) (hb : IsFinite b) (h : rank a < rank b) :
    value a < value b := by
  have hpos {m : ℕ} {e : ℤ} (hm : 0 < m) : (0 : ℚ) < m * 2 ^ e :=
    mul_pos (by exact_mod_cast hm) (two_zpow_pos e)
  cases ha with
  | zero s =>
    cases hb with
    | zero t => exact absurd h (lt_irrefl _)
    | @finite t n f hn hd _ =>
      cases t <;> simp [rank, Prod.Lex.toLex_lt_toLex] at h
      rw [value_zero, value_finite, factor, one_mul]
      exact hpos hn
  | @finite s m e hm hc _ =>
    cases hb with
    | zero t =>
      cases s <;> simp [rank, Prod.Lex.toLex_lt_toLex] at h
      rw [value_zero, value_finite, factor, neg_one_mul]
      exact neg_neg_of_pos (hpos hm)
    | @finite t n f hn hd _ =>
      rw [value_finite, value_finite]
      cases s <;> cases t <;> simp [rank, Prod.Lex.toLex_lt_toLex] at h
      · rw [factor, neg_one_mul, neg_one_mul, neg_lt_neg_iff]
        exact hd.value_lt_value hc (by omega)
      · rw [factor, factor, neg_one_mul, one_mul]
        exact (neg_neg_of_pos (hpos hm)).trans (hpos hn)
      · rw [factor, one_mul, one_mul]
        exact hc.value_lt_value hd (by omega)

theorem value_eq_of_rank (ha : IsFinite a) (hb : IsFinite b) (h : rank a = rank b) :
    value a = value b := by
  cases ha with
  | zero s =>
    cases hb with
    | zero t => rfl
    | @finite t n f hn => cases t <;> simp [rank] at h
  | @finite s m e hm =>
    cases hb with
    | zero t => cases s <;> simp [rank] at h
    | @finite t n f hn =>
      cases s <;> cases t <;> simp [rank] at h <;> rw [value_finite, value_finite, h.1, h.2]

theorem rank_lt_iff_value (ha : IsFinite a) (hb : IsFinite b) :
    rank a < rank b ↔ value a < value b := by
  refine ⟨value_lt_value ha hb, fun h => ?_⟩
  by_contra hle
  rcases (not_lt.mp hle).lt_or_eq with hlt | heq
  · exact lt_asymm h (value_lt_value hb ha hlt)
  · exact h.ne' (value_eq_of_rank hb ha heq)

theorem unpacked_le_iff :
    a.le b = true ↔ a ≠ .notANumber ∧ b ≠ .notANumber ∧ rank a ≤ rank b := by
  rcases a with (_ | _) | _ | _ | ⟨_ | _, m, e, _⟩ <;>
    rcases b with (_ | _) | _ | _ | ⟨_ | _, m', e', _⟩ <;>
    simp [UnpackedFloat.le, UnpackedFloat.compare, rank, Prod.Lex.toLex_le_toLex]
  case finite.negative.finite.negative =>
    rw [Ordering.isGE_iff_eq_gt_or_eq_eq, Ordering.then_eq_gt, Ordering.then_eq_eq,
      Int.compare_eq_gt, Int.compare_eq_eq, Nat.compare_eq_gt, Nat.compare_eq_eq]
    omega
  case finite.positive.finite.positive =>
    rw [Ordering.isLE_then_iff_or, Int.compare_eq_lt, Int.compare_eq_eq, Nat.isLE_compare]
  all_goals decide

/-- What a double can be unpacked to: a mantissa and an exponent are kept as they are. -/
def Fits (a : UnpackedFloat) : Prop := a.isFinite = true → IsFinite a

theorem fits_unpack (d : Float) : Fits d.toModel.unpack := isFinite_unpack

theorem ofUnpacked_lt_iff (ha : Fits a) (hb : Fits b) :
    a.lt b = true ↔ Exact.ofUnpacked a < Exact.ofUnpacked b := by
  by_cases hfinite : a.isFinite = true ∧ b.isFinite = true
  · obtain ⟨ha, hb⟩ := hfinite.imp ha hb
    have hnumbers : a ≠ .notANumber ∧ b ≠ .notANumber := by
      constructor
      · rintro rfl
        cases ha
      · rintro rfl
        cases hb
    rw [unpacked_lt_iff, rank_lt_iff_value ha hb, ha.ofUnpacked_eq, hb.ofUnpacked_eq,
      Exact.finite_lt_finite]
    exact ⟨fun h => h.2.2, fun h => ⟨hnumbers.1, hnumbers.2, h⟩⟩
  · -- an infinity is compared by its sign alone
    change _ ↔ (Exact.ofUnpacked a).lt (Exact.ofUnpacked b) = true
    rcases a with (_ | _) | _ | _ | _ <;> rcases b with (_ | _) | _ | _ | _ <;>
      first | exact absurd ⟨rfl, rfl⟩ hfinite | exact Iff.rfl

theorem ofUnpacked_ne_undefined_iff : Exact.ofUnpacked a ≠ .undefined ↔ a ≠ .notANumber := by
  rcases a with (_ | _) | _ | _ | _ <;> simp [Exact.ofUnpacked]

theorem ofUnpacked_le_iff (ha : Fits a) (hb : Fits b) :
    a.le b = true ↔ Exact.ofUnpacked a ≤ Exact.ofUnpacked b := by
  rw [unpacked_le_iff, Exact.le_iff_not_lt, ← ofUnpacked_lt_iff hb ha, unpacked_lt_iff, ← not_lt,
    ofUnpacked_ne_undefined_iff, ofUnpacked_ne_undefined_iff]
  tauto

end Unpacked

/-- The number of exact arithmetic that a double stands for. -/
def number (d : Float) : Exact := .ofUnpacked d.toModel.unpack

section Order

variable {a b : Float}

theorem double_lt_iff_number : a < b ↔ number a < number b :=
  decide_eq_true_iff.trans (ofUnpacked_lt_iff (fits_unpack a) (fits_unpack b))

theorem double_le_iff_number : a ≤ b ↔ number a ≤ number b :=
  decide_eq_true_iff.trans (ofUnpacked_le_iff (fits_unpack a) (fits_unpack b))

theorem isNaN_eq_number (a : Float) : Extended.isNaN a = Extended.isNaN (number a) := by
  change a.toModel.unpack.isNaN = Extended.isNaN (Exact.ofUnpacked a.toModel.unpack)
  rcases a.toModel.unpack with (_ | _) | _ | _ | _ <;> rfl

theorem isFinite_eq_number (a : Float) : Extended.isFinite a = Extended.isFinite (number a) := by
  change a.toModel.unpack.isFinite = Extended.isFinite (Exact.ofUnpacked a.toModel.unpack)
  rcases a.toModel.unpack with (_ | _) | _ | _ | _ <;> rfl

theorem number_eq_finite (h : a.isFinite = true) : number a = .finite (valueOf a) :=
  (isFinite_unpack h).ofUnpacked_eq

theorem ordersNumbers_double : OrdersNumbers Float :=
  Exact.ordersNumbers.of_embedding number double_le_iff_number double_lt_iff_number isNaN_eq_number
    isFinite_eq_number

end Order

end CenterOfMass
