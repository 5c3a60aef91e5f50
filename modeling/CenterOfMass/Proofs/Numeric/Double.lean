import CenterOfMass.Numeric.Double
import Mathlib

namespace CenterOfMass

open Float.Model

theorem unpacked_sub_self (format : Format) {a : UnpackedFloat} (h : a.isFinite = true) :
    UnpackedFloat.sub format a a = .zero .positive := by
  cases a with
  | notANumber => cases h
  | infinity s => cases h
  | zero s => cases s <;> rfl
  | finite s m e hm =>
    -- both mantissas are brought to one exponent, where they cancel
    simp only [UnpackedFloat.sub, Int.sub_self]
    rfl

/-- A finite double less itself is zero, and not the zero below zero. -/
theorem double_sub_self {a : Float} (h : a.isFinite = true) : a - a = Nat.cast 0 := by
  have hzero : a.toModel.sub a.toModel = pack (.zero .positive) :=
    congrArg pack (unpacked_sub_self Format.binary64 h)
  calc a - a = Float.ofModel (pack (.zero .positive)) := congrArg Float.ofModel hzero
    _ = Nat.cast 0 := by decide

/-- Where an unpacked double stands on the line: its sign and kind first, then its exponent and its
mantissa. -/
def rank : UnpackedFloat → Int ×ₗ Int ×ₗ Int
  | .infinity .negative => toLex (-2, toLex (0, 0))
  | .finite .negative m e _ => toLex (-1, toLex (-e, -m))
  | .zero _ => toLex (0, toLex (0, 0))
  | .finite .positive m e _ => toLex (1, toLex (e, m))
  | .infinity .positive => toLex (2, toLex (0, 0))
  | .notANumber => toLex (3, toLex (0, 0))

theorem unpacked_lt_iff {a b : UnpackedFloat} :
    a.lt b = true ↔ a ≠ .notANumber ∧ b ≠ .notANumber ∧ rank a < rank b := by
  rcases a with (_ | _) | _ | _ | ⟨_ | _, m, e, _⟩ <;>
    rcases b with (_ | _) | _ | _ | ⟨_ | _, m', e', _⟩ <;>
    simp [UnpackedFloat.lt, UnpackedFloat.compare, rank, Prod.Lex.toLex_lt_toLex]
  case infinity.negative.infinity.positive => decide
  case finite.positive.finite.positive =>
    rw [Ordering.then_eq_lt, Int.compare_eq_lt, Int.compare_eq_eq, Nat.compare_eq_lt]
  case finite.negative.finite.negative =>
    rw [Ordering.then_eq_gt, Int.compare_eq_gt, Int.compare_eq_eq, Nat.compare_eq_gt]

end CenterOfMass

