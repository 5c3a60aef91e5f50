import CenterOfMass.Proofs.Numeric.Rounding
import Mathlib

namespace CenterOfMass

open Float.Model Float.Model.UnpackedFloat

/-- A number lies where a mantissa and its two residual bits say. -/
def Represents (a : ExtendedMantissa) (x : ℚ) : Prop :=
  match a.roundBit, a.stickyBit with
  | false, false => x = a.mantissa
  | false, true => a.mantissa < x ∧ x < a.mantissa + 1 / 2
  | true, false => x = a.mantissa + 1 / 2
  | true, true => a.mantissa + 1 / 2 < x ∧ x < a.mantissa + 1

namespace Represents

variable {a : ExtendedMantissa} {x : ℚ}

theorem bounds (h : Represents a x) : a.mantissa ≤ x ∧ x < a.mantissa + 1 := by
  obtain ⟨m, _ | _, _ | _⟩ := a <;> simp only [Represents] at h ⊢ <;> constructor <;> linarith

theorem roundedMantissa (h : Represents a x) : roundEven x = a.roundedMantissa := by
  obtain ⟨m, _ | _, _ | _⟩ := a <;> simp only [Represents] at h
  case false.false =>
    rw [h]
    exact roundEven_intCast m
  case false.true =>
    have hnear : |x - (m : ℤ)| < 1 / 2 := by
      rw [Int.cast_natCast, abs_lt]
      constructor <;> linarith
    exact roundEven_eq hnear.le fun htie => absurd htie hnear.ne
  case true.false =>
    have hdistance : |x - ((m + m % 2 : ℕ) : ℤ)| = 1 / 2 := by
      rcases Nat.mod_two_eq_zero_or_one m with hm | hm <;> rw [h, hm] <;> push_cast <;> norm_num
    refine roundEven_eq hdistance.le fun _ => ?_
    have heven : Even (m + m % 2) := Nat.even_iff.mpr (by omega)
    exact_mod_cast heven
  case true.true =>
    have hnear : |x - ((m + 1 : ℕ) : ℤ)| < 1 / 2 := by
      rw [abs_lt]
      push_cast
      constructor <;> linarith
    exact roundEven_eq hnear.le fun htie => absurd htie hnear.ne

theorem shiftRightOne (h : Represents a x) : Represents a.shiftRightOne (x / 2) := by
  obtain ⟨m, r, s⟩ := a
  have hsplit : (m : ℚ) = 2 * (m / 2 : ℕ) + (m % 2 : ℕ) := by
    exact_mod_cast (Nat.div_add_mod m 2).symm
  rcases Nat.mod_two_eq_zero_or_one m with hm | hm <;> rw [hm] at hsplit <;>
    cases r <;> cases s <;> simp only [Represents] at h <;>
    simp [Represents, ExtendedMantissa.shiftRightOne, hm] <;> push_cast at hsplit <;>
    first | (constructor <;> linarith) | linarith

theorem shiftRight (h : Represents a x) (n : ℕ) : Represents (a >>> n) (x / 2 ^ n) := by
  induction n with
  | zero =>
    rw [pow_zero, div_one]
    exact h
  | succ n ih =>
    rw [pow_succ, ← div_div]
    exact ih.shiftRightOne

end Represents

section Target

variable {m : ℕ} {e : ℤ} {accuracy : Accuracy} {x : ℚ}

theorem mantissa_ofMantissaAndAccuracy (m : ℕ) (accuracy : Accuracy) :
    (ExtendedMantissa.ofMantissaAndAccuracy m accuracy).mantissa = m := by
  rcases accuracy with _ | (_ | _ | _) <;> rfl

theorem targetExponent_eq (total : ℤ) :
    Format.binary64.targetExponent total = max (total - 53) (-1074) := rfl

/-- The leading place of a number is that of its mantissa. -/
theorem log_eq (hm : 0 < m) (hlower : m * 2 ^ e ≤ x) (hupper : x < (m + 1) * 2 ^ e) :
    Int.log 2 x = m.log2 + e := by
  have hunit := two_zpow_pos e
  have hx : 0 < x := (mul_pos (by exact_mod_cast hm) hunit).trans_le hlower
  have hleast : (2 : ℚ) ^ m.log2 ≤ m := by exact_mod_cast Nat.log2_self_le hm.ne'
  have hgreatest : (m : ℚ) + 1 ≤ 2 ^ (m.log2 + 1) := by exact_mod_cast Nat.lt_log2_self
  apply le_antisymm
  · rw [← Int.lt_add_one_iff, ← Int.lt_zpow_iff_log_lt one_lt_two hx]
    have hpower : (2 : ℚ) ^ ((m.log2 : ℤ) + e + 1) = 2 ^ (m.log2 + 1) * 2 ^ e := by
      rw [← two_zpow_add]
      congr 1
      push_cast
      ring
    rw [Nat.cast_ofNat, hpower]
    exact hupper.trans_le (mul_le_mul_of_nonneg_right hgreatest hunit.le)
  · rw [← Int.zpow_le_iff_le_log one_lt_two hx, Nat.cast_ofNat, add_comm, two_zpow_add]
    exact (mul_le_mul_of_nonneg_right hleast hunit.le).trans hlower

theorem targetExponent_of_pos (hm : 0 < m) :
    Format.binary64.targetExponent (totalExponent m e) = lastPlace (m * 2 ^ e) := by
  have hunit := two_zpow_pos e
  have hx : (0 : ℚ) < m * 2 ^ e := mul_pos (by exact_mod_cast hm) hunit
  have hlog := log_eq hm le_rfl (mul_lt_mul_of_pos_right (lt_add_one (m : ℚ)) hunit)
  rw [targetExponent_eq, totalExponent, lastPlace, abs_of_pos hx, hlog]
  omega

/-- A mantissa of zero is only met where no place is kept below the 1074th anyway. -/
theorem targetExponent_eq_lastPlace (hx : 0 < x) (he : e ≤ lastPlace x)
    (h : Represents (.ofMantissaAndAccuracy m accuracy) (x / 2 ^ e)) :
    Format.binary64.targetExponent (totalExponent m e) = lastPlace x := by
  have hbounds := h.bounds
  rw [mantissa_ofMantissaAndAccuracy, le_div_iff₀ (two_zpow_pos e),
    div_lt_iff₀ (two_zpow_pos e)] at hbounds
  rw [targetExponent_eq, totalExponent]
  unfold lastPlace at he ⊢
  rw [abs_of_pos hx] at he ⊢
  rcases Nat.eq_zero_or_pos m with rfl | hm
  · have hlog : Int.log 2 x < e := by
      rw [← Int.lt_zpow_iff_log_lt one_lt_two hx]
      push_cast at hbounds ⊢
      linarith
    rw [Nat.log2_zero]
    omega
  · have hlog := log_eq hm hbounds.1 hbounds.2
    omega

/-- The shift to the last place keeps what the residual bits say. -/
theorem shiftToTargetExponent_eq (hx : 0 < x) (he : e ≤ lastPlace x)
    (h : Represents (.ofMantissaAndAccuracy m accuracy) (x / 2 ^ e)) :
    ∃ a, shiftToTargetExponent Format.binary64 m e accuracy = (a, lastPlace x) ∧
      Represents a (x / 2 ^ lastPlace x) := by
  have hshift : ((lastPlace x - e).toNat : ℤ) = lastPlace x - e := Int.toNat_of_nonneg (by omega)
  have hplace : e + ((lastPlace x - e).toNat : ℤ) = lastPlace x := by omega
  have hscaled := h.shiftRight (lastPlace x - e).toNat
  rw [div_div, mul_comm, ← two_zpow_add, hplace] at hscaled
  refine ⟨_, ?_, hscaled⟩
  unfold shiftToTargetExponent shiftToExponent
  rw [targetExponent_eq_lastPlace hx he h]
  exact Prod.ext rfl hplace

end Target

/-- The mantissa and the exponent of a double, were there no largest exponent. -/
structure Canonical (m : ℕ) (e : ℤ) : Prop where
  fits : m < 2 ^ 53
  least_le : -1074 ≤ e
  normal : -1074 < e → 2 ^ 52 ≤ m

theorem Canonical.nearest_eq {m : ℕ} {e : ℤ} (hc : Canonical m e) :
    nearest (m * 2 ^ e) = m * 2 ^ e := by
  have hfits : |(m : ℤ)| < 2 ^ 53 := by
    rw [Nat.abs_cast]
    exact_mod_cast hc.fits
  have hself := nearest_eq_self hfits hc.least_le
  rwa [Int.cast_natCast] at hself

/-- What a number that is not below zero becomes with a sign, were there no largest exponent. -/
inductive Unpacks (s : Sign) (y : ℚ) : UnpackedFloat → Prop
  | zero (h : y = 0) : Unpacks s y (.zero s)
  | finite {m : ℕ} {e : ℤ} (hm : 0 < m) (hc : Canonical m e) (h : y = m * 2 ^ e) :
    Unpacks s y (.finite s m e hm)

section Round

variable {m : ℕ} {e : ℤ} {accuracy : Accuracy} {x : ℚ}

theorem shiftToTargetExponent_of_lt (hm : m < 2 ^ 53) (he : -1074 ≤ e) :
    shiftToTargetExponent Format.binary64 m e .exact = (⟨m, false, false⟩, e) := by
  have hlog : m.log2 ≤ 52 := by
    rcases Nat.eq_zero_or_pos m with rfl | hpos
    · simp
    · exact Nat.lt_succ_iff.mp ((Nat.log2_lt hpos.ne').mpr hm)
  have hshift : (Format.binary64.targetExponent (totalExponent m e) - e).toNat = 0 := by
    rw [targetExponent_eq, totalExponent]
    omega
  unfold shiftToTargetExponent shiftToExponent
  dsimp only
  rw [hshift]
  exact Prod.ext rfl (Int.add_zero e)

/-- A mantissa that rounding has made too long is a power of two, of which no place is lost. -/
theorem shiftToTargetExponent_two_pow (he : -1074 ≤ e) :
    shiftToTargetExponent Format.binary64 (2 ^ 53) e .exact = (⟨2 ^ 52, false, false⟩, e + 1) := by
  have hshift : (Format.binary64.targetExponent (totalExponent (2 ^ 53) e) - e).toNat = 1 := by
    rw [targetExponent_eq, totalExponent, Nat.log2_two_pow]
    omega
  unfold shiftToTargetExponent shiftToExponent
  dsimp only
  rw [hshift]
  rfl

/-- The shift to the last place, the rounding there and the shift after a carry give the nearest
number. -/
theorem unpacks_roundWithAccuracy (s : Sign) (hx : 0 < x) (he : e ≤ lastPlace x)
    (h : Represents (.ofMantissaAndAccuracy m accuracy) (x / 2 ^ e)) :
    Unpacks s (nearest x) (roundWithAccuracy Format.binary64 s m e accuracy) := by
  obtain ⟨a, hshift, ha⟩ := shiftToTargetExponent_eq hx he h
  have hround : nearest x = a.roundedMantissa * 2 ^ lastPlace x := by
    rw [nearest, ha.roundedMantissa, Int.cast_natCast]
  have hleast := least_le_lastPlace x
  have hunit := two_zpow_pos (lastPlace x)
  have hupper : a.roundedMantissa ≤ 2 ^ 53 := by
    have hle := nearest_le_zpow hx.le
    rw [hround, show lastPlace x + 53 = lastPlace x + (53 : ℕ) from rfl, two_zpow_add] at hle
    exact_mod_cast le_of_mul_le_mul_right hle hunit
  have hnormal (hlarge : -1074 < lastPlace x) : 2 ^ 52 ≤ a.roundedMantissa := by
    have hle := zpow_le_nearest hx hlarge
    rw [hround, show lastPlace x + 52 = lastPlace x + (52 : ℕ) from rfl, two_zpow_add] at hle
    exact_mod_cast le_of_mul_le_mul_right hle hunit
  unfold roundWithAccuracy
  rw [hshift]
  dsimp only
  rcases hupper.lt_or_eq with hlt | heq
  · rw [shiftToTargetExponent_of_lt hlt hleast]
    dsimp only
    split_ifs with hzero
    · exact .zero (by rw [hround, hzero, Nat.cast_zero, zero_mul])
    · exact .finite _ ⟨hlt, hleast, hnormal⟩ hround
  · rw [heq, shiftToTargetExponent_two_pow hleast]
    refine .finite (by norm_num) ⟨by norm_num, by omega, fun _ => le_refl _⟩ ?_
    have hcarry : (2 : ℚ) ^ (lastPlace x + 1) = 2 ^ 1 * 2 ^ lastPlace x := two_zpow_add _ 1
    rw [hround, heq, hcarry]
    push_cast
    ring

theorem unpacks_roundWithAccuracy_exact (s : Sign) (hm : 0 < m)
    (he : e ≤ lastPlace (m * 2 ^ e)) :
    Unpacks s (nearest (m * 2 ^ e)) (roundWithAccuracy Format.binary64 s m e .exact) := by
  have hx : (0 : ℚ) < m * 2 ^ e := mul_pos (by exact_mod_cast hm) (two_zpow_pos e)
  exact unpacks_roundWithAccuracy s hx he (mul_div_cancel_right₀ _ (two_zpow_pos e).ne')

theorem unpacks_round (s : Sign) (hm : 0 < m) :
    Unpacks s (nearest (m * 2 ^ e)) (UnpackedFloat.round Format.binary64 s m e) := by
  unfold UnpackedFloat.round decreaseExponent
  dsimp only
  rw [targetExponent_of_pos hm]
  generalize hk : (e - lastPlace (m * 2 ^ e)).toNat = k
  have hvalue : ((m <<< k : ℕ) : ℚ) * 2 ^ (e - k) = m * 2 ^ e := by
    have hsplit : (2 : ℚ) ^ e = 2 ^ k * 2 ^ (e - k) := by
      rw [← two_zpow_add, sub_add_cancel]
    rw [Nat.shiftLeft_eq, hsplit]
    push_cast
    ring
  have hpos : 0 < m <<< k := by
    rw [Nat.shiftLeft_eq]
    positivity
  rw [← hvalue]
  apply unpacks_roundWithAccuracy_exact s hpos
  rw [hvalue]
  omega

theorem le_lastPlace_of_long (h : 2 ^ 52 ≤ m) : e ≤ lastPlace (m * 2 ^ e) := by
  have hlong : 2 ^ (e + (52 : ℕ)) ≤ |(m * 2 ^ e : ℚ)| := by
    rw [two_zpow_add, abs_of_nonneg (mul_nonneg m.cast_nonneg (two_zpow_pos e).le)]
    exact mul_le_mul_of_nonneg_right (by exact_mod_cast h) (two_zpow_pos e).le
  have hplace := le_lastPlace hlong
  omega

end Round

section Operations

/-- The factor that a sign stands for. -/
def factor : Sign → ℚ
  | .negative => -1
  | .positive => 1

/-- The number that an unpacked double stands for; zero for what is no number. -/
def value : UnpackedFloat → ℚ
  | .finite s m e _ => factor s * (m * 2 ^ e)
  | _ => 0

@[simp] theorem value_zero (s : Sign) : value (.zero s) = 0 := rfl

@[simp] theorem value_finite (s : Sign) {m : ℕ} {e : ℤ} (hm : 0 < m) :
    value (.finite s m e hm) = factor s * (m * 2 ^ e) := rfl

/-- What a number becomes, were there no largest exponent. -/
def RoundsTo (x : ℚ) (u : UnpackedFloat) : Prop := ∃ s y, x = factor s * y ∧ Unpacks s (nearest y) u

/-- What a finite double is unpacked to. -/
inductive IsFinite : UnpackedFloat → Prop
  | zero (s : Sign) : IsFinite (.zero s)
  | finite {s : Sign} {m : ℕ} {e : ℤ} (hm : 0 < m) (hc : Canonical m e) (he : e ≤ 971) :
    IsFinite (.finite s m e hm)

variable {a b : UnpackedFloat} {s t : Sign} {x : ℚ}

theorem factor_neg (s : Sign) : factor (-s) = -factor s := by
  cases s
  · exact (neg_neg 1).symm
  · rfl

theorem factor_mul (s t : Sign) : factor (s * t) = factor s * factor t := by
  cases s <;> cases t
  · exact (by norm_num : (1 : ℚ) = -1 * -1)
  · exact (by norm_num : (-1 : ℚ) = -1 * 1)
  · exact (by norm_num : (-1 : ℚ) = 1 * -1)
  · exact (by norm_num : (1 : ℚ) = 1 * 1)

theorem factor_div (s t : Sign) : factor (s / t) = factor s / factor t := by
  have hproduct : factor (s / t) = factor (s * t) := by cases s <;> cases t <;> rfl
  have hinverse : (factor t)⁻¹ = factor t := by cases t <;> norm_num [factor]
  rw [hproduct, factor_mul, div_eq_mul_inv, hinverse]

theorem factor_apply (s : Sign) (m : ℤ) : (s.apply m : ℚ) = factor s * m := by
  cases s
  · rw [Sign.apply, factor, Int.cast_neg, neg_one_mul]
  · rw [Sign.apply, factor, one_mul]

theorem roundsTo_zero (s : Sign) : RoundsTo 0 (.zero s) :=
  ⟨s, 0, (mul_zero _).symm, .zero nearest_zero⟩

theorem roundsTo_finite {m : ℕ} {e : ℤ} (hm : 0 < m) (hc : Canonical m e) (s : Sign) :
    RoundsTo (factor s * (m * 2 ^ e)) (.finite s m e hm) :=
  ⟨s, _, rfl, .finite hm hc hc.nearest_eq⟩

theorem roundsTo_normalize (m e : ℤ) (s : Sign) :
    RoundsTo (m * 2 ^ e) (UnpackedFloat.normalize Format.binary64 m e s) := by
  unfold UnpackedFloat.normalize
  rcases lt_trichotomy m 0 with hm | rfl | hm
  · rw [compare_lt_iff_lt.mpr hm]
    have hpos : 0 < (-m).toNat := by omega
    refine ⟨.negative, ((-m).toNat : ℚ) * 2 ^ e, ?_, unpacks_round .negative hpos⟩
    have habs : (((-m).toNat : ℤ) : ℚ) = -m := by
      rw [Int.toNat_of_nonneg (by omega), Int.cast_neg]
    rw [Int.cast_natCast] at habs
    rw [habs, factor]
    ring
  · rw [Int.cast_zero, zero_mul]
    exact roundsTo_zero s
  · rw [compare_gt_iff_gt.mpr hm]
    have hpos : 0 < m.toNat := by omega
    refine ⟨.positive, (m.toNat : ℚ) * 2 ^ e, ?_, unpacks_round .positive hpos⟩
    have habs : ((m.toNat : ℤ) : ℚ) = m := by rw [Int.toNat_of_nonneg hm.le]
    rw [Int.cast_natCast] at habs
    rw [habs, factor, one_mul]

/-- Two mantissas are so long together that no place of the product has to be added, or both numbers
are so close to zero that there is no such place. -/
theorem le_lastPlace_mul {m n : ℕ} {e f : ℤ} (hm : 0 < m) (hn : 0 < n) (hc : Canonical m e)
    (hd : Canonical n f) : e + f ≤ lastPlace ((m * n : ℕ) * 2 ^ (e + f)) := by
  have hleast := least_le_lastPlace ((m * n : ℕ) * 2 ^ (e + f))
  rcases hc.least_le.eq_or_lt with he | he
  · rcases hd.least_le.eq_or_lt with hf | hf
    · omega
    · have hlong : 2 ^ 52 ≤ m * n := (hd.normal hf).trans (Nat.le_mul_of_pos_left n hm)
      exact le_lastPlace_of_long hlong
  · have hlong : 2 ^ 52 ≤ m * n := (hc.normal he).trans (Nat.le_mul_of_pos_right m hn)
    exact le_lastPlace_of_long hlong

theorem roundsTo_mul (ha : IsFinite a) (hb : IsFinite b) :
    RoundsTo (value a * value b) (UnpackedFloat.mul Format.binary64 a b) := by
  cases ha with
  | zero s =>
    have hzero (t : Sign) : RoundsTo (value (.zero s) * value b) (.zero t) := by
      rw [value_zero, zero_mul]
      exact roundsTo_zero t
    cases hb <;> exact hzero _
  | @finite s m e hm hc _ =>
    cases hb with
    | zero t =>
      rw [value_zero, mul_zero]
      exact roundsTo_zero _
    | @finite t n f hn hd _ =>
      refine ⟨s * t, ((m * n : ℕ) : ℚ) * 2 ^ (e + f), ?_,
        unpacks_roundWithAccuracy_exact _ (Nat.mul_pos hm hn) (le_lastPlace_mul hm hn hc hd)⟩
      rw [value_finite, value_finite, factor_mul, zpow_add₀ two_ne_zero]
      push_cast
      ring

theorem value_decreaseExponent {m : ℕ} {e k : ℤ} (h : k ≤ e) (s : Sign) :
    factor s * (m * 2 ^ e) = (s.apply (decreaseExponent m e k).1 : ℚ) * 2 ^ k := by
  have hshift : k + ((e - k).toNat : ℤ) = e := by omega
  have hpower : (2 : ℚ) ^ e = 2 ^ (e - k).toNat * 2 ^ k := by
    rw [← two_zpow_add, hshift]
  unfold decreaseExponent
  dsimp only
  rw [factor_apply, Nat.shiftLeft_eq, hpower]
  push_cast
  ring

theorem roundsTo_sub (ha : IsFinite a) (hb : IsFinite b) :
    RoundsTo (value a - value b) (UnpackedFloat.sub Format.binary64 a b) := by
  cases ha with
  | zero s =>
    cases hb with
    | zero t =>
      rw [value_zero, value_zero, sub_zero, UnpackedFloat.sub]
      split_ifs <;> exact roundsTo_zero _
    | @finite t n f hn hd _ =>
      rw [value_zero, zero_sub, value_finite, ← neg_mul, ← factor_neg]
      exact roundsTo_finite hn hd _
  | @finite s m e hm hc _ =>
    cases hb with
    | zero t =>
      rw [value_zero, sub_zero]
      exact roundsTo_finite hm hc s
    | @finite t n f hn hd _ =>
      rw [value_finite, value_finite, value_decreaseExponent (min_le_left e f),
        value_decreaseExponent (min_le_right e f), ← sub_mul, ← Int.cast_sub]
      exact roundsTo_normalize _ _ _

theorem represents_div (m : ℕ) {n : ℕ} (hn : 0 < n) :
    Represents (.ofMantissaAndAccuracy (m / n) (accuracyOfFraction (m % n) n)) (m / n) := by
  have hn' : (0 : ℚ) < n := by exact_mod_cast hn
  have hrest : m % n < n := Nat.mod_lt m hn
  have hsplit : (m / n : ℚ) = (m / n : ℕ) + (m % n : ℕ) / n := by
    rw [div_eq_iff hn'.ne', add_mul, div_mul_cancel₀ _ hn'.ne']
    exact_mod_cast (Nat.div_add_mod' m n).symm
  rw [hsplit]
  unfold accuracyOfFraction
  split_ifs with hzero
  · rw [hzero, Nat.cast_zero, zero_div, add_zero]
    rfl
  have hpos : (0 : ℚ) < (m % n : ℕ) / n := by
    have hpos' : (0 : ℚ) < (m % n : ℕ) := by exact_mod_cast Nat.pos_of_ne_zero hzero
    positivity
  have hone : ((m % n : ℕ) / n : ℚ) < 1 := by
    rw [div_lt_one hn']
    exact_mod_cast hrest
  rcases lt_trichotomy (2 * (m % n)) n with h | h | h
  · rw [compare_lt_iff_lt.mpr h]
    have hhalf : ((m % n : ℕ) / n : ℚ) < 1 / 2 := by
      rw [div_lt_div_iff₀ hn' two_pos]
      exact_mod_cast (by omega : m % n * 2 < 1 * n)
    exact ⟨lt_add_of_pos_right _ hpos, add_lt_add_right hhalf _⟩
  · rw [compare_eq_iff_eq.mpr h]
    have hhalf : ((m % n : ℕ) / n : ℚ) = 1 / 2 := by
      rw [div_eq_div_iff hn'.ne' two_ne_zero]
      exact_mod_cast (by omega : m % n * 2 = 1 * n)
    rw [hhalf]
    rfl
  · rw [compare_gt_iff_gt.mpr h]
    have hhalf : 1 / 2 < ((m % n : ℕ) / n : ℚ) := by
      rw [div_lt_div_iff₀ two_pos hn']
      exact_mod_cast (by omega : 1 * n < m % n * 2)
    exact ⟨add_lt_add_right hhalf _, add_lt_add_right hone _⟩

/-- The leading place of a quotient is at most one below the difference of the leading places. -/
theorem targetExponent_le_lastPlace_div {m n : ℕ} {e f : ℤ} (hm : 0 < m) (hn : 0 < n) :
    Format.binary64.targetExponent (totalExponent m e - totalExponent n f) ≤
      lastPlace (m * 2 ^ e / (n * 2 ^ f)) := by
  have hn' : (0 : ℚ) < n * 2 ^ f := mul_pos (by exact_mod_cast hn) (two_zpow_pos f)
  have hlower : (2 : ℚ) ^ m.log2 ≤ m := by exact_mod_cast Nat.log2_self_le hm.ne'
  have hupper : (n : ℚ) ≤ 2 ^ (n.log2 + 1) := by exact_mod_cast Nat.lt_log2_self.le
  have hlarge : 2 ^ ((e + m.log2) - (f + (n.log2 + 1 : ℕ))) ≤ |(m * 2 ^ e / (n * 2 ^ f) : ℚ)| := by
    have hpos : (0 : ℚ) ≤ m * 2 ^ e / (n * 2 ^ f) :=
      div_nonneg (mul_nonneg m.cast_nonneg (two_zpow_pos e).le) hn'.le
    rw [abs_of_nonneg hpos, zpow_sub₀ two_ne_zero, two_zpow_add, two_zpow_add]
    have hunit := two_zpow_pos e
    have hunit' := two_zpow_pos f
    gcongr
  have hplace := le_lastPlace hlarge
  have hleast := least_le_lastPlace (m * 2 ^ e / (n * 2 ^ f))
  rw [targetExponent_eq, totalExponent, totalExponent]
  push_cast at hplace
  omega

theorem unpacks_div {m n : ℕ} {e f : ℤ} (hm : 0 < m) (hn : 0 < n) (s : Sign) :
    Unpacks s (nearest (m * 2 ^ e / (n * 2 ^ f)))
      (roundWithAccuracy Format.binary64 s (divCore Format.binary64 m e n f).1
        (divCore Format.binary64 m e n f).2.1 (divCore Format.binary64 m e n f).2.2) := by
  have hm' : (0 : ℚ) < m * 2 ^ e := mul_pos (by exact_mod_cast hm) (two_zpow_pos e)
  have hn' : (0 : ℚ) < n * 2 ^ f := mul_pos (by exact_mod_cast hn) (two_zpow_pos f)
  have htarget := targetExponent_le_lastPlace_div (e := e) (f := f) hm hn
  unfold divCore
  dsimp only
  generalize hk : min (e - f) (Format.binary64.targetExponent (totalExponent m e -
    totalExponent n f)) = k
  have hplace : k ≤ lastPlace (m * 2 ^ e / (n * 2 ^ f)) := by omega
  have hscaled : (m * 2 ^ e / (n * 2 ^ f) / 2 ^ k : ℚ) = (m <<< (e - f - k).toNat : ℕ) / n := by
    have hpower : (2 : ℚ) ^ e = 2 ^ (e - f - k).toNat * (2 ^ f * 2 ^ k) := by
      rw [← zpow_add₀ two_ne_zero, ← two_zpow_add]
      congr 1
      omega
    have hunit := (two_zpow_pos f).ne'
    have hunit' := (two_zpow_pos k).ne'
    have hn'' : (n : ℚ) ≠ 0 := by exact_mod_cast hn.ne'
    rw [Nat.shiftLeft_eq, hpower]
    push_cast
    field_simp
  apply unpacks_roundWithAccuracy s (div_pos hm' hn') hplace
  rw [hscaled]
  exact represents_div _ hn

theorem roundsTo_div (ha : IsFinite a) (hb : IsFinite b) (hzero : value b ≠ 0) :
    RoundsTo (value a / value b) (UnpackedFloat.div Format.binary64 a b) := by
  cases hb with
  | zero t => exact absurd rfl hzero
  | @finite t n f hn hd _ =>
    cases ha with
    | zero s =>
      rw [value_zero, zero_div]
      exact roundsTo_zero _
    | @finite s m e hm hc _ =>
      refine ⟨s / t, m * 2 ^ e / (n * 2 ^ f), ?_, unpacks_div hm hn _⟩
      rw [value_finite, value_finite, factor_div, mul_div_mul_comm]

end Operations

end CenterOfMass
