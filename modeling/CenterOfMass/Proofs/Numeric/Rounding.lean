import Mathlib.Algebra.Order.Round
import Mathlib.Algebra.Order.Ring.Int
import Mathlib.Data.Int.Log
import Mathlib.Data.Rat.Floor
import Mathlib.Tactic.Linarith
import Mathlib.Tactic.Positivity
import Mathlib.Tactic.Ring

namespace CenterOfMass

/-- The nearest integer, and of two that are equally near the even one. -/
def roundEven (x : ℚ) : ℤ := if Int.fract x = 1 / 2 then 2 * round (x / 2) else round x

section RoundEven

variable {x y : ℚ} {n : ℤ}

theorem abs_sub_roundEven_le (x : ℚ) : |x - roundEven x| ≤ 1 / 2 := by
  unfold roundEven
  split_ifs with htie
  · have hx : x = ⌊x⌋ + 1 / 2 := by rw [← htie, Int.floor_add_fract]
    have hhalf := abs_le.mp (abs_sub_round (x / 2))
    have hlower : -2 < ⌊x⌋ - 2 * round (x / 2) := by
      have hcast : (-2 : ℚ) < (⌊x⌋ - 2 * round (x / 2) : ℤ) := by push_cast; linarith
      exact_mod_cast hcast
    have hupper : ⌊x⌋ - 2 * round (x / 2) < 1 := by
      have hcast : ((⌊x⌋ - 2 * round (x / 2) : ℤ) : ℚ) < 1 := by push_cast; linarith
      exact_mod_cast hcast
    have hnext : ⌊x⌋ - 2 * round (x / 2) = -1 ∨ ⌊x⌋ - 2 * round (x / 2) = 0 := by omega
    have hdistance : x - (2 * round (x / 2) : ℤ) = (⌊x⌋ - 2 * round (x / 2) : ℤ) + 1 / 2 := by
      push_cast
      linarith
    rw [hdistance]
    rcases hnext with h | h <;> rw [h] <;> norm_num
  · exact abs_sub_round x

theorem even_roundEven (h : |x - roundEven x| = 1 / 2) : Even (roundEven x) := by
  unfold roundEven at h ⊢
  split_ifs at h ⊢ with htie
  · exact even_two_mul _
  · exfalso
    apply htie
    rcases (abs_eq (by norm_num)).mp h with h | h
    · have hx : x = round x + 1 / 2 := by linarith
      rw [hx, Int.fract_intCast_add]
      norm_num
    · have hx : x = (round x - 1 : ℤ) + 1 / 2 := by push_cast; linarith
      rw [hx, Int.fract_intCast_add]
      norm_num

/-- There is only one nearest integer that is even at a tie. -/
theorem roundEven_eq (hnear : |x - n| ≤ 1 / 2) (heven : |x - n| = 1 / 2 → Even n) :
    roundEven x = n := by
  have hround := abs_sub_roundEven_le x
  by_contra hne
  have hapart : (1 : ℚ) ≤ |((roundEven x - n : ℤ) : ℚ)| := by
    have hone : 1 ≤ |roundEven x - n| := Int.one_le_abs (sub_ne_zero.mpr hne)
    exact_mod_cast hone
  have hsum : |((roundEven x - n : ℤ) : ℚ)| ≤ |x - n| + |x - roundEven x| := by
    have hsplit : ((roundEven x - n : ℤ) : ℚ) = (x - n) - (x - roundEven x) := by
      push_cast
      ring
    rw [hsplit]
    exact abs_sub _ _
  -- both are half a unit away and even, so that they cannot be neighbors
  obtain ⟨k, hk⟩ := heven (by linarith)
  obtain ⟨l, hl⟩ := even_roundEven (x := x) (by linarith)
  have hone : |((roundEven x - n : ℤ) : ℚ)| = 1 := by linarith
  have hint : |roundEven x - n| = 1 := by exact_mod_cast hone
  rcases (abs_eq (by norm_num)).mp hint with h | h <;> omega

@[simp] theorem roundEven_intCast (n : ℤ) : roundEven n = n := by
  apply roundEven_eq
  · norm_num
  · intro h
    norm_num at h

theorem roundEven_neg (x : ℚ) : roundEven (-x) = -roundEven x := by
  have hdistance : |-x - (-roundEven x : ℤ)| = |x - roundEven x| := by
    push_cast
    rw [neg_sub_neg, abs_sub_comm]
  apply roundEven_eq
  · rw [hdistance]
    exact abs_sub_roundEven_le x
  · intro h
    exact (even_roundEven (hdistance ▸ h)).neg

theorem roundEven_mono (h : x ≤ y) : roundEven x ≤ roundEven y := by
  by_contra hlt
  have hx := abs_le.mp (abs_sub_roundEven_le x)
  have hy := abs_le.mp (abs_sub_roundEven_le y)
  have hstep : (roundEven y : ℚ) + 1 ≤ roundEven x := by
    have hsucc : roundEven y + 1 ≤ roundEven x := by omega
    exact_mod_cast hsucc
  have hxy : x = y := by linarith
  exact hlt (hxy ▸ le_refl _)

theorem roundEven_le (h : x ≤ n) : roundEven x ≤ n := by
  have hmono := roundEven_mono h
  rwa [roundEven_intCast] at hmono

theorem le_roundEven (h : (n : ℚ) ≤ x) : n ≤ roundEven x := by
  have hmono := roundEven_mono h
  rwa [roundEven_intCast] at hmono

theorem roundEven_eq_zero_iff : roundEven x = 0 ↔ |x| ≤ 1 / 2 := by
  constructor
  · intro h
    have hround := abs_sub_roundEven_le x
    rwa [h, Int.cast_zero, sub_zero] at hround
  · intro h
    apply roundEven_eq
    · rwa [Int.cast_zero, sub_zero]
    · intro _
      exact Even.zero

end RoundEven

/-- The exponent of the last place that a double keeps of a number. Numbers close to zero keep no
place below the 1074th. -/
def lastPlace (x : ℚ) : ℤ := max (Int.log 2 |x| - 52) (-1074)

/-- The nearest number of 53 binary places, were there no largest double. -/
def nearest (x : ℚ) : ℚ := roundEven (x / 2 ^ lastPlace x) * 2 ^ lastPlace x

section Nearest

variable {x y : ℚ}

theorem two_zpow_pos (k : ℤ) : (0 : ℚ) < 2 ^ k := zpow_pos (by norm_num) k

theorem two_zpow_add (k : ℤ) (n : ℕ) : (2 : ℚ) ^ (k + n) = 2 ^ n * 2 ^ k := by
  rw [zpow_add₀ two_ne_zero, zpow_natCast, mul_comm]

theorem two_zpow_half (k : ℤ) : (2 : ℚ) ^ k / 2 = 2 ^ (k - 1) := by
  rw [zpow_sub_one₀ two_ne_zero, div_eq_mul_inv]

theorem least_le_lastPlace (x : ℚ) : -1074 ≤ lastPlace x := le_max_right _ _

theorem lastPlace_neg (x : ℚ) : lastPlace (-x) = lastPlace x := by
  unfold lastPlace
  rw [abs_neg]

theorem nearest_neg (x : ℚ) : nearest (-x) = -nearest x := by
  unfold nearest
  rw [lastPlace_neg, neg_div, roundEven_neg, Int.cast_neg, neg_mul]

@[simp] theorem nearest_zero : nearest 0 = 0 := by
  have h : nearest (-0) = -nearest 0 := nearest_neg 0
  rw [neg_zero] at h
  linarith

theorem nearest_nonneg (h : 0 ≤ x) : 0 ≤ nearest x := by
  have hscaled : (0 : ℚ) ≤ x / 2 ^ lastPlace x := div_nonneg h (two_zpow_pos _).le
  have hround : 0 ≤ roundEven (x / 2 ^ lastPlace x) :=
    le_roundEven (by rwa [Int.cast_zero])
  exact mul_nonneg (by exact_mod_cast hround) (two_zpow_pos _).le

theorem abs_nearest (x : ℚ) : |nearest x| = nearest |x| := by
  rcases le_total 0 x with h | h
  · rw [abs_of_nonneg h, abs_of_nonneg (nearest_nonneg h)]
  · have hneg := nearest_nonneg (neg_nonneg.mpr h)
    rw [nearest_neg] at hneg
    rw [abs_of_nonpos h, nearest_neg, abs_of_nonpos (by linarith)]

/-- Rounding errs by half a unit in the last place at most. -/
theorem abs_sub_nearest_le (x : ℚ) : |x - nearest x| ≤ 2 ^ lastPlace x / 2 := by
  have hunit := two_zpow_pos (lastPlace x)
  have hscaled := abs_sub_roundEven_le (x / 2 ^ lastPlace x)
  have hsplit : x - nearest x =
      (x / 2 ^ lastPlace x - roundEven (x / 2 ^ lastPlace x)) * 2 ^ lastPlace x := by
    unfold nearest
    field_simp
  rw [hsplit, abs_mul, abs_of_pos hunit]
  linarith [mul_le_mul_of_nonneg_right hscaled hunit.le]

theorem zpow_lastPlace_le_abs_nearest (h : nearest x ≠ 0) : 2 ^ lastPlace x ≤ |nearest x| := by
  have hunit := two_zpow_pos (lastPlace x)
  have hmantissa : roundEven (x / 2 ^ lastPlace x) ≠ 0 := by
    intro hzero
    exact h (by rw [nearest, hzero, Int.cast_zero, zero_mul])
  have hone : (1 : ℚ) ≤ |(roundEven (x / 2 ^ lastPlace x) : ℚ)| := by
    exact_mod_cast Int.one_le_abs hmantissa
  unfold nearest
  rw [abs_mul, abs_of_pos hunit]
  linarith [mul_le_mul_of_nonneg_right hone hunit.le]

/-- What is not rounded to zero is off by half of the result at most. -/
theorem abs_sub_nearest_le_half (h : nearest x ≠ 0) : |x - nearest x| ≤ |nearest x| / 2 := by
  linarith [abs_sub_nearest_le x, zpow_lastPlace_le_abs_nearest h]

theorem lastPlace_le {k : ℤ} (hx : x ≠ 0) (h : |x| < 2 ^ k) :
    lastPlace x ≤ max (k - 53) (-1074) := by
  have hlog : Int.log 2 |x| < k := (Int.lt_zpow_iff_log_lt one_lt_two (abs_pos.mpr hx)).mp h
  unfold lastPlace
  omega

theorem le_lastPlace {k : ℤ} (h : 2 ^ k ≤ |x|) : k - 52 ≤ lastPlace x := by
  have hx : 0 < |x| := (two_zpow_pos k).trans_le h
  have hlog : k ≤ Int.log 2 |x| := (Int.zpow_le_iff_le_log one_lt_two hx).mp h
  unfold lastPlace
  omega

theorem abs_lt_lastPlace (x : ℚ) : |x| < 2 ^ (lastPlace x + 53) := by
  have hlog : |x| < 2 ^ (Int.log 2 |x| + 1) := Int.lt_zpow_succ_log_self one_lt_two |x|
  refine hlog.trans_le (zpow_le_zpow_right₀ one_le_two ?_)
  unfold lastPlace
  omega

theorem lastPlace_le_abs (hx : x ≠ 0) (h : -1074 < lastPlace x) : 2 ^ (lastPlace x + 52) ≤ |x| := by
  have hlog : lastPlace x + 52 = Int.log 2 |x| := by
    unfold lastPlace at h ⊢
    omega
  rw [hlog]
  exact Int.zpow_log_le_self one_lt_two (abs_pos.mpr hx)

/-- The error is relative to the number, but for those close to zero. -/
theorem abs_sub_nearest_le_add (x : ℚ) :
    |x - nearest x| ≤ |x| * 2 ^ (-53 : ℤ) + 2 ^ (-1075 : ℤ) := by
  have herror := abs_sub_nearest_le x
  have hrelative : 0 ≤ |x| * 2 ^ (-53 : ℤ) := mul_nonneg (abs_nonneg x) (two_zpow_pos _).le
  rcases (least_le_lastPlace x).eq_or_lt with hleast | hnormal
  · rw [← hleast, two_zpow_half] at herror
    exact herror.trans (le_add_of_nonneg_left hrelative)
  · rcases eq_or_ne x 0 with rfl | hx
    · rw [nearest_zero, sub_zero, abs_zero, zero_mul, zero_add]
      exact (two_zpow_pos _).le
    have hlarge := mul_le_mul_of_nonneg_right (lastPlace_le_abs hx hnormal) (two_zpow_pos (-53)).le
    rw [← zpow_add₀ two_ne_zero] at hlarge
    have hplace : lastPlace x + 52 + -53 = lastPlace x - 1 := by ring
    rw [hplace, ← two_zpow_half] at hlarge
    exact herror.trans (hlarge.trans (le_add_of_nonneg_right (two_zpow_pos _).le))

theorem lastPlace_mono (hx : x ≠ 0) (h : |x| ≤ |y|) : lastPlace x ≤ lastPlace y := by
  have hlog : Int.log 2 |x| ≤ Int.log 2 |y| := Int.log_mono_right (abs_pos.mpr hx) h
  unfold lastPlace
  omega

theorem nearest_le_zpow (hx : 0 ≤ x) : nearest x ≤ 2 ^ (lastPlace x + 53) := by
  have hscaled : x / 2 ^ lastPlace x ≤ (2 ^ 53 : ℤ) := by
    rw [div_le_iff₀ (two_zpow_pos _)]
    have hlt := abs_lt_lastPlace x
    rw [abs_of_nonneg hx, zpow_add₀ two_ne_zero] at hlt
    push_cast
    linarith
  have hround : (roundEven (x / 2 ^ lastPlace x) : ℚ) ≤ 2 ^ 53 := by
    exact_mod_cast roundEven_le hscaled
  rw [zpow_add₀ two_ne_zero, mul_comm]
  exact mul_le_mul_of_nonneg_right hround (two_zpow_pos _).le

theorem zpow_le_nearest (hx : 0 < x) (h : -1074 < lastPlace x) :
    2 ^ (lastPlace x + 52) ≤ nearest x := by
  have hscaled : ((2 ^ 52 : ℤ) : ℚ) ≤ x / 2 ^ lastPlace x := by
    rw [le_div_iff₀ (two_zpow_pos _)]
    have hle := lastPlace_le_abs hx.ne' h
    rw [abs_of_pos hx, zpow_add₀ two_ne_zero] at hle
    push_cast
    linarith
  have hround : (2 ^ 52 : ℚ) ≤ roundEven (x / 2 ^ lastPlace x) := by
    exact_mod_cast le_roundEven hscaled
  rw [zpow_add₀ two_ne_zero, mul_comm]
  exact mul_le_mul_of_nonneg_right hround (two_zpow_pos _).le

theorem nearest_mono_of_pos (hx : 0 < x) (h : x ≤ y) : nearest x ≤ nearest y := by
  have hy : 0 < y := hx.trans_le h
  have hplaces : lastPlace x ≤ lastPlace y :=
    lastPlace_mono hx.ne' (by rwa [abs_of_pos hx, abs_of_pos hy])
  rcases hplaces.eq_or_lt with heq | hlt
  · have hscaled : x / 2 ^ lastPlace x ≤ y / 2 ^ lastPlace y := by
      rw [heq]
      exact div_le_div_of_nonneg_right h (two_zpow_pos _).le
    have hround : (roundEven (x / 2 ^ lastPlace x) : ℚ) ≤ roundEven (y / 2 ^ lastPlace y) := by
      exact_mod_cast roundEven_mono hscaled
    unfold nearest
    rw [heq] at hround ⊢
    exact mul_le_mul_of_nonneg_right hround (two_zpow_pos _).le
  · -- a power of two lies between numbers whose last places differ
    have hnormal : -1074 < lastPlace y := by
      have hleast := least_le_lastPlace x
      omega
    calc nearest x ≤ 2 ^ (lastPlace x + 53) := nearest_le_zpow hx.le
      _ ≤ 2 ^ (lastPlace y + 52) := zpow_le_zpow_right₀ one_le_two (by omega)
      _ ≤ nearest y := zpow_le_nearest hy hnormal

theorem nearest_mono (h : x ≤ y) : nearest x ≤ nearest y := by
  rcases lt_or_ge 0 x with hx | hx
  · exact nearest_mono_of_pos hx h
  rcases lt_or_ge y 0 with hy | hy
  · have hneg := nearest_mono_of_pos (neg_pos.mpr hy) (neg_le_neg h)
    rw [nearest_neg, nearest_neg] at hneg
    linarith
  · have hneg := nearest_nonneg (neg_nonneg.mpr hx)
    rw [nearest_neg] at hneg
    linarith [nearest_nonneg hy]

/-- Numbers of 53 places need no rounding. -/
theorem nearest_eq_self {m e : ℤ} (hm : |m| < 2 ^ 53) (he : -1074 ≤ e) :
    nearest (m * 2 ^ e) = m * 2 ^ e := by
  rcases eq_or_ne m 0 with rfl | hne
  · rw [Int.cast_zero, zero_mul, nearest_zero]
  have hx : (m * 2 ^ e : ℚ) ≠ 0 := mul_ne_zero (by exact_mod_cast hne) (two_zpow_pos e).ne'
  have hplace : lastPlace (m * 2 ^ e) ≤ e := by
    have hlt : |(m * 2 ^ e : ℚ)| < 2 ^ (e + 53) := by
      rw [abs_mul, abs_of_pos (two_zpow_pos e), zpow_add₀ two_ne_zero, mul_comm]
      exact mul_lt_mul_of_pos_left (by exact_mod_cast hm) (two_zpow_pos e)
    have hle := lastPlace_le hx hlt
    omega
  have hscaled : (m * 2 ^ e : ℚ) / 2 ^ lastPlace (m * 2 ^ e) =
      (m * 2 ^ (e - lastPlace (m * 2 ^ e)).toNat : ℤ) := by
    rw [mul_div_assoc, ← zpow_sub₀ two_ne_zero]
    push_cast
    rw [← zpow_natCast, Int.toNat_of_nonneg (by omega)]
  unfold nearest
  rw [hscaled, roundEven_intCast, ← hscaled, div_mul_cancel₀ _ (two_zpow_pos _).ne']

/-- A number goes to zero when it is not beyond half of the smallest double, to which a tie leads
back. -/
theorem nearest_eq_zero_iff : nearest x = 0 ↔ |x| ≤ 2 ^ (-1075 : ℤ) := by
  have hround : nearest x = 0 ↔ |x| ≤ 2 ^ lastPlace x / 2 := by
    unfold nearest
    rw [mul_eq_zero_iff_right (two_zpow_pos _).ne', Int.cast_eq_zero, roundEven_eq_zero_iff,
      abs_div, abs_of_pos (two_zpow_pos _), div_le_iff₀ (two_zpow_pos _), one_div_mul_eq_div]
  rcases eq_or_ne x 0 with rfl | hx
  · rw [nearest_zero, abs_zero]
    exact iff_of_true rfl (two_zpow_pos _).le
  rcases (least_le_lastPlace x).eq_or_lt with hleast | hnormal
  · rw [hround, ← hleast, two_zpow_half]
    norm_num
  · have hlarge := lastPlace_le_abs hx hnormal
    have hhalf : (2 : ℚ) ^ lastPlace x / 2 < |x| := by
      rw [two_zpow_half]
      exact (zpow_lt_zpow_right₀ one_lt_two (by omega)).trans_le hlarge
    have htiny : (2 : ℚ) ^ (-1075 : ℤ) < |x| :=
      (zpow_lt_zpow_right₀ one_lt_two (by omega)).trans_le hlarge
    rw [hround]
    exact iff_of_false hhalf.not_ge htiny.not_ge

/-- The largest double is half a unit in its last place below this bound. -/
def overflowBound : ℚ := (2 ^ 54 - 1) * 2 ^ (970 : ℤ)

theorem overflowBound_eq : overflowBound = (2 ^ 53 - 1 / 2) * 2 ^ (971 : ℤ) := by
  have hunit : (2 : ℚ) ^ (971 : ℤ) = 2 ^ 1 * 2 ^ (970 : ℤ) := two_zpow_add 970 1
  rw [overflowBound, hunit]
  ring

theorem overflowBound_lt : overflowBound < 2 ^ (1024 : ℤ) := by
  have hpower : (2 : ℚ) ^ (1024 : ℤ) = 2 ^ 54 * 2 ^ (970 : ℤ) := two_zpow_add 970 54
  rw [overflowBound, hpower]
  exact mul_lt_mul_of_pos_right (by norm_num) (two_zpow_pos _)

theorem zpow_le_overflowBound : 2 ^ (1023 : ℤ) ≤ overflowBound := by
  have hpower : (2 : ℚ) ^ (1023 : ℤ) = 2 ^ 53 * 2 ^ (970 : ℤ) := two_zpow_add 970 53
  rw [overflowBound, hpower]
  exact mul_le_mul_of_nonneg_right (by norm_num) (two_zpow_pos _).le

theorem nearest_overflowBound : nearest overflowBound = 2 ^ (1024 : ℤ) := by
  have hpos : 0 < overflowBound := (two_zpow_pos _).trans_le zpow_le_overflowBound
  have hplace : lastPlace overflowBound = 971 := by
    have hupper := lastPlace_le hpos.ne' ((abs_of_pos hpos).trans_lt overflowBound_lt)
    have hlower := le_lastPlace (zpow_le_overflowBound.trans_eq (abs_of_pos hpos).symm)
    omega
  have hscaled : overflowBound / 2 ^ (971 : ℤ) = 2 ^ 53 - 1 / 2 := by
    rw [overflowBound_eq, mul_div_cancel_right₀ _ (two_zpow_pos _).ne']
  have htie : roundEven (2 ^ 53 - 1 / 2) = 2 ^ 53 := by
    apply roundEven_eq
    · norm_num
    · intro _
      exact ⟨2 ^ 52, by norm_num⟩
  unfold nearest
  rw [hplace, hscaled, htie, Int.cast_pow, Int.cast_ofNat]
  exact (two_zpow_add 971 53).symm

/-- A number is not rounded up to the first power beyond all doubles when it is below the bound. At
the bound the tie goes up. -/
theorem abs_nearest_lt_iff : |nearest x| < 2 ^ (1024 : ℤ) ↔ |x| < overflowBound := by
  rw [abs_nearest]
  constructor
  · intro h
    by_contra hge
    have hmono := nearest_mono (not_lt.mp hge)
    rw [nearest_overflowBound] at hmono
    exact absurd h hmono.not_gt
  · intro h
    rcases eq_or_ne x 0 with rfl | hx
    · rw [abs_zero, nearest_zero]
      exact two_zpow_pos _
    have hbound : |(|x|)| < 2 ^ (1024 : ℤ) := by
      rw [abs_abs]
      exact h.trans overflowBound_lt
    have hplace : lastPlace |x| ≤ 971 := lastPlace_le (abs_ne_zero.mpr hx) hbound
    rcases hplace.eq_or_lt with hlast | hlow
    · -- in the topmost binade the bound is what is not rounded to the next power
      have hround := (abs_le.mp (abs_sub_roundEven_le (|x| / 2 ^ (971 : ℤ)))).1
      have hscaled : |x| / 2 ^ (971 : ℤ) < 2 ^ 53 - 1 / 2 := by
        rwa [div_lt_iff₀ (two_zpow_pos _), ← overflowBound_eq]
      have hmantissa : (roundEven (|x| / 2 ^ (971 : ℤ)) : ℚ) < 2 ^ 53 := by linarith
      unfold nearest
      rw [hlast]
      calc (roundEven (|x| / 2 ^ (971 : ℤ)) : ℚ) * 2 ^ (971 : ℤ)
          < 2 ^ 53 * 2 ^ (971 : ℤ) := mul_lt_mul_of_pos_right hmantissa (two_zpow_pos _)
        _ = 2 ^ (1024 : ℤ) := (two_zpow_add 971 53).symm
    · calc nearest |x| ≤ 2 ^ (lastPlace |x| + 53) := nearest_le_zpow (abs_nonneg x)
        _ < 2 ^ (1024 : ℤ) := zpow_lt_zpow_right₀ one_lt_two (by omega)

end Nearest

end CenterOfMass
