import CenterOfMass.Proofs.Numeric.Double
import CenterOfMass.Proofs.Numeric.Unpacked

namespace CenterOfMass

open Float.Model Float.Model.UnpackedFloat

section Packing

variable {m : ℕ} {e : ℤ}

theorem unpack_pack (u : UnpackedFloat) : (Float.Model.pack u).unpack =
    UnpackedFloat.unpack Format.binary64 (UnpackedFloat.pack Format.binary64 u) := rfl

theorem unpack_pack_infinity (s : Sign) :
    (Float.Model.pack (.infinity s)).unpack = .infinity s := by
  cases s <;> rfl

theorem unpack_pack_zero (s : Sign) : (Float.Model.pack (.zero s)).unpack = .zero s := by
  cases s <;> rfl

theorem unpack_pack_notANumber : (Float.Model.pack .notANumber).unpack = .notANumber := rfl

theorem unpack_pack_of_large (s : Sign) (hm : 0 < m) (he : 971 < e) :
    (Float.Model.pack (.finite s m e hm)).unpack = .infinity s := by
  have hpack : UnpackedFloat.pack Format.binary64 (.finite s m e hm) =
      packedInfinity Format.binary64 s := by
    refine if_pos ?_
    change 2 ^ 11 ≤ (e + 1023 + 52).toNat + 1
    omega
  rw [unpack_pack, hpack]
  exact unpack_pack_infinity s

/-- A normal mantissa is kept without its leading place. -/
theorem toNat_one_append {w : ℕ} (mantissa : BitVec w) :
    (1#1 ++ mantissa).toNat = 2 ^ w + mantissa.toNat := by
  rw [BitVec.toNat_append, ← Nat.shiftLeft_add_eq_or_of_lt mantissa.isLt, Nat.shiftLeft_eq]
  exact congrArg (· + mantissa.toNat) (Nat.one_mul _)

theorem unpack_normal {format : Format} (s : Sign) {exponent : BitVec format.exponentBits}
    (mantissa : BitVec format.mantissaBitsWithoutImplicit) (hlow : exponent ≠ 0#_)
    (hhigh : exponent ≠ -1#_) :
    UnpackedFloat.unpack format (packComponents format s exponent mantissa) =
      .finite s (2 ^ format.mantissaBitsWithoutImplicit + mantissa.toNat)
        (exponent.toNat - (format.exponentBias + format.mantissaBitsWithoutImplicit))
        (by positivity) := by
  have hmantissa := toNat_one_append mantissa
  unfold UnpackedFloat.unpack
  simp only [unpackMantissa_packComponents, unpackExponent_packComponents,
    unpackSign_packComponents, Sign.ofBitVec_toBitVec]
  rw [if_neg hhigh, if_neg hlow]
  simp only [hmantissa]

theorem unpack_subnormal (s : Sign) {mantissa : BitVec 52} (h : mantissa ≠ 0#52) :
    UnpackedFloat.unpack Format.binary64 (packComponents Format.binary64 s 0#11 mantissa) =
      .finite s mantissa.toNat (-1074)
        (Nat.pos_of_ne_zero fun h0 => h (BitVec.eq_of_toNat_eq h0)) := by
  unfold UnpackedFloat.unpack
  simp only [unpackMantissa_packComponents, unpackExponent_packComponents,
    unpackSign_packComponents, Sign.ofBitVec_toBitVec]
  rw [if_neg (by decide), if_pos trivial, dif_neg h]
  rfl

theorem toNat_ofNat_of_lt {w n : ℕ} (h : n < 2 ^ w) : (BitVec.ofNat w n).toNat = n := by
  rw [BitVec.toNat_ofNat, Nat.mod_eq_of_lt h]

theorem log2_add_one_eq_iff (hm : 0 < m) (h : m < 2 ^ 53) : m.log2 + 1 = 53 ↔ 2 ^ 52 ≤ m := by
  have hupper := (Nat.log2_lt hm.ne').mpr h
  rw [← Nat.le_log2 hm.ne']
  omega

/-- The exponents of normal doubles lie strictly between the two that have a meaning of their own.
-/
theorem normal_exponent {n : ℕ} (hpos : 0 < n) (h : n < 2047) :
    (BitVec.ofNat 11 n).toNat = n ∧ BitVec.ofNat 11 n ≠ 0#11 ∧ BitVec.ofNat 11 n ≠ -1#11 := by
  have hexponent : (BitVec.ofNat 11 n).toNat = n := toNat_ofNat_of_lt (by omega)
  refine ⟨hexponent, ?_, ?_⟩
  · intro hzero
    rw [hzero, BitVec.toNat_ofNat, Nat.zero_mod] at hexponent
    exact hpos.ne hexponent
  · intro hones
    have hlast : (-1#11 : BitVec 11).toNat = 2047 := by decide
    rw [hones, hlast] at hexponent
    exact h.ne' hexponent

/-- The leading place of a normal mantissa is left out. -/
theorem unpack_pack_normal (s : Sign) (hm : 0 < m) (hc : Canonical m e) (he : e ≤ 971)
    (hnormal : 2 ^ 52 ≤ m) :
    (Float.Model.pack (.finite s m e hm)).unpack = .finite s m e hm := by
  have hleast := hc.least_le
  have hfits := hc.fits
  have hpack : UnpackedFloat.pack Format.binary64 (.finite s m e hm) =
      packComponents Format.binary64 s (BitVec.ofNat 11 (e + 1023 + 52).toNat)
        (BitVec.ofNat 52 m) := by
    have hsmall : ¬ 2 ^ 11 ≤ (e + 1023 + 52).toNat + 1 := by omega
    exact (if_neg hsmall).trans (if_pos ((log2_add_one_eq_iff hm hfits).mpr hnormal))
  obtain ⟨hexponent, hlow, hhigh⟩ := normal_exponent (n := (e + 1023 + 52).toNat) (by omega)
    (by omega)
  have hmantissa : 2 ^ 52 + (BitVec.ofNat 52 m).toNat = m := by
    rw [BitVec.toNat_ofNat]
    omega
  have hbias : (Format.binary64.exponentBias : ℤ) = 1023 := rfl
  rw [unpack_pack, hpack, unpack_normal s _ hlow hhigh]
  simp only [hmantissa, hexponent, hbias, UnpackedFloat.finite.injEq, true_and]
  omega

theorem unpack_pack_subnormal (s : Sign) (hm : 0 < m) (hlast : e = -1074) (h : m < 2 ^ 52) :
    (Float.Model.pack (.finite s m e hm)).unpack = .finite s m e hm := by
  have hpack : UnpackedFloat.pack Format.binary64 (.finite s m e hm) =
      packComponents Format.binary64 s 0#11 (BitVec.ofNat 52 m) := by
    have hsmall : ¬ 2 ^ 11 ≤ (e + 1023 + 52).toNat + 1 := by omega
    have hlog : ¬ m.log2 + 1 = 53 := by
      rw [log2_add_one_eq_iff hm (by omega)]
      omega
    exact (if_neg hsmall).trans (if_neg hlog)
  have hmantissa : (BitVec.ofNat 52 m).toNat = m := toNat_ofNat_of_lt h
  have hpos : BitVec.ofNat 52 m ≠ 0#52 := by
    intro hzero
    rw [hzero, BitVec.toNat_ofNat, Nat.zero_mod] at hmantissa
    exact hm.ne hmantissa
  rw [unpack_pack, hpack, unpack_subnormal s hpos]
  simp only [hmantissa, hlast]

/-- A double keeps what it is packed from. -/
theorem unpack_pack_finite (s : Sign) (hm : 0 < m) (hc : Canonical m e) (he : e ≤ 971) :
    (Float.Model.pack (.finite s m e hm)).unpack = .finite s m e hm := by
  by_cases hnormal : 2 ^ 52 ≤ m
  · exact unpack_pack_normal s hm hc he hnormal
  · have hlast : e = -1074 := by
      by_contra hne
      have hleast := hc.least_le
      exact hnormal (hc.normal (by omega))
    exact unpack_pack_subnormal s hm hlast (Nat.lt_of_not_le hnormal)

end Packing

section Unpacking

/-- What is unpacked from the bits of a finite double fits into them. -/
theorem isFinite_unpack_bits {b : BitVec 64}
    (h : (UnpackedFloat.unpack Format.binary64 b).isFinite = true) :
    IsFinite (UnpackedFloat.unpack Format.binary64 b) := by
  have hmantissa : (@unpackMantissa Format.binary64 b).toNat < 2 ^ 52 := BitVec.isLt _
  have hexponent : (@unpackExponent Format.binary64 b).toNat < 2 ^ 11 := BitVec.isLt _
  unfold UnpackedFloat.unpack at h ⊢
  dsimp only at h ⊢
  split_ifs at h ⊢ with hhigh hzero hlow hzero
  · cases h
  · cases h
  · exact .zero _
  · have hzero' : (@unpackExponent Format.binary64 b).toNat = 0 := by rw [hlow]; rfl
    have hlast : ((@unpackExponent Format.binary64 b).toNat : ℤ) - (1023 + 52) + 1 = -1074 := by
      omega
    refine .finite _ ⟨hmantissa.trans (by norm_num), hlast.ge, fun hlarge => ?_⟩
      (hlast.trans_le (by norm_num))
    exact absurd (hlarge.trans_eq hlast) (lt_irrefl _)
  · have hpos : (@unpackExponent Format.binary64 b).toNat ≠ 0 := by
      intro h0
      exact hlow (BitVec.eq_of_toNat_eq h0)
    have hones : (@unpackExponent Format.binary64 b).toNat ≠ 2047 := by
      intro h0
      exact hhigh (BitVec.eq_of_toNat_eq h0)
    have hlong : (1#1 ++ @unpackMantissa Format.binary64 b).toNat =
        2 ^ 52 + (@unpackMantissa Format.binary64 b).toNat := toNat_one_append _
    have hbounds : -1074 ≤ ((@unpackExponent Format.binary64 b).toNat : ℤ) - (1023 + 52) ∧
        ((@unpackExponent Format.binary64 b).toNat : ℤ) - (1023 + 52) ≤ 971 := by omega
    refine .finite _ ⟨?_, hbounds.1, fun _ => ?_⟩ hbounds.2
    · exact hlong.trans_lt (by omega)
    · exact (Nat.le_add_right _ _).trans_eq hlong.symm

theorem isFinite_unpack {a : Float} (h : a.isFinite = true) : IsFinite a.toModel.unpack :=
  isFinite_unpack_bits h

end Unpacking

/-- The number that a double stands for; zero for what is no number. -/
def valueOf (d : Float) : ℚ := value d.toModel.unpack

/-- The double that a number becomes: the nearest one, and beyond all of them an infinity. -/
inductive Rounds (d : Float) (x : ℚ) : Prop
  | finite (hfinite : d.isFinite = true) (hvalue : valueOf d = nearest x)
    (hlt : |nearest x| < 2 ^ (1024 : ℤ))
  | infinite (s : Sign) (h : d.toModel.unpack = .infinity s)
    (hle : 2 ^ (1024 : ℤ) ≤ |nearest x|)

section Operations

variable {a b d : Float} {x : ℚ}

theorem nearest_factor_mul (s : Sign) (y : ℚ) : nearest (factor s * y) = factor s * nearest y := by
  cases s
  · rw [factor, neg_one_mul, neg_one_mul, nearest_neg]
  · rw [factor, one_mul, one_mul]

theorem abs_factor_mul (s : Sign) (y : ℚ) : |factor s * y| = |y| := by
  cases s
  · rw [factor, neg_one_mul, abs_neg]
  · rw [factor, one_mul]

theorem Canonical.value_lt {m : ℕ} {e : ℤ} (hc : Canonical m e) (he : e ≤ 971) :
    |(m * 2 ^ e : ℚ)| < 2 ^ (1024 : ℤ) := by
  have hunit := two_zpow_pos e
  rw [abs_of_nonneg (mul_nonneg m.cast_nonneg hunit.le)]
  calc (m * 2 ^ e : ℚ) < 2 ^ 53 * 2 ^ e :=
        mul_lt_mul_of_pos_right (by exact_mod_cast hc.fits) hunit
    _ = 2 ^ (e + (53 : ℕ)) := (two_zpow_add e 53).symm
    _ ≤ 2 ^ (1024 : ℤ) := zpow_le_zpow_right₀ one_le_two (by omega)

theorem Canonical.le_value {m : ℕ} {e : ℤ} (hc : Canonical m e) (he : 971 < e) :
    2 ^ (1024 : ℤ) ≤ |(m * 2 ^ e : ℚ)| := by
  have hunit := two_zpow_pos e
  rw [abs_of_nonneg (mul_nonneg m.cast_nonneg hunit.le)]
  calc (2 : ℚ) ^ (1024 : ℤ) ≤ 2 ^ (e + (52 : ℕ)) := zpow_le_zpow_right₀ one_le_two (by omega)
    _ = 2 ^ 52 * 2 ^ e := two_zpow_add e 52
    _ ≤ m * 2 ^ e :=
        mul_le_mul_of_nonneg_right (by exact_mod_cast hc.normal (by omega)) hunit.le

theorem rounds_pack {u : UnpackedFloat} (h : RoundsTo x u) :
    Rounds (Float.ofModel (Float.Model.pack u)) x := by
  obtain ⟨s, y, rfl, hu⟩ := h
  cases hu with
  | zero hy =>
    have hmodel : (Float.ofModel (Float.Model.pack (.zero s))).toModel.unpack = .zero s :=
      unpack_pack_zero s
    refine .finite ?_ ?_ ?_
    · exact congrArg UnpackedFloat.isFinite hmodel
    · rw [nearest_factor_mul, hy, mul_zero, valueOf, hmodel, value_zero]
    · rw [nearest_factor_mul, hy, mul_zero, abs_zero]
      exact two_zpow_pos _
  | @finite m e hm hc hy =>
    rcases le_or_gt e 971 with he | he
    · have hmodel : (Float.ofModel (Float.Model.pack (.finite s m e hm))).toModel.unpack =
          .finite s m e hm := unpack_pack_finite s hm hc he
      refine .finite ?_ ?_ ?_
      · exact congrArg UnpackedFloat.isFinite hmodel
      · rw [nearest_factor_mul, hy, valueOf, hmodel, value_finite]
      · rw [nearest_factor_mul, abs_factor_mul, hy]
        exact hc.value_lt he
    · refine .infinite s (unpack_pack_of_large s hm he) ?_
      rw [nearest_factor_mul, abs_factor_mul, hy]
      exact hc.le_value he

theorem rounds_mul (ha : a.isFinite = true) (hb : b.isFinite = true) :
    Rounds (a * b) (valueOf a * valueOf b) :=
  rounds_pack (roundsTo_mul (isFinite_unpack ha) (isFinite_unpack hb))

theorem rounds_sub (ha : a.isFinite = true) (hb : b.isFinite = true) :
    Rounds (a - b) (valueOf a - valueOf b) :=
  rounds_pack (roundsTo_sub (isFinite_unpack ha) (isFinite_unpack hb))

theorem rounds_div (ha : a.isFinite = true) (hb : b.isFinite = true) (hzero : valueOf b ≠ 0) :
    Rounds (a / b) (valueOf a / valueOf b) :=
  rounds_pack (roundsTo_div (isFinite_unpack ha) (isFinite_unpack hb) hzero)

namespace Rounds

theorem isFinite_iff (h : Rounds d x) : d.isFinite = true ↔ |x| < overflowBound := by
  rw [← abs_nearest_lt_iff]
  cases h with
  | finite hfinite _ hlt => exact iff_of_true hfinite hlt
  | infinite s h hle =>
    have hinfinite : d.isFinite = false := congrArg UnpackedFloat.isFinite h
    rw [hinfinite]
    exact iff_of_false Bool.false_ne_true hle.not_gt

theorem valueOf_eq (h : Rounds d x) (hfinite : d.isFinite = true) : valueOf d = nearest x := by
  cases h with
  | finite _ hvalue _ => exact hvalue
  | infinite s h _ => cases (congrArg UnpackedFloat.isFinite h).symm.trans hfinite

end Rounds

theorem unpack_mul (a b : Float) : (a * b).toModel.unpack = (Float.Model.pack
    (UnpackedFloat.mul Format.binary64 a.toModel.unpack b.toModel.unpack)).unpack := rfl

theorem unpack_add (a b : Float) : (a + b).toModel.unpack = (Float.Model.pack
    (UnpackedFloat.add Format.binary64 a.toModel.unpack b.toModel.unpack)).unpack := rfl

theorem unpack_sub (a b : Float) : (a - b).toModel.unpack = (Float.Model.pack
    (UnpackedFloat.sub Format.binary64 a.toModel.unpack b.toModel.unpack)).unpack := rfl

theorem unpack_div (a b : Float) : (a / b).toModel.unpack = (Float.Model.pack
    (UnpackedFloat.div Format.binary64 a.toModel.unpack b.toModel.unpack)).unpack := rfl

/-- One of the two doubles that stand for zero. -/
def IsZero (d : Float) : Prop := ∃ s, d.toModel.unpack = .zero s

namespace IsZero

theorem natCast_zero : IsZero (Nat.cast 0) := ⟨.positive, rfl⟩

theorem isFinite (h : IsZero a) : a.isFinite = true := by
  obtain ⟨s, hs⟩ := h
  exact congrArg UnpackedFloat.isFinite hs

theorem valueOf_eq (h : IsZero a) : valueOf a = 0 := by
  obtain ⟨s, hs⟩ := h
  rw [valueOf, hs, value_zero]

theorem of_valueOf (hfinite : a.isFinite = true) (h : valueOf a = 0) : IsZero a := by
  have hkind := isFinite_unpack hfinite
  rw [valueOf] at h
  generalize hu : a.toModel.unpack = u at h hkind
  cases hkind with
  | zero s => exact ⟨s, hu⟩
  | @finite s m e hm =>
    have hm' : (m : ℚ) ≠ 0 := by exact_mod_cast hm.ne'
    have hfactor : factor s ≠ 0 := by cases s <;> norm_num [factor]
    exact absurd h (mul_ne_zero hfactor (mul_ne_zero hm' (two_zpow_pos e).ne'))

theorem mul (ha : IsZero a) (hb : b.isFinite = true) : IsZero (a * b) := by
  obtain ⟨s, hs⟩ := ha
  have hkind := isFinite_unpack hb
  have hproduct := unpack_mul a b
  rw [hs] at hproduct
  generalize b.toModel.unpack = u at hproduct hkind
  cases hkind <;> exact ⟨_, hproduct.trans (unpack_pack_zero _)⟩

theorem mul' (ha : a.isFinite = true) (hb : IsZero b) : IsZero (a * b) := by
  obtain ⟨s, hs⟩ := hb
  have hkind := isFinite_unpack ha
  have hproduct := unpack_mul a b
  rw [hs] at hproduct
  generalize a.toModel.unpack = u at hproduct hkind
  cases hkind <;> exact ⟨_, hproduct.trans (unpack_pack_zero _)⟩

theorem sub (ha : IsZero a) (hb : IsZero b) : IsZero (a - b) := by
  obtain ⟨s, hs⟩ := ha
  obtain ⟨t, ht⟩ := hb
  have hdifference := unpack_sub a b
  rw [hs, ht, UnpackedFloat.sub] at hdifference
  split_ifs at hdifference <;> exact ⟨_, hdifference.trans (unpack_pack_zero _)⟩

theorem div (ha : IsZero a) (hb : b.isFinite = true) (hzero : valueOf b ≠ 0) : IsZero (a / b) := by
  have hquotient := rounds_div ha.isFinite hb hzero
  rw [ha.valueOf_eq, zero_div] at hquotient
  have hfinite : (a / b).isFinite = true := by
    rw [hquotient.isFinite_iff, abs_zero]
    exact (two_zpow_pos _).trans_le zpow_le_overflowBound
  exact of_valueOf hfinite ((hquotient.valueOf_eq hfinite).trans nearest_zero)

theorem div_infinity {t : Sign} (ha : a.isFinite = true) (hb : b.toModel.unpack = .infinity t) :
    IsZero (a / b) := by
  have hkind := isFinite_unpack ha
  have hquotient := unpack_div a b
  rw [hb] at hquotient
  generalize a.toModel.unpack = u at hquotient hkind
  cases hkind <;> exact ⟨_, hquotient.trans (unpack_pack_zero _)⟩

/-- Zero has no quotient by zero. -/
theorem not_isFinite_div (ha : IsZero a) (hb : IsZero b) : ¬ (a / b).isFinite = true := by
  obtain ⟨s, hs⟩ := ha
  obtain ⟨t, ht⟩ := hb
  have hquotient := unpack_div a b
  rw [hs, ht] at hquotient
  have hundefined : (a / b).isFinite = false :=
    congrArg UnpackedFloat.isFinite (hquotient.trans unpack_pack_notANumber)
  rw [hundefined]
  exact Bool.false_ne_true

end IsZero

/-- To add a zero changes nothing but the sign of a zero. -/
theorem Rounds.add_zero (h : Rounds a x) (hb : IsZero b) : Rounds (a + b) x := by
  obtain ⟨t, ht⟩ := hb
  have hsum := unpack_add a b
  rw [ht] at hsum
  cases h with
  | finite hfinite hvalue hlt =>
    have hkind := isFinite_unpack hfinite
    rw [valueOf] at hvalue
    generalize a.toModel.unpack = u at hsum hkind hvalue
    cases hkind with
    | zero s =>
      have hzero : IsZero (a + b) := by
        rw [UnpackedFloat.add] at hsum
        split_ifs at hsum <;> exact ⟨_, hsum.trans (unpack_pack_zero _)⟩
      exact .finite hzero.isFinite (hzero.valueOf_eq.trans hvalue) hlt
    | @finite s m e hm hc he =>
      have hkept := hsum.trans (unpack_pack_finite s hm hc he)
      exact .finite (congrArg UnpackedFloat.isFinite hkept)
        ((congrArg value hkept).trans hvalue) hlt
  | infinite s h hle =>
    rw [h] at hsum
    exact .infinite s (hsum.trans (unpack_pack_infinity s)) hle

/-- The greatest double is half a unit in its last place below all that is rounded up. -/
theorem abs_valueOf_le (h : a.isFinite = true) :
    |valueOf a| ≤ overflowBound - 2 ^ (970 : ℤ) := by
  have hunit := two_zpow_pos 970
  have hbound : overflowBound - 2 ^ (970 : ℤ) = (2 ^ 53 - 1) * 2 ^ (971 : ℤ) := by
    have hpower : (2 : ℚ) ^ (971 : ℤ) = 2 ^ 1 * 2 ^ (970 : ℤ) := two_zpow_add 970 1
    rw [overflowBound, hpower]
    ring
  rw [hbound]
  have hkind := isFinite_unpack h
  unfold valueOf
  generalize a.toModel.unpack = u at hkind
  cases hkind with
  | zero s =>
    rw [value_zero, abs_zero]
    exact mul_nonneg (by norm_num) (two_zpow_pos _).le
  | @finite s m e hm hc he =>
    have hfits : (m : ℚ) ≤ 2 ^ 53 - 1 := by
      have hle : m + 1 ≤ 2 ^ 53 := hc.fits
      have hcast : (m : ℚ) + 1 ≤ 2 ^ 53 := by exact_mod_cast hle
      linarith
    rw [value_finite, abs_factor_mul, abs_of_nonneg (mul_nonneg m.cast_nonneg (two_zpow_pos e).le)]
    exact mul_le_mul hfits (zpow_le_zpow_right₀ one_le_two he) (two_zpow_pos e).le (by norm_num)

theorem abs_valueOf_lt (h : a.isFinite = true) : |valueOf a| < overflowBound :=
  (abs_valueOf_le h).trans_lt (sub_lt_self _ (two_zpow_pos _))

theorem bne_zero_iff (h : a.isFinite = true) :
    (a != (Nat.cast 0 : Float)) = true ↔ valueOf a ≠ 0 := by
  have hkind := isFinite_unpack h
  have hcompare : (a != (Nat.cast 0 : Float)) =
      !UnpackedFloat.beq a.toModel.unpack (.zero .positive) := rfl
  rw [hcompare]
  constructor
  · intro hne hvalue
    obtain ⟨s, hs⟩ := IsZero.of_valueOf h hvalue
    rw [hs] at hne
    exact Bool.false_ne_true hne
  · intro hvalue
    unfold valueOf at hvalue
    generalize a.toModel.unpack = u at hkind hvalue ⊢
    cases hkind with
    | zero s => exact absurd rfl hvalue
    | @finite s m e hm => cases s <;> rfl

theorem isFinite_pack_eq_false {u : UnpackedFloat} (h : u.isFinite = false) :
    (Float.Model.pack u).unpack.isFinite = false := by
  cases u with
  | infinity s => exact congrArg UnpackedFloat.isFinite (unpack_pack_infinity s)
  | notANumber => exact congrArg UnpackedFloat.isFinite unpack_pack_notANumber
  | zero s => cases h
  | finite s m e hm => cases h

/-- What is no finite number stays so when it is reduced. -/
theorem isFinite_of_sub (h : (a - b).isFinite = true) : a.isFinite = true := by
  by_contra hinfinite
  have hkind : a.toModel.unpack.isFinite = false := Bool.eq_false_iff.mpr hinfinite
  have hdifference : (UnpackedFloat.sub Format.binary64 a.toModel.unpack
      b.toModel.unpack).isFinite = false := by
    generalize a.toModel.unpack = u at hkind ⊢
    generalize b.toModel.unpack = w
    rcases u with s | _ | s | ⟨s, m, e, hm⟩
    · rcases w with t | _ | t | _
      · rw [UnpackedFloat.sub]
        split_ifs <;> rfl
      all_goals rfl
    · rfl
    all_goals cases hkind
  exact Bool.false_ne_true ((isFinite_pack_eq_false hdifference).symm.trans h)

/-- What is no finite number stays so when it is divided. -/
theorem isFinite_of_div (h : (a / b).isFinite = true) : a.isFinite = true := by
  by_contra hinfinite
  have hkind : a.toModel.unpack.isFinite = false := Bool.eq_false_iff.mpr hinfinite
  have hquotient : (UnpackedFloat.div Format.binary64 a.toModel.unpack
      b.toModel.unpack).isFinite = false := by
    generalize a.toModel.unpack = u at hkind ⊢
    generalize b.toModel.unpack = w
    rcases u with s | _ | s | ⟨s, m, e, hm⟩
    · rcases w with t | _ | t | _ <;> rfl
    · rfl
    all_goals cases hkind
  exact Bool.false_ne_true ((isFinite_pack_eq_false hquotient).symm.trans h)

end Operations

end CenterOfMass
