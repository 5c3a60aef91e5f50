import CenterOfMass.Proofs.Numeric.DoubleExact

namespace CenterOfMass

open Float.Model Float.Model.UnpackedFloat

/-- A mantissa and an exponent as single precision keeps them. -/
structure NormalSingle (m : ℕ) (e : ℤ) : Prop where
  normal : 2 ^ 23 ≤ m
  fits : m < 2 ^ 24
  least_le : -149 ≤ e
  le_greatest : e ≤ 104

section Rounding

variable {m : ℕ} {e : ℤ}

/-- A natural number leaves no residual bits. -/
theorem Represents.eq_exact {a : ExtendedMantissa} (h : Represents a m) :
    a = ⟨m, false, false⟩ := by
  have hbounds := h.bounds
  have hmantissa : a.mantissa = m := by
    have hle : a.mantissa ≤ m := by exact_mod_cast hbounds.1
    have hlt : m < a.mantissa + 1 := by exact_mod_cast hbounds.2
    omega
  obtain ⟨n, r, s⟩ := a
  obtain rfl : n = m := hmantissa
  cases r <;> cases s <;> simp only [Represents] at h
  · rfl
  all_goals linarith

theorem NormalSingle.log2_shiftLeft (h : NormalSingle m e) (k : ℕ) : (m <<< k).log2 = 23 + k := by
  have hlower : 2 ^ (23 + k) ≤ m * 2 ^ k := by
    rw [pow_add]
    exact Nat.mul_le_mul_right _ h.normal
  have hupper : m * 2 ^ k < 2 ^ (23 + k + 1) := by
    rw [Nat.add_right_comm, pow_add]
    exact Nat.mul_lt_mul_of_pos_right h.fits (by positivity)
  rw [Nat.shiftLeft_eq]
  exact (Nat.log2_eq_iff (Nat.lt_of_lt_of_le (by positivity) hlower).ne').mpr ⟨hlower, hupper⟩

/-- Places that were added below a mantissa are cut off again. -/
theorem NormalSingle.shiftToTargetExponent_eq (h : NormalSingle m e) (k : ℕ) :
    shiftToTargetExponent Format.binary32 (m <<< k) (e - k) .exact = (⟨m, false, false⟩, e) := by
  have hleast := h.least_le
  have htarget : Format.binary32.targetExponent (totalExponent (m <<< k) (e - k)) = e := by
    have hplaces : Format.binary32.targetExponent (totalExponent (m <<< k) (e - k)) =
        max (((m <<< k).log2 + 1 + (e - k) : ℤ) - 24) (-149) := rfl
    rw [hplaces, h.log2_shiftLeft k]
    push_cast
    omega
  have hshift : (e - (e - k)).toNat = k := by omega
  have hexact : (ExtendedMantissa.ofMantissaAndAccuracy (m <<< k) .exact) >>> k =
      (⟨m, false, false⟩ : ExtendedMantissa) := by
    have hrepresents : Represents (.ofMantissaAndAccuracy (m <<< k) .exact) ((m <<< k : ℕ) : ℚ) :=
      rfl
    have hscaled := hrepresents.shiftRight k
    rw [Nat.shiftLeft_eq, Nat.cast_mul, Nat.cast_pow, Nat.cast_ofNat,
      mul_div_cancel_right₀ _ (pow_ne_zero _ two_ne_zero)] at hscaled
    rw [Nat.shiftLeft_eq]
    exact hscaled.eq_exact
  unfold shiftToTargetExponent shiftToExponent
  rw [htarget]
  dsimp only
  rw [hshift, hexact, Int.sub_add_cancel]

theorem NormalSingle.roundWithAccuracy_eq (h : NormalSingle m e) (s : Sign) (k : ℕ)
    (hm : 0 < m) : roundWithAccuracy Format.binary32 s (m <<< k) (e - k) .exact =
      .finite s m e hm := by
  have hself := h.shiftToTargetExponent_eq 0
  rw [Nat.shiftLeft_zero, Nat.cast_zero, Int.sub_zero] at hself
  have hkept : ExtendedMantissa.roundedMantissa ⟨m, false, false⟩ = m := rfl
  unfold roundWithAccuracy
  rw [h.shiftToTargetExponent_eq k]
  dsimp only
  rw [hkept, hself]
  exact dif_neg hm.ne'

end Rounding

section Packing

variable {m : ℕ} {e : ℤ}

theorem NormalSingle.unpack_pack (h : NormalSingle m e) (s : Sign) (hm : 0 < m) :
    (Float32.Model.pack (.finite s m e hm)).unpack = .finite s m e hm := by
  have hleast := h.least_le
  have hgreatest := h.le_greatest
  have hnormal := h.normal
  have hfits := h.fits
  have hlog : m.log2 + 1 = 24 := by
    have hplaces := h.log2_shiftLeft 0
    rw [Nat.shiftLeft_zero] at hplaces
    omega
  have hpack : UnpackedFloat.pack Format.binary32 (.finite s m e hm) =
      packComponents Format.binary32 s (BitVec.ofNat 8 (e + 127 + 23).toNat)
        (BitVec.ofNat 23 m) := by
    have hsmall : ¬ 2 ^ 8 ≤ (e + 127 + 23).toNat + 1 := by omega
    exact (if_neg hsmall).trans (if_pos hlog)
  have hexponent : (BitVec.ofNat 8 (e + 127 + 23).toNat).toNat = (e + 127 + 23).toNat :=
    toNat_ofNat_of_lt (by omega)
  have hlow : BitVec.ofNat 8 (e + 127 + 23).toNat ≠ 0#8 := by
    intro hzero
    rw [hzero] at hexponent
    change 0 = _ at hexponent
    omega
  have hhigh : BitVec.ofNat 8 (e + 127 + 23).toNat ≠ -1#8 := by
    intro hones
    rw [hones] at hexponent
    change 255 = _ at hexponent
    omega
  have hmantissa : 2 ^ 23 + (BitVec.ofNat 23 m).toNat = m := by
    rw [BitVec.toNat_ofNat]
    omega
  have hbias : (Format.binary32.exponentBias : ℤ) = 127 := rfl
  change UnpackedFloat.unpack Format.binary32 (UnpackedFloat.pack Format.binary32 _) = _
  rw [hpack, unpack_normal s _ hlow hhigh]
  simp only [hmantissa, hexponent, hbias, UnpackedFloat.finite.injEq, true_and]
  omega

/-- To multiply by one changes no mantissa. -/
theorem NormalSingle.mul_one (h : NormalSingle m e) (s : Sign) (hm : 0 < m) :
    UnpackedFloat.mul Format.binary32 (.finite s m e hm)
      (.finite .positive (2 ^ 23) (-23) (by positivity)) = .finite s m e hm := by
  have hsign : s * .positive = s := by cases s <;> rfl
  have hround := h.roundWithAccuracy_eq s 23 hm
  rw [Nat.shiftLeft_eq] at hround
  unfold UnpackedFloat.mul
  dsimp only
  rw [hsign]
  exact hround

end Packing

section Naturals

variable {n : ℕ}

/-- A natural number of at most 24 places as single precision keeps it. -/
theorem exists_normalSingle (hpos : 0 < n) (hn : n < 2 ^ 24) :
    ∃ k : ℕ, NormalSingle (n <<< k) (-k) ∧ n.log2 + k = 23 := by
  have hupper : n.log2 ≤ 23 := Nat.lt_succ_iff.mp ((Nat.log2_lt hpos.ne').mpr hn)
  obtain ⟨k, hk⟩ := Nat.exists_eq_add_of_le hupper
  refine ⟨k, ⟨?_, ?_, by omega, by omega⟩, hk.symm⟩
  · have hle := Nat.mul_le_mul_right (2 ^ k) (Nat.log2_self_le hpos.ne')
    rwa [← pow_add, ← hk, ← Nat.shiftLeft_eq] at hle
  · have hlt := Nat.mul_lt_mul_of_pos_right (Nat.lt_log2_self (n := n)) (Nat.two_pow_pos k)
    rwa [← pow_add, Nat.add_right_comm, ← hk, ← Nat.shiftLeft_eq] at hlt

theorem ofNat_binary32 {k : ℕ} (h : NormalSingle (n <<< k) (-k)) (hk : n.log2 + k = 23)
    (hm : 0 < n <<< k) :
    UnpackedFloat.ofNat Format.binary32 n = .finite .positive (n <<< k) (-k) hm := by
  have hpos : 0 < n := by
    by_contra hzero
    simp [Nat.eq_zero_of_not_pos hzero] at hm
  have htarget : Format.binary32.targetExponent (totalExponent n 0) = -k := by
    have hplaces : Format.binary32.targetExponent (totalExponent n 0) =
        max ((n.log2 + 1 + 0 : ℤ) - 24) (-149) := rfl
    rw [hplaces]
    omega
  have hround := h.roundWithAccuracy_eq .positive 0 hm
  rw [Nat.shiftLeft_zero, Nat.cast_zero, Int.sub_zero] at hround
  have hshift : (0 - -(k : ℤ)).toNat = k := by omega
  have hsign : compare (n : ℤ) 0 = .gt := compare_gt_iff_gt.mpr (by omega)
  unfold UnpackedFloat.ofNat UnpackedFloat.ofInt UnpackedFloat.normalize
  rw [hsign]
  unfold UnpackedFloat.round decreaseExponent
  dsimp only
  rw [Int.toNat_natCast, htarget, hshift, Int.zero_sub]
  exact hround

theorem unpack_one_single : (Float32.ofBits 0x3F800000).toModel.unpack =
    .finite .positive (2 ^ 23) (-23) (by positivity) := rfl

theorem ofScientific_binary32 (h : NormalSingle n 0) (hm : 0 < n) :
    UnpackedFloat.ofScientific Format.binary32 n 0 = .finite .positive n 0 hm := by
  have hround := h.roundWithAccuracy_eq .positive 24 hm
  have hbits : Format.binary32.mantissaBits = 24 := rfl
  have hsign : (.positive * .positive : Sign) = .positive := rfl
  have hplaces : ¬ (0 : ℤ) < -((2 ^ Format.binary32.exponentBits : ℤ) + n.log2) := by
    have hpos : (0 : ℤ) < 2 ^ Format.binary32.exponentBits := by positivity
    omega
  unfold UnpackedFloat.ofScientific
  rw [dif_neg hm.ne', if_neg (by decide), if_neg hplaces, if_pos le_rfl]
  simp only [UnpackedFloat.mul, hbits, hsign, Int.toNat_zero, pow_zero, Nat.mul_one]
  exact hround

theorem natCast_single {k : ℕ} (h : NormalSingle (n <<< k) (-k)) (hk : n.log2 + k = 23)
    (hm : 0 < n <<< k) :
    (Nat.cast n : Float32) = .ofModel (.pack (.finite .positive (n <<< k) (-k) hm)) := by
  by_cases hsmall : n < 2 ^ 23
  · have hword : n.toUInt64.toNat = n := UInt64.toNat_ofNat_of_lt (by
      have hlimit : (2 : ℕ) ^ 23 < UInt64.size := by decide
      omega)
    have hcast : n.toUInt64.toFloat32.toModel = .pack (.finite .positive (n <<< k) (-k) hm) := by
      change Float32.Model.pack (UnpackedFloat.ofNat Format.binary32 n.toUInt64.toNat) = _
      rw [hword, ofNat_binary32 h hk hm]
    have hunfold : (Nat.cast n : Float32) = .ofModel (.pack (UnpackedFloat.mul Format.binary32
        n.toUInt64.toFloat32.toModel.unpack (Float32.ofBits 0x3F800000).toModel.unpack)) :=
      dif_pos ⟨hsmall, Nat.zero_le 10⟩
    rw [hunfold, hcast, h.unpack_pack, unpack_one_single, h.mul_one]
  · -- a number of 24 places has no place to spare
    have hfull : 23 ≤ n.log2 := (Nat.le_log2 (by omega)).mpr (by omega)
    obtain rfl : k = 0 := by omega
    have hself : NormalSingle n 0 := h
    have hunfold : (Nat.cast n : Float32) =
        .ofModel (.pack (UnpackedFloat.ofScientific Format.binary32 n 0)) :=
      dif_neg fun hboth => hsmall hboth.1
    rw [hunfold, ofScientific_binary32 hself hm]
    rfl

/-- A natural number of at most 24 places has a mantissa and an exponent that are kept. -/
theorem exists_natCast_single (hpos : 0 < n) (hn : n < 2 ^ 24) :
    ∃ m e, ∃ hm : 0 < m, NormalSingle m e ∧ (m * 2 ^ e : ℚ) = n ∧
      (Nat.cast n : Float32) = .ofModel (.pack (.finite .positive m e hm)) := by
  obtain ⟨k, hnormal, hk⟩ := exists_normalSingle hpos hn
  have hm : 0 < n <<< k := Nat.lt_of_lt_of_le (by norm_num) hnormal.normal
  refine ⟨n <<< k, -k, hm, hnormal, ?_, natCast_single hnormal hk hm⟩
  rw [Nat.shiftLeft_eq, zpow_neg, zpow_natCast]
  push_cast
  exact mul_inv_cancel_right₀ (pow_ne_zero _ two_ne_zero) _

theorem natCast_mul_one_single (hn : n < 2 ^ 24) :
    (Nat.cast n * Nat.cast 1 : Float32) = Nat.cast n := by
  rcases Nat.eq_zero_or_pos n with rfl | hpos
  · decide
  · obtain ⟨m, e, hm, hnormal, -, hcast⟩ := exists_natCast_single hpos hn
    have hproduct : (Nat.cast n * Nat.cast 1 : Float32) = .ofModel (.pack
        (UnpackedFloat.mul Format.binary32 (Nat.cast n : Float32).toModel.unpack
          (Float32.ofBits 0x3F800000).toModel.unpack)) := rfl
    rw [hproduct, unpack_one_single, hcast, hnormal.unpack_pack, hnormal.mul_one]

theorem natCast_mul_zero_single (hn : n < 2 ^ 24) :
    (Nat.cast n * Nat.cast 0 : Float32) = Nat.cast 0 := by
  rcases Nat.eq_zero_or_pos n with rfl | hpos
  · decide
  · obtain ⟨m, e, hm, hnormal, -, hcast⟩ := exists_natCast_single hpos hn
    have hproduct : (Nat.cast n * Nat.cast 0 : Float32) = .ofModel (.pack
        (UnpackedFloat.mul Format.binary32 (Nat.cast n : Float32).toModel.unpack
          (.zero .positive))) := rfl
    have hzero : Float32.ofModel (.pack (.zero .positive)) = Nat.cast 0 := by decide
    rw [hproduct, hcast, hnormal.unpack_pack]
    exact hzero

/-- The number of exact arithmetic that a number of single precision stands for. -/
def singleNumber (x : Float32) : Exact := .ofUnpacked x.toModel.unpack

/-- Natural numbers of at most 24 places need no rounding. -/
theorem singleNumber_natCast (hn : n < 2 ^ 24) : singleNumber (Nat.cast n) = Nat.cast n := by
  rcases Nat.eq_zero_or_pos n with rfl | hpos
  · rfl
  · obtain ⟨m, e, hm, hnormal, hvalue, hcast⟩ := exists_natCast_single hpos hn
    rw [singleNumber, hcast, hnormal.unpack_pack]
    change Exact.finite (factor .positive * (m * 2 ^ e)) = Exact.finite (n : ℚ)
    rw [factor, one_mul, hvalue]

end Naturals

end CenterOfMass
