import CenterOfMass.Proofs.Numeric.DoubleOrder
import Mathlib

namespace CenterOfMass

open Float.Model Float.Model.UnpackedFloat

/-- The number that a double can hold next to a number, unlimited beyond the greatest double. -/
def Exact.rounded : Exact → Exact
  | .finite x =>
    if 2 ^ (1024 : ℤ) ≤ nearest x then .infinite false
    else if nearest x ≤ -2 ^ (1024 : ℤ) then .infinite true
    else .finite (nearest x)
  | a => a

section Rounded

variable {a b : Exact}

theorem Exact.rounded_mono (h : a ≤ b) : a.rounded ≤ b.rounded := by
  have hlimit : (0 : ℚ) < 2 ^ (1024 : ℤ) := two_zpow_pos 1024
  rcases a with x | (_ | _) | _ <;> rcases b with y | (_ | _) | _ <;>
    first | exact h | cases h | skip
  case finite.finite =>
    have hnearest := nearest_mono ((finite_le_finite x y).mp h)
    unfold rounded
    dsimp only
    split_ifs <;> first | rfl | exact (finite_le_finite _ _).mpr hnearest | (exfalso; linarith)
  case finite.infinite.false =>
    unfold rounded
    dsimp only
    split_ifs <;> rfl
  case infinite.true.finite =>
    unfold rounded
    dsimp only
    split_ifs <;> rfl

theorem Exact.rounded_ne_undefined (h : a ≠ undefined) : a.rounded ≠ undefined := by
  rcases a with x | s | _
  · unfold rounded
    dsimp only
    split_ifs <;> nofun
  · nofun
  · exact absurd rfl h

theorem Exact.rounded_natCast {n : ℕ} (hn : n < 2 ^ 53) :
    (Exact.finite (n : ℚ)).rounded = .finite n := by
  have hlimit : (n : ℚ) < 2 ^ (1024 : ℤ) := by
    calc (n : ℚ) < 2 ^ (53 : ℤ) := by exact_mod_cast hn
      _ ≤ 2 ^ (1024 : ℤ) := zpow_le_zpow_right₀ one_le_two (by norm_num)
  have hself : nearest n = n := by
    have hplaces : |(n : ℤ)| < 2 ^ 53 := by
      rw [Nat.abs_cast]
      exact_mod_cast hn
    have hnearest := nearest_eq_self hplaces (e := 0) (by norm_num)
    rwa [zpow_zero, mul_one, Int.cast_natCast] at hnearest
  have hnegative : (-2 ^ (1024 : ℤ) : ℚ) < n :=
    (neg_neg_of_pos (two_zpow_pos 1024)).trans_le n.cast_nonneg
  unfold rounded
  dsimp only
  rw [hself, if_neg hlimit.not_ge, if_neg hnegative.not_ge]

theorem Exact.zero_le_rounded (h : finite 0 ≤ a) : finite 0 ≤ a.rounded := by
  have hzero : (finite 0).rounded = finite 0 := rounded_natCast (n := 0) (by norm_num)
  exact hzero ▸ rounded_mono h

end Rounded

section Operations

variable {u v : UnpackedFloat} {x : ℚ}

/-- A double that a number rounds to stands for the rounded number. -/
theorem ofUnpacked_pack_eq_rounded (h : RoundsTo x u) :
    Exact.ofUnpacked (Float.Model.pack u).unpack = (Exact.finite x).rounded := by
  have hlimit : (0 : ℚ) < 2 ^ (1024 : ℤ) := two_zpow_pos 1024
  obtain ⟨s, y, rfl, hu⟩ := h
  unfold Exact.rounded
  dsimp only
  rw [nearest_factor_mul]
  cases hu with
  | zero hy =>
    rw [unpack_pack_zero, hy, mul_zero, if_neg hlimit.not_ge, if_neg (neg_neg_of_pos hlimit).not_ge]
    cases s <;> rfl
  | @finite m e hm hc hy =>
    rw [hy]
    rcases le_or_gt e 971 with he | he
    · have hsmall := hc.value_lt he
      rw [← abs_factor_mul s, abs_lt] at hsmall
      rw [unpack_pack_finite s hm hc he, if_neg hsmall.2.not_ge, if_neg hsmall.1.not_ge]
      rfl
    · have hlarge := hc.le_value he
      rw [abs_of_nonneg (mul_nonneg m.cast_nonneg (two_zpow_pos e).le)] at hlarge
      rw [unpack_pack_of_large s hm he]
      cases s with
      | negative =>
        have hbelow := (neg_le_neg hlarge).trans_lt (neg_neg_of_pos hlimit)
        rw [factor, neg_one_mul, if_neg (hbelow.trans hlimit).not_ge, if_pos (neg_le_neg hlarge)]
        rfl
      | positive =>
        rw [factor, one_mul, if_pos hlarge]
        rfl

theorem ofUnpacked_pack_of_not_finite (h : u.isFinite = false) :
    Exact.ofUnpacked (Float.Model.pack u).unpack = Exact.ofUnpacked u := by
  cases u with
  | infinity s => rw [unpack_pack_infinity]
  | notANumber => rw [unpack_pack_notANumber]
  | zero s => cases h
  | finite s m e hm => cases h

theorem value_ne_zero {s : Sign} {m : ℕ} {e : ℤ} (hm : 0 < m) : value (.finite s m e hm) ≠ 0 := by
  have hsize : (m * 2 ^ e : ℚ) ≠ 0 :=
    mul_ne_zero (by exact_mod_cast hm.ne') (two_zpow_pos e).ne'
  cases s
  · exact mul_ne_zero (neg_ne_zero.mpr one_ne_zero) hsize
  · exact mul_ne_zero one_ne_zero hsize

theorem decide_value_neg {s : Sign} {m : ℕ} {e : ℤ} (hm : 0 < m) :
    decide (value (.finite s m e hm) < 0) = (s == .negative) := by
  have hsize : (0 : ℚ) < m * 2 ^ e := mul_pos (by exact_mod_cast hm) (two_zpow_pos e)
  cases s
  · exact decide_eq_true (by rw [value_finite, factor]; linarith)
  · exact decide_eq_false (by rw [value_finite, factor]; linarith)

theorem Fits.ofUnpacked_sub (hu : Fits u) (hv : Fits v) :
    Exact.ofUnpacked (Float.Model.pack (UnpackedFloat.sub Format.binary64 u v)).unpack =
      (Exact.ofUnpacked u - Exact.ofUnpacked v).rounded := by
  by_cases hfinite : u.isFinite = true ∧ v.isFinite = true
  · obtain ⟨hu, hv⟩ := hfinite.imp hu hv
    rw [hu.ofUnpacked_eq, hv.ofUnpacked_eq, Exact.finite_sub]
    exact ofUnpacked_pack_eq_rounded (roundsTo_sub hu hv)
  · rcases u with (_ | _) | _ | _ | _ <;> rcases v with (_ | _) | _ | _ | _ <;>
      first | exact absurd ⟨rfl, rfl⟩ hfinite | exact ofUnpacked_pack_of_not_finite rfl

theorem Fits.ofUnpacked_mul (hu : Fits u) (hv : Fits v) :
    Exact.ofUnpacked (Float.Model.pack (UnpackedFloat.mul Format.binary64 u v)).unpack =
      (Exact.ofUnpacked u * Exact.ofUnpacked v).rounded := by
  by_cases hfinite : u.isFinite = true ∧ v.isFinite = true
  · obtain ⟨hu, hv⟩ := hfinite.imp hu hv
    rw [hu.ofUnpacked_eq, hv.ofUnpacked_eq, Exact.finite_mul]
    exact ofUnpacked_pack_eq_rounded (roundsTo_mul hu hv)
  · have hlimited : (UnpackedFloat.mul Format.binary64 u v).isFinite = false := by
      rcases u with _ | _ | _ | _ <;> rcases v with _ | _ | _ | _ <;>
        first | exact absurd ⟨rfl, rfl⟩ hfinite | rfl
    -- what is not finite is not rounded, and only the signs of the factors count
    rw [ofUnpacked_pack_of_not_finite hlimited]
    rcases u with s | _ | s | @⟨s, m, e, hm⟩ <;> rcases v with t | _ | t | @⟨t, n, f, hn⟩ <;>
      first | exact absurd ⟨rfl, rfl⟩ hfinite | rfl | skip
    case infinity.infinity => cases s <;> cases t <;> rfl
    case infinity.finite =>
      change _ = Exact.rounded (Exact.infinite _ * Exact.finite _)
      rw [Exact.infinite_mul_finite _ (value_ne_zero hn), decide_value_neg]
      cases s <;> cases t <;> rfl
    case finite.infinity =>
      change _ = Exact.rounded (Exact.finite _ * Exact.infinite _)
      rw [Exact.finite_mul_infinite (value_ne_zero hm), decide_value_neg]
      cases s <;> cases t <;> rfl

/-- A quotient by zero has the sign of that zero, which a number does not have. -/
theorem Fits.ofUnpacked_div (hu : Fits u) (hv : Fits v)
    (hzero : Exact.ofUnpacked v ≠ .finite 0) :
    Exact.ofUnpacked (Float.Model.pack (UnpackedFloat.div Format.binary64 u v)).unpack =
      (Exact.ofUnpacked u / Exact.ofUnpacked v).rounded := by
  by_cases hfinite : u.isFinite = true ∧ v.isFinite = true
  · obtain ⟨hu, hv⟩ := hfinite.imp hu hv
    have hvalue : value v ≠ 0 := by
      intro h
      rw [hv.ofUnpacked_eq, h] at hzero
      exact hzero rfl
    rw [hu.ofUnpacked_eq, hv.ofUnpacked_eq, Exact.finite_div _ hvalue]
    exact ofUnpacked_pack_eq_rounded (roundsTo_div hu hv hvalue)
  · rcases u with s | _ | s | @⟨s, m, e, hm⟩ <;> rcases v with t | _ | t | @⟨t, n, f, hn⟩ <;>
      first
        | exact absurd ⟨rfl, rfl⟩ hfinite
        | exact ofUnpacked_pack_of_not_finite rfl
        | exact absurd rfl hzero
        | skip
    case infinity.finite =>
      change Exact.ofUnpacked (Float.Model.pack (.infinity (s / t))).unpack =
        Exact.infinite ((s == .negative) ^^ decide (value (.finite t n f hn) < 0))
      rw [unpack_pack_infinity, decide_value_neg]
      cases s <;> cases t <;> rfl
    case zero.infinity => exact ofUnpacked_pack_eq_rounded (roundsTo_zero _)
    case finite.infinity => exact ofUnpacked_pack_eq_rounded (roundsTo_zero _)

theorem apply_neg (s : Sign) (m : ℤ) : (-s).apply m = -s.apply m := by
  cases s
  · exact (neg_neg m).symm
  · rfl

/-- A sum is the difference from the negative. -/
theorem add_eq_sub_neg (format : Format) (u v : UnpackedFloat) :
    UnpackedFloat.add format u v = UnpackedFloat.sub format u v.neg := by
  rcases u with s | _ | s | @⟨s, m, e, hm⟩ <;> rcases v with t | _ | t | @⟨t, n, f, hn⟩ <;>
    first | rfl | (cases t <;> rfl) | skip
  case finite.finite =>
    simp only [UnpackedFloat.add, UnpackedFloat.sub, UnpackedFloat.neg, apply_neg, sub_neg_eq_add]

theorem Fits.neg (h : Fits u) : Fits u.neg := by
  rcases u with s | _ | s | @⟨s, m, e, hm⟩
  · nofun
  · nofun
  · exact fun _ => .zero _
  · intro _
    obtain _ | ⟨hm, hc, he⟩ := h rfl
    exact .finite hm hc he

theorem ofUnpacked_neg (u : UnpackedFloat) : Exact.ofUnpacked u.neg = -Exact.ofUnpacked u := by
  rcases u with (_ | _) | _ | s | @⟨s, m, e, hm⟩
  · rfl
  · rfl
  · rfl
  · exact congrArg Exact.finite neg_zero.symm
  · change Exact.finite (factor (-s) * (m * 2 ^ e)) = Exact.finite (-(factor s * (m * 2 ^ e)))
    rw [factor_neg, neg_mul]

theorem Fits.ofUnpacked_add (hu : Fits u) (hv : Fits v) :
    Exact.ofUnpacked (Float.Model.pack (UnpackedFloat.add Format.binary64 u v)).unpack =
      (Exact.ofUnpacked u + Exact.ofUnpacked v).rounded := by
  rw [add_eq_sub_neg, hu.ofUnpacked_sub hv.neg, ofUnpacked_neg, Exact.sub_neg]

variable (a b : Float)

/-- Doubles are added, subtracted, multiplied and divided as numbers without a limit are, with the
result rounded. -/
theorem number_add : number (a + b) = (number a + number b).rounded :=
  (fits_unpack a).ofUnpacked_add (fits_unpack b)

theorem number_sub : number (a - b) = (number a - number b).rounded :=
  (fits_unpack a).ofUnpacked_sub (fits_unpack b)

theorem number_mul : number (a * b) = (number a * number b).rounded :=
  (fits_unpack a).ofUnpacked_mul (fits_unpack b)

theorem number_div {b : Float} (hzero : number b ≠ .finite 0) :
    number (a / b) = (number a / number b).rounded :=
  (fits_unpack a).ofUnpacked_div (fits_unpack b) hzero

end Operations

section Values

variable {a b : Float}

theorem number_zero : number (Nat.cast 0) = .finite 0 := rfl

/-- The number one has one mantissa and exponent only. -/
theorem roundsTo_one {u : UnpackedFloat} (h : RoundsTo 1 u) :
    u = .finite .positive (2 ^ 52) (-52) (by positivity) := by
  have hunit : (((2 ^ 52 : ℕ) : ℚ) * 2 ^ (-52 : ℤ)) = 1 := by norm_num
  have hone : Canonical (2 ^ 52) (-52) := ⟨by norm_num, by norm_num, fun _ => le_rfl⟩
  obtain ⟨s, y, hy, hu⟩ := h
  have hnearest : factor s * nearest y = 1 := by
    rw [← nearest_factor_mul, ← hy, ← hunit, hone.nearest_eq]
  cases hu with
  | zero hzero =>
    rw [hzero, mul_zero] at hnearest
    exact absurd hnearest zero_ne_one
  | @finite m e hm hc hvalue =>
    have hpos : (0 : ℚ) < m * 2 ^ e := mul_pos (by exact_mod_cast hm) (two_zpow_pos e)
    rw [hvalue] at hnearest
    cases s with
    | negative =>
      rw [factor] at hnearest
      linarith
    | positive =>
      rw [factor, one_mul, ← hunit] at hnearest
      -- any other exponent or mantissa stands for less or for more
      have hplace : e = -52 ∧ m = 2 ^ 52 := by
        by_contra hne
        rcases lt_trichotomy e (-52) with he | he | he
        · exact (hc.value_lt_value hone (.inl he)).ne hnearest
        · rcases lt_trichotomy m (2 ^ 52) with hm' | hm' | hm'
          · exact (hc.value_lt_value hone (.inr ⟨he, hm'⟩)).ne hnearest
          · exact hne ⟨he, hm'⟩
          · exact (hone.value_lt_value hc (.inr ⟨he.symm, hm'⟩)).ne' hnearest
        · exact (hone.value_lt_value hc (.inl he)).ne' hnearest
      obtain ⟨rfl, rfl⟩ := hplace
      rfl

/-- Finite doubles are multiples of the least of them. -/
theorem exists_valueOf_eq_mul (h : a.isFinite = true) :
    ∃ k : ℤ, valueOf a = k * 2 ^ (-1074 : ℤ) := by
  have hkind := isFinite_unpack h
  unfold valueOf
  generalize a.toModel.unpack = u at hkind
  cases hkind with
  | zero s => exact ⟨0, by simp⟩
  | @finite s m e hm hc _ =>
    have hleast := hc.least_le
    have hvalue := value_decreaseExponent (m := m) hc.least_le s
    exact ⟨_, hvalue⟩

/-- Different doubles have a difference that is not rounded to zero. -/
theorem double_sub_pos (ha : a.isFinite = true) (hb : b.isFinite = true) (h : a < b) :
    Nat.cast 0 < b - a := by
  rw [double_lt_iff_number, number_zero, number_sub, number_eq_finite ha, number_eq_finite hb,
    Exact.finite_sub]
  rw [double_lt_iff_number, number_eq_finite ha, number_eq_finite hb,
    Exact.finite_lt_finite] at h
  obtain ⟨k, hk⟩ := exists_valueOf_eq_mul ha
  obtain ⟨l, hl⟩ := exists_valueOf_eq_mul hb
  have hunit := two_zpow_pos (-1074)
  have hkl : k + 1 ≤ l := by
    rw [hk, hl] at h
    exact_mod_cast lt_of_mul_lt_mul_right h hunit.le
  have hleast : 2 ^ (-1074 : ℤ) ≤ valueOf b - valueOf a := by
    rw [hk, hl, ← sub_mul]
    have hone : (1 : ℚ) ≤ l - k := by exact_mod_cast le_sub_iff_add_le'.mpr hkl
    exact le_mul_of_one_le_left hunit.le hone
  have hpos : 0 < nearest (valueOf b - valueOf a) := by
    refine lt_of_le_of_ne (nearest_nonneg (sub_nonneg.mpr h.le)) fun hzero => ?_
    rw [eq_comm, nearest_eq_zero_iff, abs_of_nonneg (sub_nonneg.mpr h.le)] at hzero
    have hhalf : (2 : ℚ) ^ (-1075 : ℤ) < 2 ^ (-1074 : ℤ) :=
      zpow_lt_zpow_right₀ one_lt_two (by norm_num)
    linarith
  unfold Exact.rounded
  dsimp only
  split_ifs with hhigh hlow
  · rfl
  · exact absurd (hlow.trans (neg_nonpos.mpr (two_zpow_pos 1024).le)) hpos.not_ge
  · exact (Exact.finite_lt_finite _ _).mpr hpos

theorem exists_unpack_of_pos (ha : a.isFinite = true) (h : Nat.cast 0 < a) :
    ∃ m e, ∃ hm : 0 < m, a.toModel.unpack = .finite .positive m e hm := by
  rw [double_lt_iff_number, number_zero, number_eq_finite ha, Exact.finite_lt_finite] at h
  have hkind := isFinite_unpack ha
  unfold valueOf at h
  generalize a.toModel.unpack = u at hkind h
  cases hkind with
  | zero s => exact absurd h (lt_irrefl _)
  | @finite s m e hm =>
    cases s with
    | negative =>
      have hneg : decide (value (.finite .negative m e hm) < 0) = true := decide_value_neg hm
      exact absurd h (of_decide_eq_true hneg).not_gt
    | positive => exact ⟨m, e, hm, rfl⟩

theorem double_zero_div (ha : a.isFinite = true) (h : Nat.cast 0 < a) :
    Nat.cast 0 / a = Nat.cast 0 := by
  obtain ⟨m, e, hm, hunpack⟩ := exists_unpack_of_pos ha h
  have hquotient : (Nat.cast 0 : Float) / a = Float.ofModel (Float.Model.pack
      (UnpackedFloat.div Format.binary64 (.zero .positive) a.toModel.unpack)) := rfl
  have hzero : Float.ofModel (Float.Model.pack (.zero .positive)) = Nat.cast 0 := by decide
  rw [hquotient, hunpack]
  exact hzero

theorem double_div_self (ha : a.isFinite = true) (h : Nat.cast 0 < a) : a / a = Nat.cast 1 := by
  obtain ⟨m, e, hm, hunpack⟩ := exists_unpack_of_pos ha h
  have hkind := isFinite_unpack ha
  have hquotient : a / a = Float.ofModel (Float.Model.pack
      (UnpackedFloat.div Format.binary64 a.toModel.unpack a.toModel.unpack)) := rfl
  rw [hunpack] at hkind
  have hrounds := roundsTo_div hkind hkind (value_ne_zero hm)
  rw [div_self (value_ne_zero hm)] at hrounds
  rw [hquotient, hunpack, roundsTo_one hrounds]
  decide

theorem Exact.isFinite_rounded {x : ℚ} (h : |x| < overflowBound) :
    Extended.isFinite (Exact.finite x).rounded = true := by
  rw [← abs_nearest_lt_iff, abs_lt] at h
  unfold Exact.rounded
  dsimp only
  rw [if_neg h.2.not_ge, if_neg h.1.not_ge]
  rfl

theorem number_one : number (Nat.cast 1) = .finite 1 := by
  have hvalue : valueOf (Nat.cast 1) = 1 := by
    have hunpack : (Nat.cast 1 : Float).toModel.unpack =
        .finite .positive (2 ^ 52) (-52) (by positivity) := rfl
    rw [valueOf, hunpack, value_finite, factor]
    norm_num
  rw [number_eq_finite rfl, hvalue]

/-- One is so little beside the greatest double that to add it makes nothing unlimited. -/
theorem double_isFinite_add_one (a : Float) : (a + Nat.cast 1).isFinite = a.isFinite := by
  have hsum := isFinite_eq_number (a + Nat.cast 1)
  have hself := isFinite_eq_number a
  rw [number_add, number_one] at hsum
  change (a + Nat.cast 1).isFinite = _ at hsum
  change a.isFinite = _ at hself
  rw [hsum, hself]
  by_cases hfinite : a.isFinite = true
  · have hbound := abs_valueOf_le hfinite
    have hunit : (1 : ℚ) < 2 ^ (970 : ℤ) := one_lt_zpow₀ one_lt_two (by norm_num)
    have hsmall : |valueOf a + 1| < overflowBound := by
      calc |valueOf a + 1| ≤ |valueOf a| + |1| := abs_add_le _ _
        _ < overflowBound - 2 ^ (970 : ℤ) + 2 ^ (970 : ℤ) := by
          rw [abs_one]
          exact add_lt_add_of_le_of_lt hbound hunit
        _ = overflowBound := sub_add_cancel _ _
    rw [number_eq_finite hfinite, Exact.finite_add, Exact.isFinite_rounded hsmall]
    rfl
  · rw [hself] at hfinite
    cases hnumber : number a with
    | finite x =>
      rw [hnumber] at hfinite
      exact absurd rfl hfinite
    | infinite s => rfl
    | undefined => rfl

/-- Natural numbers of at most 53 places need no rounding. -/
theorem number_natCast {n : ℕ} (hn : n < 2 ^ 53) : number (Nat.cast n) = .finite n := by
  have hword : n.toUInt64.toNat = n := UInt64.toNat_ofNat_of_lt (by
    have hlimit : (2 : ℕ) ^ 53 < UInt64.size := by decide
    omega)
  have hcast : number n.toUInt64.toFloat = .finite n := by
    change Exact.ofUnpacked (Float.Model.pack
      (UnpackedFloat.normalize Format.binary64 (n.toUInt64.toNat : ℤ) 0 .positive)).unpack = _
    have hrounds := roundsTo_normalize (n : ℤ) 0 .positive
    rw [zpow_zero, mul_one, Int.cast_natCast] at hrounds
    rw [hword, ofUnpacked_pack_eq_rounded hrounds, Exact.rounded_natCast hn]
  have hunfold : (Nat.cast n : Float) = n.toUInt64.toFloat * Nat.cast 1 :=
    dif_pos ⟨hn, Nat.zero_le 22⟩
  rw [hunfold, number_mul, hcast, number_one, Exact.finite_mul, mul_one, Exact.rounded_natCast hn]

theorem unpacked_add_comm (format : Format) (u v : UnpackedFloat) :
    UnpackedFloat.add format u v = UnpackedFloat.add format v u := by
  rcases u with s | _ | s | @⟨s, m, e, hm⟩ <;> rcases v with t | _ | t | @⟨t, n, f, hn⟩ <;>
    first | rfl | (cases s <;> cases t <;> rfl) | skip
  case finite.finite =>
    simp only [UnpackedFloat.add, min_comm, add_comm]

theorem double_add_comm (a b : Float) : a + b = b + a :=
  congrArg (fun u => Float.ofModel (Float.Model.pack u)) (unpacked_add_comm _ _ _)

end Values

end CenterOfMass
