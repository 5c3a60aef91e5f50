import CenterOfMass.Proofs.Field.CenterEquation
import CenterOfMass.Proofs.Numeric.DoubleValue

namespace CenterOfMass

section Quotients

variable {w s c : ℚ}

theorem ne_zero_of_nearest_square (hs : nearest (s * s) ≠ 0) : s ≠ 0 := by
  rintro rfl
  exact hs (by rw [mul_zero, nearest_zero])

theorem nearest_square_pos (hs : nearest (s * s) ≠ 0) : 0 < nearest (s * s) :=
  lt_of_le_of_ne (nearest_nonneg (mul_self_nonneg s)) hs.symm

theorem abs_square_sub_le (hs : nearest (s * s) ≠ 0) :
    |s * s - nearest (s * s)| ≤ nearest (s * s) / 2 :=
  (abs_sub_nearest_le_half hs).trans_eq (by rw [abs_of_pos (nearest_square_pos hs)])

/-- The error of the product is small against the rounded square, the smallest double included. -/
theorem abs_product_sub_le (hs : nearest (s * s) ≠ 0) :
    |w * s - nearest (w * s)| ≤
      (3 / 2 * (|w / s| * 2 ^ (-53 : ℤ)) + 1 / 2) * nearest (s * s) := by
  have hs0 := ne_zero_of_nearest_square hs
  have hsquare : s * s ≤ 3 / 2 * nearest (s * s) := by
    linarith [(abs_le.mp (abs_square_sub_le hs)).2]
  have hproduct : |w * s| ≤ 3 / 2 * |w / s| * nearest (s * s) := by
    have hfactor : w * s = w / s * (s * s) := by field_simp
    rw [hfactor, abs_mul, abs_mul_self]
    linarith [mul_le_mul_of_nonneg_left hsquare (abs_nonneg (w / s))]
  have hleast : (2 : ℚ) ^ (-1074 : ℤ) ≤ nearest (s * s) := by
    calc (2 : ℚ) ^ (-1074 : ℤ) ≤ 2 ^ lastPlace (s * s) :=
          zpow_le_zpow_right₀ one_le_two (least_le_lastPlace _)
      _ ≤ |nearest (s * s)| := zpow_lastPlace_le_abs_nearest hs
      _ = nearest (s * s) := abs_of_pos (nearest_square_pos hs)
  have htiny : (2 : ℚ) ^ (-1075 : ℤ) ≤ 1 / 2 * nearest (s * s) := by
    have hhalf : (2 : ℚ) ^ (-1074 : ℤ) / 2 = 2 ^ (-1075 : ℤ) := two_zpow_half (-1074)
    linarith
  have hscaled := mul_le_mul_of_nonneg_right hproduct (two_zpow_pos (-53)).le
  calc |w * s - nearest (w * s)| ≤ |w * s| * 2 ^ (-53 : ℤ) + 2 ^ (-1075 : ℤ) :=
        abs_sub_nearest_le_add (w * s)
    _ ≤ 3 / 2 * |w / s| * nearest (s * s) * 2 ^ (-53 : ℤ) + 1 / 2 * nearest (s * s) :=
        add_le_add hscaled htiny
    _ = (3 / 2 * (|w / s| * 2 ^ (-53 : ℤ)) + 1 / 2) * nearest (s * s) := by ring

/-- The rounded square is off by half of itself at most, and the rounded product little. Together
they may change a quotient by half of it. -/
theorem abs_quotient_sub_le (hs : nearest (s * s) ≠ 0) :
    |nearest (w * s) / nearest (s * s) - w / s| ≤
      |w / s| / 2 + 3 / 2 * (|w / s| * 2 ^ (-53 : ℤ)) + 1 / 2 := by
  have hn := nearest_square_pos hs
  have hs0 := ne_zero_of_nearest_square hs
  have hfirst : |(nearest (w * s) - w * s) / nearest (s * s)| ≤
      3 / 2 * (|w / s| * 2 ^ (-53 : ℤ)) + 1 / 2 := by
    rw [abs_div, abs_of_pos hn, div_le_iff₀ hn, abs_sub_comm]
    exact abs_product_sub_le hs
  have hsecond : |w / s * ((s * s - nearest (s * s)) / nearest (s * s))| ≤ |w / s| / 2 := by
    have hratio : |s * s - nearest (s * s)| / nearest (s * s) ≤ 1 / 2 := by
      rw [div_le_iff₀ hn]
      linarith [abs_square_sub_le hs]
    rw [abs_mul, abs_div (s * s - _), abs_of_pos hn]
    linarith [mul_le_mul_of_nonneg_left hratio (abs_nonneg (w / s))]
  have hsplit (p n : ℚ) (hn : n ≠ 0) :
      p / n - w / s = (p - w * s) / n + w / s * ((s * s - n) / n) := by
    field_simp
    ring
  rw [hsplit _ _ hn.ne']
  linarith [abs_add_le ((nearest (w * s) - w * s) / nearest (s * s))
    (w / s * ((s * s - nearest (s * s)) / nearest (s * s)))]

/-- No rounding of a double's size is off by much more than the unit of the largest double. -/
theorem abs_sub_nearest_le_unit {x : ℚ} (hx : |x| < overflowBound) :
    |x - nearest x| ≤ 3 * 2 ^ (970 : ℤ) := by
  have hrelative : |x| * 2 ^ (-53 : ℤ) ≤ 2 * 2 ^ (970 : ℤ) := by
    have hscaled :=
      mul_le_mul_of_nonneg_right (hx.trans overflowBound_lt).le (two_zpow_pos (-53)).le
    rw [← zpow_add₀ two_ne_zero] at hscaled
    exact hscaled.trans_eq (two_zpow_add 970 1)
  have htiny : (2 : ℚ) ^ (-1075 : ℤ) ≤ 2 ^ (970 : ℤ) := zpow_le_zpow_right₀ one_le_two (by norm_num)
  linarith [abs_sub_nearest_le_add x]

/-- A quotient with a bit to spare leaves room for an error of half of it, and for the rounding of
what results. -/
theorem abs_nearest_sub_lt {x q : ℚ} (hx : |x| ≤ 2 ^ (1023 : ℤ)) (hshift : |x - c| ≤ 2 ^ (1023 : ℤ))
    (hnear : |q - x| ≤ (2 ^ 52 + 2) * 2 ^ (970 : ℤ)) :
    |q| < overflowBound ∧ |nearest q - c| < overflowBound := by
  have htop : (2 : ℚ) ^ (1023 : ℤ) = 2 ^ 53 * 2 ^ (970 : ℤ) := two_zpow_add 970 53
  have hunit := two_zpow_pos 970
  have hround := abs_sub_nearest_le_unit (x := q)
  rw [htop] at hx hshift
  rw [overflowBound] at hround ⊢
  clear htop
  generalize (2 : ℚ) ^ (970 : ℤ) = u at *
  have hlt : |q| < (2 ^ 54 - 1) * u := by
    have hsum : |q| ≤ |q - x| + |x| := by simpa using abs_add_le (q - x) x
    linarith
  refine ⟨hlt, ?_⟩
  have herror := hround hlt
  have hfirst := abs_sub_le (nearest q) q c
  have hsecond := abs_sub_le q x c
  rw [abs_sub_comm (nearest q) q] at hfirst
  linarith

theorem abs_quotient_sub_le_unit (hs : nearest (s * s) ≠ 0) (hquotient : |w / s| ≤ 2 ^ (1023 : ℤ)) :
    |nearest (w * s) / nearest (s * s) - w / s| ≤ (2 ^ 52 + 2) * 2 ^ (970 : ℤ) := by
  have hnear := abs_quotient_sub_le (w := w) hs
  have hunit : 1 ≤ (2 : ℚ) ^ (970 : ℤ) := one_le_zpow₀ one_le_two (by norm_num)
  have htop : (2 : ℚ) ^ (1023 : ℤ) = 2 ^ 53 * 2 ^ (970 : ℤ) := two_zpow_add 970 53
  have hrelative : |w / s| * 2 ^ (-53 : ℤ) ≤ 2 ^ (970 : ℤ) := by
    have hscaled := mul_le_mul_of_nonneg_right hquotient (two_zpow_pos (-53)).le
    rwa [← zpow_add₀ two_ne_zero] at hscaled
  rw [htop] at hquotient
  clear htop
  generalize (2 : ℚ) ^ (970 : ℤ) = u at *
  generalize |w / s| * 2 ^ (-53 : ℤ) = r at *
  linarith

end Quotients

/-- Both parts are finite. -/
structure Complex.IsFinite (z : Complex Float) : Prop where
  re : z.re.isFinite = true
  im : z.im.isFinite = true

/-- The square of the total is not rounded to zero, and its product with the weighted sum not beyond
all doubles. -/
structure SquaresInRange (weighted total : ℚ) : Prop where
  square : 2 ^ (-1075 : ℤ) < total * total
  product : |weighted * total| < overflowBound

section Shift

variable {reference weighted total : Float}

theorem shiftFrom_double (htotal : total.isFinite = true) (hzero : valueOf total ≠ 0) :
    shiftFrom reference weighted total = weighted / total - reference := by
  rw [shiftFrom, if_pos ((bne_zero_iff htotal).mpr hzero)]

/-- Without imaginary parts the quotient takes the product with the total over its square, both with
a zero added. -/
theorem shiftFrom_ofReal_double (htotal : total.isFinite = true) (hzero : valueOf total ≠ 0) :
    shiftFrom (Complex.ofReal reference) (.ofReal weighted) (.ofReal total) = Complex.mk
      ((weighted * total + Nat.cast 0 * Nat.cast 0) / (total * total + Nat.cast 0 * Nat.cast 0) -
        reference)
      ((Nat.cast 0 * total - weighted * Nat.cast 0) / (total * total + Nat.cast 0 * Nat.cast 0) -
        Nat.cast 0) := by
  have hguard : (Complex.ofReal total != (Nat.cast 0 : Complex Float)) = true := by
    have hparts : (Complex.ofReal total != (Nat.cast 0 : Complex Float)) =
        !(total == (Nat.cast 0 : Float) && (Nat.cast 0 : Float) == (Nat.cast 0 : Float)) := rfl
    have hself : ((Nat.cast 0 : Float) == (Nat.cast 0 : Float)) = true := by decide
    rw [hparts, hself, Bool.and_true]
    exact (bne_zero_iff htotal).mpr hzero
  rw [shiftFrom, if_pos hguard]
  rfl

theorem isZero_zero_mul_zero : IsZero (Nat.cast 0 * Nat.cast 0 : Float) :=
  IsZero.natCast_zero.mul IsZero.natCast_zero.isFinite

theorem rounds_mul_add_zero {a b : Float} (ha : a.isFinite = true) (hb : b.isFinite = true) :
    Rounds (a * b + Nat.cast 0 * Nat.cast 0) (valueOf a * valueOf b) :=
  (rounds_mul ha hb).add_zero isZero_zero_mul_zero

/-- Of real parts only, the products across make no imaginary part. -/
theorem isZero_cross (hweighted : weighted.isFinite = true) (htotal : total.isFinite = true) :
    IsZero (Nat.cast 0 * total - weighted * Nat.cast 0) :=
  (IsZero.natCast_zero.mul htotal).sub (.mul' hweighted IsZero.natCast_zero)

/-- Where a complex shift is finite, neither product was lost. -/
theorem squaresInRange_of_isFinite (hweighted : weighted.isFinite = true)
    (htotal : total.isFinite = true) (hzero : valueOf total ≠ 0)
    (h : (shiftFrom (Complex.ofReal reference) (Complex.ofReal weighted)
      (Complex.ofReal total)).IsFinite) :
    SquaresInRange (valueOf weighted) (valueOf total) := by
  rw [shiftFrom_ofReal_double htotal hzero] at h
  obtain ⟨hre, him⟩ := h
  have hsquare := rounds_mul_add_zero htotal htotal
  refine ⟨?_, ?_⟩
  · by_contra htiny
    have hvanishes : nearest (valueOf total * valueOf total) = 0 := by
      rw [nearest_eq_zero_iff, abs_mul_self]
      exact not_lt.mp htiny
    have hfinite := hsquare.isFinite_iff.mpr (abs_nearest_lt_iff.mp (by
      rw [hvanishes, abs_zero]
      exact two_zpow_pos _))
    have hdivisor := IsZero.of_valueOf hfinite ((hsquare.valueOf_eq hfinite).trans hvanishes)
    exact (isZero_cross hweighted htotal).not_isFinite_div hdivisor (isFinite_of_sub him)
  · exact (rounds_mul_add_zero hweighted htotal).isFinite_iff.mp
      (isFinite_of_div (isFinite_of_sub hre))

theorem isFinite_im (hweighted : weighted.isFinite = true) (htotal : total.isFinite = true)
    (hsquare : nearest (valueOf total * valueOf total) ≠ 0) :
    ((Nat.cast 0 * total - weighted * Nat.cast 0) / (total * total + Nat.cast 0 * Nat.cast 0) -
      Nat.cast 0 : Float).isFinite = true := by
  have hcross := isZero_cross hweighted htotal
  refine IsZero.isFinite (.sub ?_ IsZero.natCast_zero)
  cases rounds_mul_add_zero htotal htotal with
  | finite hfinite hvalue _ => exact hcross.div hfinite (hvalue.trans_ne hsquare)
  | infinite s hinfinite _ => exact .div_infinity hcross.isFinite hinfinite

/-- A square beyond all doubles makes the quotient zero, and any other one leaves it close to what
it is. -/
theorem isFinite_re (hreference : reference.isFinite = true)
    (hweighted : weighted.isFinite = true) (htotal : total.isFinite = true)
    (hsquare : nearest (valueOf total * valueOf total) ≠ 0)
    (hproduct : |valueOf weighted * valueOf total| < overflowBound)
    (hquotient : |valueOf weighted / valueOf total| ≤ 2 ^ (1023 : ℤ))
    (hshift : |valueOf weighted / valueOf total - valueOf reference| ≤ 2 ^ (1023 : ℤ)) :
    ((weighted * total + Nat.cast 0 * Nat.cast 0) / (total * total + Nat.cast 0 * Nat.cast 0) -
      reference).isFinite = true := by
  have hdividend := rounds_mul_add_zero hweighted htotal
  have hfinite := hdividend.isFinite_iff.mpr hproduct
  cases rounds_mul_add_zero htotal htotal with
  | finite hdivisor hvalue _ =>
    have hdivided := rounds_div hfinite hdivisor (hvalue.trans_ne hsquare)
    rw [hdividend.valueOf_eq hfinite, hvalue] at hdivided
    obtain ⟨hlt, hsub⟩ := abs_nearest_sub_lt hquotient hshift
      (abs_quotient_sub_le_unit hsquare hquotient)
    have hcenter := hdivided.isFinite_iff.mpr hlt
    have hdifference := rounds_sub hcenter hreference
    rw [hdivided.valueOf_eq hcenter] at hdifference
    exact hdifference.isFinite_iff.mpr hsub
  | infinite s hinfinite _ =>
    have hcenter := IsZero.div_infinity hfinite hinfinite
    have hdifference := rounds_sub hcenter.isFinite hreference
    rw [hcenter.valueOf_eq, zero_sub] at hdifference
    rw [hdifference.isFinite_iff, abs_neg]
    exact abs_valueOf_lt hreference

/-- How a complex shift of sums without imaginary parts compares with the real one: it is finite
only if no product was lost, and if none was, it is finite where the real one is with a bit to
spare. -/
structure FiniteAlike (reference weighted total shift : Float) (complexShift : Complex Float) :
    Prop where
  needed : complexShift.IsFinite → SquaresInRange (valueOf weighted) (valueOf total)
  enough : |valueOf weighted / valueOf total| ≤ 2 ^ (1023 : ℤ) →
    |valueOf weighted / valueOf total - valueOf reference| ≤ 2 ^ (1023 : ℤ) →
      shift.isFinite = true ∧
        (SquaresInRange (valueOf weighted) (valueOf total) → complexShift.IsFinite)

theorem isFinite_shiftFrom (hreference : reference.isFinite = true)
    (hweighted : weighted.isFinite = true) (htotal : total.isFinite = true)
    (hzero : valueOf total ≠ 0)
    (hquotient : |valueOf weighted / valueOf total| ≤ 2 ^ (1023 : ℤ))
    (hshift : |valueOf weighted / valueOf total - valueOf reference| ≤ 2 ^ (1023 : ℤ)) :
    (shiftFrom reference weighted total).isFinite = true := by
  have hdivided := rounds_div hweighted htotal hzero
  have hexact : |valueOf weighted / valueOf total - valueOf weighted / valueOf total| ≤
      (2 ^ 52 + 2) * 2 ^ (970 : ℤ) := by
    rw [sub_self, abs_zero]
    exact mul_nonneg (by norm_num) (two_zpow_pos _).le
  obtain ⟨hlt, hsub⟩ := abs_nearest_sub_lt hquotient hshift hexact
  have hcenter := hdivided.isFinite_iff.mpr hlt
  have hdifference := rounds_sub hcenter hreference
  rw [hdivided.valueOf_eq hcenter] at hdifference
  rw [shiftFrom_double htotal hzero]
  exact hdifference.isFinite_iff.mpr hsub

theorem finiteAlike_shiftFrom (hreference : reference.isFinite = true)
    (hweighted : weighted.isFinite = true) (htotal : total.isFinite = true)
    (hzero : valueOf total ≠ 0) :
    FiniteAlike reference weighted total (shiftFrom reference weighted total)
      (shiftFrom (Complex.ofReal reference) (Complex.ofReal weighted) (Complex.ofReal total)) where
  needed := squaresInRange_of_isFinite hweighted htotal hzero
  enough hquotient hshift := by
    refine ⟨isFinite_shiftFrom hreference hweighted htotal hzero hquotient hshift, fun hrange => ?_⟩
    have hsquare : nearest (valueOf total * valueOf total) ≠ 0 := by
      rw [ne_eq, nearest_eq_zero_iff, abs_mul_self, not_le]
      exact hrange.square
    rw [shiftFrom_ofReal_double htotal hzero]
    exact ⟨isFinite_re hreference hweighted htotal hsquare hrange.product hquotient hshift,
      isFinite_im hweighted htotal hsquare⟩

end Shift

/-- In double precision complex maps without imaginary parts are not always shifted as the real maps
are, since the quotient takes products. Where mass is left, their shifts are finite if the squared
totals do not vanish and the products with the totals do not overflow, with a bit to spare for the
quotient, and only if they do not. -/
theorem centerShifts_ofReal_isFinite (sum y x : Grid Float) (refY refX : Float)
    (hy : y.shape = sum.shape) (hx : x.shape = sum.shape) (hrefY : refY.isFinite = true)
    (hrefX : refX.isFinite = true) :
    ∃ v c, centerShifts sum y x refY refX = .ok v ∧
      centerShifts (sum.map Complex.ofReal) (y.map Complex.ofReal) (x.map Complex.ofReal)
        (Complex.ofReal refY) (Complex.ofReal refX) = .ok c ∧
      ∀ (i j : Nat) (s w u : Float), sum.get? i j = some s → y.get? i j = some w →
        x.get? i j = some u → s.isFinite = true → valueOf s ≠ 0 →
        ∃ a b a' b', v.y.get? i j = some a ∧ v.x.get? i j = some b ∧
          c.y.get? i j = some a' ∧ c.x.get? i j = some b' ∧
          (w.isFinite = true → FiniteAlike refY w s a a') ∧
          (u.isFinite = true → FiniteAlike refX u s b b') := by
  let m : MapTriple Float := ⟨sum, y, x, hy, hx⟩
  have hy' : (y.map Complex.ofReal).shape = (sum.map Complex.ofReal).shape := hy
  have hx' : (x.map Complex.ofReal).shape = (sum.map Complex.ofReal).shape := hx
  refine ⟨_, _, centerShifts_eq_ok hy hx, centerShifts_eq_ok hy' hx', ?_⟩
  intro i j s w u hs hw hu hfinite hzero
  have hofReal {g : Grid Float} {d : Float} (h : g.get? i j = some d) :
      (g.map Complex.ofReal).get? i j = some (Complex.ofReal d) := by
    rw [Grid.get?_map, h]
    rfl
  refine ⟨_, _, _, _, m.get?_shifts_y hs hw, m.get?_shifts_x hs hu,
    (m.map Complex.ofReal).get?_shifts_y (hofReal hs) (hofReal hw),
    (m.map Complex.ofReal).get?_shifts_x (hofReal hs) (hofReal hu), ?_, ?_⟩
  · intro hweighted
    exact finiteAlike_shiftFrom hrefY hweighted hfinite hzero
  · intro hweighted
    exact finiteAlike_shiftFrom hrefX hweighted hfinite hzero

/-- One position, whose total is so small that its square is no normal double. -/
def faintTotal : Grid Float := .ofFn 1 1 fun _ _ => Float.ofBits 0x1ed0000000000000

theorem valueOf_faintTotal : valueOf (Float.ofBits 0x1ed0000000000000) = 2 ^ (-530 : ℤ) := by
  have hunpack : (Float.ofBits 0x1ed0000000000000).toModel.unpack =
      .finite .positive (2 ^ 52) (-582) (by norm_num) := rfl
  rw [valueOf, hunpack, value_finite, factor, one_mul, Nat.cast_pow, Nat.cast_ofNat]
  exact (two_zpow_add (-582) 52).symm

theorem centerShifts_ofReal_isFinite_faintTotal :
    ∃ (c : VectorMap (Complex Float)) (a : Complex Float),
      centerShifts (faintTotal.map Complex.ofReal) (faintTotal.map Complex.ofReal)
        (faintTotal.map Complex.ofReal) (Complex.ofReal (Nat.cast 0))
        (Complex.ofReal (Nat.cast 0)) = .ok c ∧
      c.y.get? 0 0 = some a ∧ a.IsFinite := by
  have hzero : (Nat.cast 0 : Float).isFinite = true := IsZero.natCast_zero.isFinite
  obtain ⟨v, c, -, hc, hplaces⟩ := centerShifts_ofReal_isFinite faintTotal faintTotal faintTotal
    (Nat.cast 0) (Nat.cast 0) rfl rfl hzero hzero
  have htotal : faintTotal.get? 0 0 = some (Float.ofBits 0x1ed0000000000000) := rfl
  have hfinite : (Float.ofBits 0x1ed0000000000000).isFinite = true := by decide
  have hpos := two_zpow_pos (-530)
  have hne : valueOf (Float.ofBits 0x1ed0000000000000) ≠ 0 := by
    rw [valueOf_faintTotal]
    exact hpos.ne'
  obtain ⟨a, b, a', b', -, -, ha, -, halike, -⟩ :=
    hplaces 0 0 _ _ _ htotal htotal htotal hfinite hne
  have hquotient : |valueOf (Float.ofBits 0x1ed0000000000000) /
      valueOf (Float.ofBits 0x1ed0000000000000)| ≤ 2 ^ (1023 : ℤ) := by
    rw [div_self hne, abs_one]
    exact one_le_zpow₀ one_le_two (by norm_num)
  have hsquare : valueOf (Float.ofBits 0x1ed0000000000000) *
      valueOf (Float.ofBits 0x1ed0000000000000) = 2 ^ (-1060 : ℤ) := by
    rw [valueOf_faintTotal, ← zpow_add₀ two_ne_zero]
    norm_num
  have hshift : |valueOf (Float.ofBits 0x1ed0000000000000) /
      valueOf (Float.ofBits 0x1ed0000000000000) - valueOf (Nat.cast 0)| ≤ 2 ^ (1023 : ℤ) :=
    (congrArg abs (by rw [IsZero.natCast_zero.valueOf_eq, sub_zero])).trans_le hquotient
  refine ⟨c, a', hc, ha, ((halike hfinite).enough hquotient hshift).2 ⟨?_, ?_⟩⟩
  · rw [hsquare]
    exact zpow_lt_zpow_right₀ one_lt_two (by norm_num)
  · rw [hsquare, abs_of_pos (two_zpow_pos _)]
    exact (zpow_lt_zpow_right₀ one_lt_two (by norm_num)).trans_le zpow_le_overflowBound

/-- Two positions with finite totals, of which the square of one vanishes and that of the other
overflows. -/
def extremeTotals : Grid Float :=
  .ofFn 1 2 fun _ j =>
    if j.val = 0 then Float.ofBits 0x1660000000000000 else Float.ofBits 0x6570000000000000

/-- As real maps both positions are shifted by one unit. As complex maps they are not shifted by any
number. -/
theorem centerShifts_extremeTotals :
    ∃ v c, centerShifts extremeTotals extremeTotals extremeTotals (Nat.cast 0) (Nat.cast 0) =
        .ok v ∧
      centerShifts (extremeTotals.map Complex.ofReal) (extremeTotals.map Complex.ofReal)
        (extremeTotals.map Complex.ofReal) (Complex.ofReal (Nat.cast 0))
        (Complex.ofReal (Nat.cast 0)) = .ok c ∧
      ∀ j < 2, ∃ s a a', extremeTotals.get? 0 j = some s ∧ s.isFinite = true ∧
        (s != Nat.cast 0) = true ∧ v.y.get? 0 j = some a ∧ a = Nat.cast 1 ∧
        c.y.get? 0 j = some a' ∧ a'.re.isNaN = true := by
  let m : MapTriple Float := ⟨extremeTotals, extremeTotals, extremeTotals, rfl, rfl⟩
  refine ⟨_, _, centerShifts_eq_ok rfl rfl, centerShifts_eq_ok rfl rfl, ?_⟩
  intro j hj
  have hplace {t : Float} (h : extremeTotals.get? 0 j = some t) :
      (extremeTotals.map Complex.ofReal).get? 0 j = some (Complex.ofReal t) := by
    rw [Grid.get?_map, h]
    rfl
  obtain rfl | rfl : j = 0 ∨ j = 1 := by omega
  · have ht : extremeTotals.get? 0 0 = some (Float.ofBits 0x1660000000000000) := rfl
    exact ⟨_, _, _, ht, by decide, by decide, m.get?_shifts_y ht ht, by decide,
      (m.map Complex.ofReal).get?_shifts_y (hplace ht) (hplace ht), by decide +kernel⟩
  · have ht : extremeTotals.get? 0 1 = some (Float.ofBits 0x6570000000000000) := rfl
    exact ⟨_, _, _, ht, by decide, by decide, m.get?_shifts_y ht ht, by decide,
      (m.map Complex.ofReal).get?_shifts_y (hplace ht) (hplace ht), by decide⟩

end CenterOfMass
