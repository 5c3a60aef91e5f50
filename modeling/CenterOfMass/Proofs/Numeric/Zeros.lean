import CenterOfMass.Proofs.Numeric.DoubleExact
import Mathlib

namespace CenterOfMass

open Float.Model Float.Model.UnpackedFloat

section Unpacked

variable {u v : UnpackedFloat}

theorem rank_eq_of_value (hu : IsFinite u) (hv : IsFinite v) (h : value u = value v) :
    rank u = rank v := by
  apply le_antisymm
  · apply le_of_not_gt
    intro hlt
    exact h.symm.not_lt ((rank_lt_iff_value hv hu).mp hlt)
  · apply le_of_not_gt
    intro hlt
    exact h.not_lt ((rank_lt_iff_value hu hv).mp hlt)

/-- No number but zero has two forms. -/
theorem Fits.eq_of_ofUnpacked (hu : Fits u) (hv : Fits v)
    (h : Exact.ofUnpacked u = Exact.ofUnpacked v) (hzero : Exact.ofUnpacked u ≠ .finite 0) :
    u = v := by
  rcases u with s | _ | s | @⟨s, m, e, hm⟩ <;> rcases v with t | _ | t | @⟨t, n, f, hn⟩
  case infinity.infinity => cases s <;> cases t <;> first | rfl | cases h
  case notANumber.notANumber => rfl
  case finite.finite =>
    have hvalue := Exact.finite.inj h
    have hrank := rank_eq_of_value (hu rfl) (hv rfl) hvalue
    cases s <;> cases t <;> simp [rank] at hrank
    all_goals
      obtain ⟨rfl, rfl⟩ := hrank
      rfl
  case finite.zero => exact absurd h hzero
  all_goals first | exact absurd rfl hzero | cases h

end Unpacked

section Zeros

variable {a b : Float}

/-- A double is known by what it is unpacked to. -/
theorem eq_of_unpack_eq (h : a.toModel.unpack = b.toModel.unpack) : a = b := by
  obtain ⟨⟨bits, hvalid⟩⟩ := a
  obtain ⟨⟨bits', hvalid'⟩⟩ := b
  have hbits : bits.toBitVec = bits'.toBitVec := (unpack_inj_of_valid hvalid hvalid').mp h
  obtain rfl : bits = bits' := UInt64.toBitVec_inj.mp hbits
  rfl

theorem isZero_iff_number : IsZero a ↔ number a = .finite 0 := by
  constructor
  · intro h
    rw [number_eq_finite h.isFinite, h.valueOf_eq]
  · intro h
    have hfinite : a.isFinite = true := by
      have hkind := isFinite_eq_number a
      rw [h] at hkind
      exact hkind
    rw [number_eq_finite hfinite] at h
    exact .of_valueOf hfinite (Exact.finite.inj h)

/-- There are two zeros. -/
theorem IsZero.eq_or_eq (h : IsZero a) : a = Nat.cast 0 ∨ a = -Nat.cast 0 := by
  obtain ⟨s, hs⟩ := h
  cases s with
  | negative => exact .inr (eq_of_unpack_eq hs)
  | positive => exact .inl (eq_of_unpack_eq hs)

theorem eq_of_number_eq (h : number a = number b) (hzero : number a ≠ .finite 0) : a = b :=
  eq_of_unpack_eq ((fits_unpack a).eq_of_ofUnpacked (fits_unpack b) h hzero)

/-- What cannot tell the zeros apart depends on the number only that a double stands for. -/
theorem congr_number {α : Type} {f : Float → α} (hf : f (-Nat.cast 0) = f (Nat.cast 0))
    (h : number a = number b) : f a = f b := by
  by_cases hzero : number a = .finite 0
  · have hcases {d : Float} (hd : number d = .finite 0) : f d = f (Nat.cast 0) := by
      rcases (isZero_iff_number.mpr hd).eq_or_eq with rfl | rfl
      · rfl
      · exact hf
    rw [hcases hzero, hcases (h.symm.trans hzero)]
  · rw [eq_of_number_eq h hzero]

/-- Finite doubles of which neither is the lesser stand for one number. -/
theorem number_eq_of_not_lt (ha : a.isFinite = true) (hb : b.isFinite = true) (hab : ¬ a < b)
    (hba : ¬ b < a) : number a = number b := by
  rw [double_lt_iff_number, number_eq_finite ha, number_eq_finite hb,
    Exact.finite_lt_finite] at hab hba
  rw [number_eq_finite ha, number_eq_finite hb, le_antisymm (not_lt.mp hba) (not_lt.mp hab)]

theorem number_clampUnit (a : Float) : number (clampUnit a) = clampUnit (number a) := by
  have hzero : a < Nat.cast 0 ↔ number a < Nat.cast 0 := double_lt_iff_number
  have hraised : number (if a < Nat.cast 0 then Nat.cast 0 else a) =
      if number a < Nat.cast 0 then Nat.cast 0 else number a := by
    by_cases h : a < Nat.cast 0
    · rw [if_pos h, if_pos (hzero.mp h)]
      rfl
    · rw [if_neg h, if_neg (mt hzero.mpr h)]
  have hone {x : Float} : Nat.cast 1 < x ↔ Nat.cast 1 < number x := by
    rw [double_lt_iff_number, number_one]
    rfl
  unfold clampUnit
  dsimp only
  rw [← hraised]
  generalize (if a < Nat.cast 0 then Nat.cast 0 else a) = raised
  by_cases h : Nat.cast 1 < raised
  · rw [if_pos h, if_pos (hone.mp h), number_one]
    rfl
  · rw [if_neg h, if_neg (mt hone.mpr h)]

end Zeros

end CenterOfMass
