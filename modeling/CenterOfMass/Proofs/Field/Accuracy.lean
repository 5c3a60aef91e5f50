import CenterOfMass.Proofs.Field.Stencil
import Mathlib.Algebra.CharZero.Defs
import Mathlib.Algebra.Field.Rat
import Mathlib.Tactic.Module

namespace CenterOfMass

namespace Grid

variable {α : Type}

/-- The sample at an index of a lane. -/
def sample? (g : Grid α) : Axis → Nat → Nat → Option α
  | .rows, lane, i => g.get? i lane
  | .cols, lane, i => g.get? lane i

/-- A lane along an axis holds the values of a function of the index. -/
def LaneIs (g : Grid α) (axis : Axis) (lane : Nat) (p : Nat → α) : Prop :=
  ∀ i < g.length axis, g.sample? axis lane i = some (p i)

theorem length_eq {g g' : Grid α} (h : g.shape = g'.shape) (axis : Axis) :
    g.length axis = g'.length axis := by
  cases axis with
  | rows => exact rows_eq h
  | cols => exact cols_eq h

end Grid

section Lanes

variable {R : Type} [Add R] [Sub R] [Mul R] [Div R] [Neg R] [NatCast R]

/-- Every lane has slopes of its own. -/
theorem Grid.LaneIs.derivative {g : Grid R} {axis : Axis} {order : EdgeOrder} {lane : Nat}
    {p q : Nat → R} (hlane : g.LaneIs axis lane p) (h : order.least ≤ g.length axis)
    (hslope : ∀ i : Fin (g.length axis), slope order (fun k => p k) h i = q i) :
    (g.derivative axis order h).LaneIs axis lane q := by
  intro i hi
  rw [length_eq (g.shape_derivative axis order h)] at hi
  cases axis with
  | rows =>
    obtain ⟨-, hcol⟩ := lt_of_get? (hlane i hi)
    have hsamples : (fun k => g.get k ⟨lane, hcol⟩) = fun k : Fin g.rows => p k := by
      funext k
      exact Option.some.inj ((get?_of_lt k.isLt hcol).symm.trans (hlane k k.isLt))
    have hvalue : slope order (fun k => g.get k ⟨lane, hcol⟩) h ⟨i, hi⟩ = q i := by
      rw [hsamples]
      exact hslope ⟨i, hi⟩
    exact (get?_derivative_rows h ⟨i, hi⟩ ⟨lane, hcol⟩).trans (congrArg some hvalue)
  | cols =>
    obtain ⟨hrow, -⟩ := lt_of_get? (hlane i hi)
    have hsamples : (fun k => g.get ⟨lane, hrow⟩ k) = fun k : Fin g.cols => p k := by
      funext k
      exact Option.some.inj ((get?_of_lt hrow k.isLt).symm.trans (hlane k k.isLt))
    have hvalue : slope order (fun k => g.get ⟨lane, hrow⟩ k) h ⟨i, hi⟩ = q i := by
      rw [hsamples]
      exact hslope ⟨i, hi⟩
    exact (get?_derivative_cols h ⟨lane, hrow⟩ ⟨i, hi⟩).trans (congrArg some hvalue)

end Lanes

section Polynomials

variable {K : Type} [DivisionRing K] {n : Nat} (a b c : K)

-- Products need not commute, but those with a natural number do: they are multiples.

theorem line_eq (i : Nat) : a + b * (i : K) = a + i • b := by
  rw [← nsmul_eq_mul']

theorem parabola_eq (i : Nat) : a + b * (i : K) + c * (i : K) ^ 2 = a + i • b + i ^ 2 • c := by
  rw [← Nat.cast_pow, ← nsmul_eq_mul', ← nsmul_eq_mul']

theorem parabola_slope_eq (i : Nat) : b + 2 * c * (i : K) = b + (2 * i) • c := by
  rw [two_mul, ← nsmul_eq_mul', ← two_nsmul, smul_smul, mul_comm]

variable [NeZero (2 : K)]

/-- Half the difference of the neighbors is the slope of a parabola between them. -/
theorem slope_inner_parabola {order : EdgeOrder} (h : order.least ≤ n) {i : Fin n}
    (hi : i.val ≠ 0) (hn : i.val + 1 < n) :
    slope order (fun k : Fin n => a + k.val • b + k.val ^ 2 • c) h i = b + (2 * i.val) • c := by
  obtain ⟨i, hlt⟩ := i
  obtain ⟨k, rfl⟩ := Nat.exists_eq_succ_of_ne_zero hi
  have htwo : ((2 : Nat) : K) ≠ 0 := by exact_mod_cast two_ne_zero
  rw [slope_inner h hi hn, div_eq_iff htwo, ← nsmul_eq_mul']
  simp only [Nat.succ_eq_add_one, Nat.add_sub_cancel]
  module

theorem slope_first_line (h : EdgeOrder.first.least ≤ n) (i : Fin n) :
    slope .first (fun k : Fin n => a + k.val • b) h i = b := by
  by_cases hi : i.val = 0
  · rw [slope_first_left h hi]
    module
  by_cases hn : i.val + 1 = n
  · obtain ⟨i, hlt⟩ := i
    obtain ⟨k, rfl⟩ := Nat.exists_eq_succ_of_ne_zero hi
    rw [slope_first_right h hi hn]
    simp only [Nat.succ_eq_add_one, Nat.add_sub_cancel]
    module
  · have hparabola := slope_inner_parabola a b 0 h hi (by omega)
    simpa using hparabola

theorem slope_second_parabola (h : EdgeOrder.second.least ≤ n) (i : Fin n) :
    slope .second (fun k : Fin n => a + k.val • b + k.val ^ 2 • c) h i = b + (2 * i.val) • c := by
  have hn : 3 ≤ n := h
  have htwo : ((2 : Nat) : K) ≠ 0 := by exact_mod_cast two_ne_zero
  by_cases hi : i.val = 0
  · rw [slope_second_left h hi, hi, div_eq_iff htwo]
    simp only [neg_mul, ← nsmul_eq_mul, ← nsmul_eq_mul']
    module
  by_cases hlast : i.val + 1 = n
  · obtain ⟨i, hlt⟩ := i
    obtain ⟨k, rfl⟩ : ∃ k, i = k + 2 := ⟨i - 2, by simp only at hlast; omega⟩
    rw [slope_second_right h hlast, div_eq_iff htwo]
    simp only [← nsmul_eq_mul, ← nsmul_eq_mul', Nat.add_sub_cancel, Nat.add_succ_sub_one]
    module
  · exact slope_inner_parabola a b c h hi (by omega)

end Polynomials

/-- There are slopes along an axis exactly if it has two samples, or three for edges of the second
order. They are exact on every lane that is a line or, at the second order, a parabola, whatever
the lanes beside it hold. -/
theorem gradient_exact {K : Type} [DivisionRing K] [NeZero (2 : K)] (g : Grid K) (axis : Axis)
    (order : EdgeOrder) :
    ((∃ d, g.gradient axis order = .ok d) ↔
      order = .first ∧ 2 ≤ g.length axis ∨ order = .second ∧ 3 ≤ g.length axis) ∧
    (∀ e, g.gradient axis order = .error e →
      e = .shapeMismatch (.shortAxis axis.index g.shape order.least)) ∧
    ∀ d, g.gradient axis order = .ok d → d.shape = g.shape ∧ ∀ lane,
      (order = .first → ∀ a b, g.LaneIs axis lane (fun i => a + b * i) →
        d.LaneIs axis lane fun _ => b) ∧
      (order = .second → ∀ a b c, g.LaneIs axis lane (fun i => a + b * i + c * i ^ 2) →
        d.LaneIs axis lane fun i => b + 2 * c * i) := by
  have hleast : order.least ≤ g.length axis ↔
      order = .first ∧ 2 ≤ g.length axis ∨ order = .second ∧ 3 ≤ g.length axis := by
    cases order <;> simp [EdgeOrder.least]
  by_cases h : order.least ≤ g.length axis
  · have hok := Grid.gradient_eq_ok h
    refine ⟨⟨fun _ => hleast.mp h, fun _ => ⟨_, hok⟩⟩, ?_, ?_⟩
    · intro e he
      cases hok.symm.trans he
    · intro d hd
      obtain rfl := Except.ok.inj (hok.symm.trans hd)
      refine ⟨g.shape_derivative axis order h, fun lane => ⟨?_, ?_⟩⟩
      · rintro rfl a b hlane
        simp only [line_eq] at hlane
        exact hlane.derivative h (slope_first_line a b h)
      · rintro rfl a b c hlane
        simp only [parabola_eq] at hlane
        simp only [parabola_slope_eq]
        exact hlane.derivative h (slope_second_parabola a b c h)
  · have herror := Grid.gradient_eq_error h
    refine ⟨⟨?_, fun hlong => absurd (hleast.mpr hlong) h⟩, ?_, ?_⟩
    · rintro ⟨d, hd⟩
      cases herror.symm.trans hd
    · intro e he
      exact (Except.error.inj (herror.symm.trans he)).symm
    · intro d hd
      cases herror.symm.trans hd

/-- Two parabolas side by side, of three samples each. -/
def parabolas : Grid ℚ := .ofFn 3 2 fun i j =>
  if j.val = 0 then 1 + 2 * i.val + 3 * i.val ^ 2 else 5 + 4 * i.val + -1 * i.val ^ 2

theorem gradient_exact_parabolas :
    ∃ d, parabolas.gradient .rows .second = .ok d ∧ d.shape = (3, 2) ∧
      d.LaneIs .rows 0 (fun i => 2 + 2 * 3 * i) ∧ d.LaneIs .rows 1 fun i => 4 + 2 * -1 * i := by
  obtain ⟨hok, -, hexact⟩ := gradient_exact parabolas .rows .second
  obtain ⟨d, hd⟩ := hok.mpr (.inr ⟨rfl, Nat.le_refl 3⟩)
  obtain ⟨hshape, hlanes⟩ := hexact d hd
  have hleft : parabolas.LaneIs .rows 0 fun i => 1 + 2 * i + 3 * i ^ 2 := by
    intro i hi
    exact Grid.get?_ofFn _ ⟨i, hi⟩ 0
  have hright : parabolas.LaneIs .rows 1 fun i => 5 + 4 * i + -1 * i ^ 2 := by
    intro i hi
    exact Grid.get?_ofFn _ ⟨i, hi⟩ 1
  exact ⟨d, hd, hshape, (hlanes 0).2 rfl 1 2 3 hleft, (hlanes 1).2 rfl 5 4 (-1) hright⟩

end CenterOfMass
