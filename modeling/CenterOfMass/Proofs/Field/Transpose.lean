import CenterOfMass.Proofs.Field.Embedding

namespace CenterOfMass

variable {α : Type}

/-- The axis that lanes run along once rows and columns are exchanged. -/
def Axis.other : Axis → Axis
  | .rows => .cols
  | .cols => .rows

theorem Grid.length_transpose (g : Grid α) (axis : Axis) :
    g.transpose.length axis.other = g.length axis := by cases axis <;> rfl

/-- The vector field over the exchanged axes. Its components exchange as well. -/
def VectorMap.transpose (v : VectorMap α) : VectorMap α where
  y := v.x.transpose
  x := v.y.transpose
  shape_eq := Grid.shape_transpose_eq_iff.mpr v.shape_eq.symm

theorem VectorMap.two_le_transpose_iff (v : VectorMap α) :
    2 ≤ v.transpose.y.rows ∧ 2 ≤ v.transpose.y.cols ↔ 2 ≤ v.y.rows ∧ 2 ≤ v.y.cols := by
  have hrows : v.transpose.y.rows = v.y.cols := (Grid.cols_eq v.shape_eq).symm
  have hcols : v.transpose.y.cols = v.y.rows := (Grid.rows_eq v.shape_eq).symm
  rw [hrows, hcols]
  exact and_comm

/-- Components agree in shape if and only if they do after an exchange of the axes. -/
theorem VectorMap.toOption_ofGrids_transpose (y x : Grid α) :
    (ofGrids x.transpose y.transpose).toOption = (ofGrids y x).toOption.map transpose := by
  by_cases h : y.shape = x.shape
  · have hpair : ofGrids y x = .ok ⟨y, x, h⟩ := dif_pos h
    have hexchanged : ofGrids x.transpose y.transpose =
        .ok ⟨x.transpose, y.transpose, Grid.shape_transpose_eq_iff.mpr h.symm⟩ := dif_pos _
    rw [hpair, hexchanged]
    rfl
  · have hpair : ofGrids y x = .error _ := dif_neg h
    have hexchanged : ofGrids x.transpose y.transpose = .error _ :=
      dif_neg fun h' => h (Grid.shape_transpose_eq_iff.mp h').symm
    rw [hpair, hexchanged]
    rfl

section Exchange

variable {R : Type} [Add R] [Sub R] [Mul R] [Div R] [Neg R] [NatCast R]

namespace Grid

/-- A lane of one axis holds after the exchange what it held before as a lane of the other. -/
theorem derivative_transpose (g : Grid R) (axis : Axis) (order : EdgeOrder)
    (h : order.least ≤ g.length axis) (h' : order.least ≤ g.transpose.length axis.other) :
    g.transpose.derivative axis.other order h' = (g.derivative axis order h).transpose := by
  have hlane (j : Fin g.rows) (i : Fin g.cols) : g.transpose.get i j = g.get j i :=
    get_ofFn g.cols g.rows (fun i j => g.get j i) i j
  cases axis with
  | rows =>
    have hcells (i : Fin g.cols) (j : Fin g.rows) :
        slope order (fun k => g.transpose.get i k) h' j = slope order (fun k => g.get k i) h j :=
      congrArg (fun f : Fin g.rows → R => slope order f h j) (funext fun k => hlane k i)
    exact (congrArg (ofFn g.cols g.rows) (funext₂ hcells)).trans (transpose_ofFn _ _ _).symm
  | cols =>
    have hcells (i : Fin g.cols) (j : Fin g.rows) :
        slope order (fun k => g.transpose.get k j) h' i = slope order (fun k => g.get j k) h i :=
      congrArg (fun f : Fin g.cols → R => slope order f h i) (funext fun k => hlane j k)
    exact (congrArg (ofFn g.cols g.rows) (funext₂ hcells)).trans (transpose_ofFn _ _ _).symm

theorem toOption_gradient_transpose (g : Grid R) (axis : Axis) (order : EdgeOrder) :
    (g.transpose.gradient axis.other order).toOption =
      (g.gradient axis order).toOption.map transpose := by
  have hlength := g.length_transpose axis
  by_cases h : order.least ≤ g.length axis
  · have h' : order.least ≤ g.transpose.length axis.other := h.trans_eq hlength.symm
    rw [gradient_eq_ok h, gradient_eq_ok h', derivative_transpose g axis order h h']
    rfl
  · have h' : ¬ order.least ≤ g.transpose.length axis.other := by rwa [hlength]
    rw [gradient_eq_error h, gradient_eq_error h']
    rfl

end Grid

namespace VectorMap

variable (v : VectorMap R)

/-- The two slopes exchange their places in the sum. -/
theorem toOption_divergence_transpose (hadd : ∀ a b : R, a + b = b + a) :
    v.transpose.divergence.toOption = v.divergence.toOption.map Grid.transpose := by
  by_cases h : 2 ≤ v.y.rows ∧ 2 ≤ v.y.cols
  · have hy : EdgeOrder.first.least ≤ v.y.length .rows := h.1
    have hx : EdgeOrder.first.least ≤ v.x.length .cols := h.2.trans_eq (Grid.cols_eq v.shape_eq)
    have hy' : EdgeOrder.first.least ≤ v.transpose.y.length .rows := hx
    have hx' : EdgeOrder.first.least ≤ v.transpose.x.length .cols := hy
    rw [divergence_eq_ok hy hx, divergence_eq_ok hy' hx']
    have hdown : v.transpose.y.derivative .rows .first hy' =
        (v.x.derivative .cols .first hx).transpose := v.x.derivative_transpose .cols .first hx hy'
    have halong : v.transpose.x.derivative .cols .first hx' =
        (v.y.derivative .rows .first hy).transpose := v.y.derivative_transpose .rows .first hy hx'
    exact congrArg some (Grid.zipWith_eq_transpose hadd hdown halong _ _)
  · have h' := mt v.two_le_transpose_iff.mp h
    rw [divergence_eq_error h, divergence_eq_error h']
    rfl

/-- The two slopes exchange their places in the difference, which changes its sign. -/
theorem toOption_curl_transpose (hsub : ∀ a b : R, b - a = -(a - b)) :
    v.transpose.curl.toOption = v.curl.toOption.map fun c => c.transpose.map fun a => -a := by
  by_cases h : 2 ≤ v.y.rows ∧ 2 ≤ v.y.cols
  · have hy : EdgeOrder.first.least ≤ v.y.length .cols := h.2
    have hx : EdgeOrder.first.least ≤ v.x.length .rows := h.1.trans_eq (Grid.rows_eq v.shape_eq)
    have hy' : EdgeOrder.first.least ≤ v.transpose.y.length .cols := hx
    have hx' : EdgeOrder.first.least ≤ v.transpose.x.length .rows := hy
    rw [curl_eq_ok hy hx, curl_eq_ok hy' hx']
    have halong : v.transpose.y.derivative .cols .first hy' =
        (v.x.derivative .rows .first hx).transpose := v.x.derivative_transpose .rows .first hx hy'
    have hdown : v.transpose.x.derivative .rows .first hx' =
        (v.y.derivative .cols .first hy).transpose := v.y.derivative_transpose .cols .first hy hx'
    have hshape : (v.y.derivative .cols .first hy).shape = (v.x.derivative .rows .first hx).shape :=
      v.shape_eq
    have hexchanged := Grid.zipWith_eq_transpose (k := fun a b => -(a - b)) (fun a b => hsub b a)
      halong hdown hshape v.transpose.shape_eq
    have hnegated := Grid.map_zipWith (fun a => -a) (fun a b => a - b) hshape
    exact congrArg some
      (hexchanged.trans ((congrArg Grid.transpose hnegated.symm).trans (Grid.transpose_map _ _)))
  · have h' := mt v.two_le_transpose_iff.mp h
    rw [curl_eq_error h, curl_eq_error h']
    rfl

omit [Sub R] [Div R] [Neg R] [NatCast R] in
theorem magnitude_transpose [Elementary R] (hadd : ∀ a b : R, a + b = b + a) :
    v.transpose.magnitude = v.magnitude.transpose := by
  exact Grid.zipWith_eq_transpose (fun a b => congrArg Elementary.sqrt (hadd _ _)) rfl rfl _ _

end VectorMap

end Exchange

/-- Rows and columns may be exchanged before a gradient along one axis or after the gradient along
the other. With the components exchanged too, the divergence and the length exchange their axes
likewise, and the curl changes its sign. Each of them fails where it failed before. -/
theorem transpose_exchanges_derivatives {R : Type} [Add R] [Sub R] [Mul R] [Div R] [Neg R]
    [NatCast R] [Elementary R] (hadd : ∀ a b : R, a + b = b + a)
    (hsub : ∀ a b : R, b - a = -(a - b)) :
    (∀ (g : Grid R) (axis : Axis) (order : EdgeOrder),
      (g.transpose.gradient axis.other order).toOption =
        (g.gradient axis order).toOption.map Grid.transpose) ∧
    ∀ y x : Grid R,
      (VectorMap.ofGrids x.transpose y.transpose >>= VectorMap.divergence).toOption =
        (VectorMap.ofGrids y x >>= VectorMap.divergence).toOption.map Grid.transpose ∧
      (VectorMap.ofGrids x.transpose y.transpose >>= VectorMap.curl).toOption =
        (VectorMap.ofGrids y x >>= VectorMap.curl).toOption.map
          (fun c => c.transpose.map fun a => -a) ∧
      ((VectorMap.ofGrids x.transpose y.transpose).map VectorMap.magnitude).toOption =
        ((VectorMap.ofGrids y x).map VectorMap.magnitude).toOption.map Grid.transpose := by
  refine ⟨Grid.toOption_gradient_transpose, fun y x => ?_⟩
  have hpair := VectorMap.toOption_ofGrids_transpose y x
  refine ⟨?_, ?_, ?_⟩
  · rw [toOption_bind, toOption_bind, hpair]
    cases (VectorMap.ofGrids y x).toOption with
    | none => rfl
    | some v => exact v.toOption_divergence_transpose hadd
  · rw [toOption_bind, toOption_bind, hpair]
    cases (VectorMap.ofGrids y x).toOption with
    | none => rfl
    | some v => exact v.toOption_curl_transpose hsub
  · rw [toOption_map, toOption_map, hpair]
    cases (VectorMap.ofGrids y x).toOption with
    | none => rfl
    | some v => exact congrArg some (v.magnitude_transpose hadd)

/-- A component with fewer rows than columns. -/
def wideComponent : Grid ℝ := .ofFn 2 3 fun i j => ((i.val + 1) * (j.val + 2) : Nat)

theorem transpose_exchanges_derivatives_wide :
    (∀ a b : ℝ, a + b = b + a) ∧ (∀ a b : ℝ, b - a = -(a - b)) ∧
    ∃ curl, (VectorMap.ofGrids wideComponent wideComponent >>= VectorMap.curl) = .ok curl ∧
      (VectorMap.ofGrids wideComponent.transpose wideComponent.transpose >>=
        VectorMap.curl).toOption = some (curl.transpose.map fun a => -a) := by
  have hadd : ∀ a b : ℝ, a + b = b + a := add_comm
  have hsub : ∀ a b : ℝ, b - a = -(a - b) := fun a b => (neg_sub a b).symm
  let v : VectorMap ℝ := ⟨wideComponent, wideComponent, rfl⟩
  have hpair : VectorMap.ofGrids wideComponent wideComponent = .ok v := dif_pos rfl
  have hcols : EdgeOrder.first.least ≤ v.y.length .cols := by decide
  have hrows : EdgeOrder.first.least ≤ v.x.length .rows := by decide
  have hcurl := VectorMap.curl_eq_ok hcols hrows
  rw [← ok_bind v VectorMap.curl, ← hpair] at hcurl
  refine ⟨hadd, hsub, _, hcurl, ?_⟩
  have hexchange := ((transpose_exchanges_derivatives hadd hsub).2 wideComponent wideComponent).2.1
  rw [hexchange, hcurl]
  rfl

end CenterOfMass
