import CenterOfMass.Field.Basic
import CenterOfMass.Proofs.Outcome
import Mathlib.Order.Basic

namespace CenterOfMass

namespace Grid

variable {α : Type} {g : Grid α} {axis : Axis} {order : EdgeOrder}

theorem longEnough_eq_ok (h : order.least ≤ g.length axis) :
    g.longEnough axis order = .ok ⟨h⟩ := dif_pos h

theorem longEnough_eq_error (h : ¬ order.least ≤ g.length axis) :
    g.longEnough axis order =
      .error (.shapeMismatch (.shortAxis axis.index g.shape order.least)) := dif_neg h

end Grid

section Shift

variable {T : Type} [NatCast T] [BEq T] [Sub T] [Div T]

theorem shiftFrom_of_mass (reference weighted : T) {mass : T}
    (hmass : (mass == Nat.cast 0) = false) :
    shiftFrom reference weighted mass = weighted / mass - reference := by
  unfold shiftFrom
  rw [bne, hmass]
  rfl

/-- Without mass the weighted sum is not looked at. -/
theorem shiftFrom_of_no_mass (reference weighted : T) {mass : T}
    (hmass : (mass == Nat.cast 0) = true) :
    shiftFrom reference weighted mass = reference - reference := by
  unfold shiftFrom
  rw [bne, hmass]
  rfl

end Shift

variable {R : Type} [Add R] [Sub R] [Mul R] [Div R] [Neg R] [NatCast R]

namespace Grid

variable {g : Grid R} {axis : Axis} {order : EdgeOrder}

theorem gradient_eq_ok (h : order.least ≤ g.length axis) :
    g.gradient axis order = .ok (g.derivative axis order h) := by
  unfold gradient
  rw [longEnough_eq_ok h]
  rfl

theorem gradient_eq_error (h : ¬ order.least ≤ g.length axis) :
    g.gradient axis order =
      .error (.shapeMismatch (.shortAxis axis.index g.shape order.least)) := by
  unfold gradient
  rw [longEnough_eq_error h]
  rfl

end Grid

namespace VectorMap

variable {v : VectorMap R}

theorem divergence_eq_ok (hy : EdgeOrder.first.least ≤ v.y.length .rows)
    (hx : EdgeOrder.first.least ≤ v.x.length .cols) : v.divergence =
    .ok (.zipWith (· + ·) (v.y.derivative .rows .first hy) (v.x.derivative .cols .first hx)
      v.shape_eq) := by
  unfold divergence
  rw [Grid.longEnough_eq_ok hy, ok_bind]
  dsimp only
  rw [Grid.longEnough_eq_ok hx, ok_bind]
  rfl

theorem curl_eq_ok (hy : EdgeOrder.first.least ≤ v.y.length .cols)
    (hx : EdgeOrder.first.least ≤ v.x.length .rows) : v.curl =
    .ok (.zipWith (· - ·) (v.y.derivative .cols .first hy) (v.x.derivative .rows .first hx)
      v.shape_eq) := by
  unfold curl
  rw [Grid.longEnough_eq_ok hy, ok_bind]
  dsimp only
  rw [Grid.longEnough_eq_ok hx, ok_bind]
  rfl

/-- The divergence looks at the rows of one component first, then at the columns of the other. -/
theorem divergence_eq_error (h : ¬ (2 ≤ v.y.rows ∧ 2 ≤ v.y.cols)) :
    v.divergence =
      .error (.shapeMismatch (.shortAxis (if v.y.rows < 2 then 0 else 1) v.y.shape 2)) := by
  unfold divergence
  by_cases hrows : 2 ≤ v.y.rows
  · have hy : EdgeOrder.first.least ≤ v.y.length .rows := hrows
    have hx : ¬ EdgeOrder.first.least ≤ v.x.length .cols := by
      have hcols : v.y.cols = v.x.cols := Grid.cols_eq v.shape_eq
      simp only [EdgeOrder.least, Grid.length]
      omega
    rw [Grid.longEnough_eq_ok hy, ok_bind]
    dsimp only
    rw [Grid.longEnough_eq_error hx, if_neg (by omega), v.shape_eq]
    rfl
  · have hy : ¬ EdgeOrder.first.least ≤ v.y.length .rows := hrows
    rw [Grid.longEnough_eq_error hy, if_pos (by omega)]
    rfl

/-- The curl looks at the columns of one component first, then at the rows of the other. -/
theorem curl_eq_error (h : ¬ (2 ≤ v.y.rows ∧ 2 ≤ v.y.cols)) :
    v.curl = .error (.shapeMismatch (.shortAxis (if v.y.cols < 2 then 1 else 0) v.y.shape 2)) := by
  unfold curl
  by_cases hcols : 2 ≤ v.y.cols
  · have hy : EdgeOrder.first.least ≤ v.y.length .cols := hcols
    have hx : ¬ EdgeOrder.first.least ≤ v.x.length .rows := by
      have hrows : v.y.rows = v.x.rows := Grid.rows_eq v.shape_eq
      simp only [EdgeOrder.least, Grid.length]
      omega
    rw [Grid.longEnough_eq_ok hy, ok_bind]
    dsimp only
    rw [Grid.longEnough_eq_error hx, if_neg (by omega), v.shape_eq]
    rfl
  · have hy : ¬ EdgeOrder.first.least ≤ v.y.length .cols := hcols
    rw [Grid.longEnough_eq_error hy, if_pos (by omega)]
    rfl

end VectorMap

namespace ShiftField

variable [BEq R] [Elementary R]

/-- The maps that a field is made of. -/
def grids : ShiftField R → List (Grid R)
  | .real f => [f.x, f.y, f.magnitude, f.divergence, f.curl]
  | .complex f => [f.xReal, f.yReal, f.xImag, f.yImag]

def isComplex : ShiftField R → Bool
  | .real _ => false
  | .complex _ => true

variable (refY refX : R)

/-- Real maps of two rows and two columns at least have a field of shifts. -/
theorem ofMaps_real_eq_ok {m : MapTriple R} (hrows : 2 ≤ m.sum.rows) (hcols : 2 ≤ m.sum.cols) :
    ∃ divergence curl : Grid R, divergence.shape = m.sum.shape ∧ curl.shape = m.sum.shape ∧
      ofMaps (.real m) refY refX = .ok (.real ⟨(m.shifts refY refX).x, (m.shifts refY refX).y,
        (m.shifts refY refX).magnitude, divergence, curl⟩) := by
  have hy : m.y.rows = m.sum.rows ∧ m.y.cols = m.sum.cols :=
    ⟨Grid.rows_eq m.y_shape, Grid.cols_eq m.y_shape⟩
  have hx : m.x.rows = m.sum.rows ∧ m.x.cols = m.sum.cols :=
    ⟨Grid.rows_eq m.x_shape, Grid.cols_eq m.x_shape⟩
  let v := m.shifts refY refX
  have hyrows : EdgeOrder.first.least ≤ v.y.length .rows := hrows.trans_eq hy.1.symm
  have hycols : EdgeOrder.first.least ≤ v.y.length .cols := hcols.trans_eq hy.2.symm
  have hxrows : EdgeOrder.first.least ≤ v.x.length .rows := hrows.trans_eq hx.1.symm
  have hxcols : EdgeOrder.first.least ≤ v.x.length .cols := hcols.trans_eq hx.2.symm
  obtain ⟨divergence, hdivergence, hsum⟩ :
      ∃ g, v.divergence = .ok g ∧ g.shape = m.sum.shape :=
    ⟨_, VectorMap.divergence_eq_ok hyrows hxcols, (Grid.shape_derivative ..).trans m.y_shape⟩
  obtain ⟨curl, hcurl, hdifference⟩ : ∃ g, v.curl = .ok g ∧ g.shape = m.sum.shape :=
    ⟨_, VectorMap.curl_eq_ok hycols hxrows, (Grid.shape_derivative ..).trans m.y_shape⟩
  refine ⟨divergence, curl, hsum, hdifference, ?_⟩
  unfold ofMaps
  change (v.divergence >>= _) = _
  rw [hdivergence, ok_bind, hcurl, ok_bind]
  rfl

/-- Beside its shifts a field of real maps holds their length, their divergence and their curl. -/
theorem ofMaps_real_inv {refY refX : R} {m : MapTriple R} {field : ShiftField R}
    (h : ofMaps (.real m) refY refX = .ok field) :
    ∃ divergence curl, (m.shifts refY refX).divergence = .ok divergence ∧
      (m.shifts refY refX).curl = .ok curl ∧
      field = .real ⟨(m.shifts refY refX).x, (m.shifts refY refX).y,
        (m.shifts refY refX).magnitude, divergence, curl⟩ := by
  obtain ⟨divergence, hdivergence, h⟩ := bind_eq_ok_iff.mp h
  obtain ⟨curl, hcurl, h⟩ := bind_eq_ok_iff.mp h
  exact ⟨divergence, curl, hdivergence, hcurl, (Except.ok.inj h).symm⟩

theorem ofMaps_real_eq_error {m : MapTriple R} (h : ¬ (2 ≤ m.sum.rows ∧ 2 ≤ m.sum.cols)) :
    ofMaps (.real m) refY refX = .error (.shapeMismatch
      (.shortAxis (if m.sum.rows < 2 then 0 else 1) m.sum.shape 2)) := by
  have hrows : m.y.rows = m.sum.rows := Grid.rows_eq m.y_shape
  have hcols : m.y.cols = m.sum.cols := Grid.cols_eq m.y_shape
  have hshort : ¬ (2 ≤ (m.shifts refY refX).y.rows ∧ 2 ≤ (m.shifts refY refX).y.cols) := by
    intro hlong
    exact h (hrows ▸ hcols ▸ hlong)
  have hshape : (m.shifts refY refX).y.shape = m.sum.shape := m.y_shape
  have hyrows : (m.shifts refY refX).y.rows = m.sum.rows := hrows
  unfold ofMaps
  simp only
  rw [VectorMap.divergence_eq_error hshort, hshape, hyrows]
  rfl

/-- Maps have a field of shifts when they are complex or long enough both ways. Every map of the
field then has their shape. -/
theorem ofMaps_eq_ok {maps : ReductionMaps R}
    (h : maps.isComplex ∨ 2 ≤ maps.shape.1 ∧ 2 ≤ maps.shape.2) :
    ∃ field, ofMaps maps refY refX = .ok field ∧ ∀ g ∈ field.grids, g.shape = maps.shape := by
  cases maps with
  | real m =>
    have hlong : 2 ≤ m.sum.rows ∧ 2 ≤ m.sum.cols := by
      simpa [ReductionMaps.isComplex, ReductionMaps.shape, Grid.shape] using h
    obtain ⟨divergence, curl, hsum, hdifference, hfield⟩ :=
      ofMaps_real_eq_ok refY refX hlong.1 hlong.2
    refine ⟨_, hfield, ?_⟩
    simp only [grids, List.forall_mem_cons]
    exact ⟨m.x_shape, m.y_shape, m.y_shape, hsum, hdifference, by simp⟩
  | complex m =>
    refine ⟨_, rfl, ?_⟩
    simp only [grids, List.forall_mem_cons]
    exact ⟨m.x_shape, m.y_shape, m.x_shape, m.y_shape, by simp⟩

theorem ofMaps_eq_error {maps : ReductionMaps R}
    (h : ¬ (maps.isComplex ∨ 2 ≤ maps.shape.1 ∧ 2 ≤ maps.shape.2)) :
    ∃ fault, ofMaps maps refY refX = .error (.shapeMismatch fault) := by
  cases maps with
  | real m =>
    have hshort : ¬ (2 ≤ m.sum.rows ∧ 2 ≤ m.sum.cols) := fun hlong => h (.inr hlong)
    exact ⟨_, ofMaps_real_eq_error refY refX hshort⟩
  | complex m => exact absurd (.inl rfl) h

theorem failsOnly_ofMaps (maps : ReductionMaps R) :
    FailsOnly Failure.Later (ofMaps maps refY refX) := by
  by_cases hlong : maps.isComplex ∨ 2 ≤ maps.shape.1 ∧ 2 ≤ maps.shape.2
  · obtain ⟨field, hfield, -⟩ := ofMaps_eq_ok refY refX hlong
    rw [hfield]
    exact .ok field
  · obtain ⟨fault, hfault⟩ := ofMaps_eq_error refY refX hlong
    rw [hfault]
    exact .error trivial

/-- A field is real or complex as its maps are. -/
theorem isComplex_of_ofMaps {refY refX : R} {maps : ReductionMaps R} {field : ShiftField R}
    (h : ofMaps maps refY refX = .ok field) : field.isComplex = maps.isComplex := by
  cases maps with
  | real m =>
    obtain ⟨divergence, curl, -, -, rfl⟩ := ofMaps_real_inv h
    rfl
  | complex m =>
    obtain rfl := Except.ok.inj h
    rfl

theorem shape_of_mem_grids {maps : ReductionMaps R} {field : ShiftField R}
    (h : ofMaps maps refY refX = .ok field) : ∀ g ∈ field.grids, g.shape = maps.shape := by
  by_cases hlong : maps.isComplex ∨ 2 ≤ maps.shape.1 ∧ 2 ≤ maps.shape.2
  · obtain ⟨field', hfield, hgrids⟩ := ofMaps_eq_ok refY refX hlong
    obtain rfl := Except.ok.inj (h.symm.trans hfield)
    exact hgrids
  · obtain ⟨fault, hfault⟩ := ofMaps_eq_error refY refX hlong
    cases h.symm.trans hfault

end ShiftField

end CenterOfMass
