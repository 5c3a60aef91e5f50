import CenterOfMass.Numeric.Double
import CenterOfMass.Proofs.Field.Stencil

namespace CenterOfMass

/-- The samples of a lane of `n` that the slope at `i` is taken from: the neighbors, and at an edge
the sample itself. -/
def SlopeReads (n i k : Nat) : Prop := k + 1 = i ∨ k = i + 1 ∨ k = i ∧ (i = 0 ∨ i + 1 = n)

/-- The places that a slope along an axis is taken from. -/
def DerivativeReads (shape : Nat × Nat) : Axis → Nat → Nat → Nat → Nat → Prop
  | .rows, i, j, k, l => SlopeReads shape.1 i k ∧ l = j
  | .cols, i, j, k, l => k = i ∧ SlopeReads shape.2 j l

/-- One step away along one of the axes. -/
def Beside (i j p q : Nat) : Prop :=
  (i + 1 = p ∨ p + 1 = i) ∧ j = q ∨ i = p ∧ (j + 1 = q ∨ q + 1 = j)

/-- Neither in the first or last row nor in the first or last column. -/
def Interior (shape : Nat × Nat) (p q : Nat) : Prop :=
  0 < p ∧ p + 1 < shape.1 ∧ 0 < q ∧ q + 1 < shape.2

instance (i j p q : Nat) : Decidable (Beside i j p q) := inferInstanceAs (Decidable (_ ∨ _))

instance (shape : Nat × Nat) (p q : Nat) : Decidable (Interior shape p q) :=
  inferInstanceAs (Decidable (_ ∧ _))

section Stencil

variable {shape : Nat × Nat} {axis : Axis} {i j p q : Nat}

theorem DerivativeReads.eq_or_beside (h : DerivativeReads shape axis i j p q) :
    (i, j) = (p, q) ∨ Beside i j p q := by
  simp only [Beside, Prod.mk.injEq]
  cases axis with
  | rows =>
    obtain ⟨hread, hcol⟩ := h
    unfold SlopeReads at hread
    omega
  | cols =>
    obtain ⟨hrow, hread⟩ := h
    unfold SlopeReads at hread
    omega

/-- In the interior the two neighbors are read and not the place itself. -/
theorem Interior.not_reads (h : Interior shape p q) : ¬ DerivativeReads shape axis p q p q := by
  intro hreads
  unfold Interior at h
  cases axis with
  | rows =>
    have hread : SlopeReads shape.1 p p := hreads.1
    unfold SlopeReads at hread
    omega
  | cols =>
    have hread : SlopeReads shape.2 q q := hreads.2
    unfold SlopeReads at hread
    omega

end Stencil

variable {R : Type} [Add R] [Sub R] [Mul R] [Div R] [Neg R] [NatCast R]

theorem slope_first_congr {n : Nat} {f f' : Fin n → R} (h : EdgeOrder.first.least ≤ n) (i : Fin n)
    (hread : ∀ k : Fin n, SlopeReads n i k → f k = f' k) :
    slope .first f h i = slope .first f' h i := by
  have hn : 2 ≤ n := h
  by_cases hi : i.val = 0
  · have hsecond : f ⟨1, h⟩ = f' ⟨1, h⟩ := hread _ (.inr (.inl (by simp [hi])))
    have hfirst : f ⟨0, by omega⟩ = f' ⟨0, by omega⟩ := hread _ (.inr (.inr (by simp [hi])))
    rw [slope_first_left h hi, slope_first_left h hi, hsecond, hfirst]
  have hprevious : f ⟨i.val - 1, by omega⟩ = f' ⟨i.val - 1, by omega⟩ :=
    hread _ (.inl (show i.val - 1 + 1 = i.val by omega))
  by_cases hlast : i.val + 1 = n
  · have hend : f i = f' i := hread _ (.inr (.inr ⟨rfl, .inr hlast⟩))
    rw [slope_first_right h hi hlast, slope_first_right h hi hlast, hend, hprevious]
  · have hlt : i.val + 1 < n := by omega
    have hnext : f ⟨i.val + 1, hlt⟩ = f' ⟨i.val + 1, hlt⟩ := hread _ (.inr (.inl rfl))
    rw [slope_inner h hi hlt, slope_inner h hi hlt, hnext, hprevious]

namespace Grid

variable {i j : Nat}

theorem get_eq_of_get? {α : Type} {m n : Nat} {f f' : Array α} {hf : f.size = m * n}
    {hf' : f'.size = m * n} {i : Fin m} {j : Fin n}
    (h : (⟨m, n, f, hf⟩ : Grid α).get? i j = (⟨m, n, f', hf'⟩ : Grid α).get? i j) :
    (⟨m, n, f, hf⟩ : Grid α).get i j = (⟨m, n, f', hf'⟩ : Grid α).get i j := by
  have hleft := get?_of_lt (g := ⟨m, n, f, hf⟩) i.isLt j.isLt
  have hright := get?_of_lt (g := ⟨m, n, f', hf'⟩) i.isLt j.isLt
  exact Option.some.inj (hleft.symm.trans (h.trans hright))

theorem get?_zipWith_congr {α β γ : Type} {f : α → β → γ} {a a' : Grid α} {b b' : Grid β}
    (h : a.shape = b.shape) (h' : a'.shape = b'.shape) (ha : a.get? i j = a'.get? i j)
    (hb : b.get? i j = b'.get? i j) :
    (zipWith f a b h).get? i j = (zipWith f a' b' h').get? i j := by
  rw [get?_zipWith_eq_map₂, get?_zipWith_eq_map₂, ha, hb]

/-- Tables that agree where a slope reads them have the same slope. -/
theorem get?_derivative_congr {g g' : Grid R} (hshape : g.shape = g'.shape) (axis : Axis)
    (h : EdgeOrder.first.least ≤ g.length axis) (h' : EdgeOrder.first.least ≤ g'.length axis)
    (hread : ∀ k l, DerivativeReads g.shape axis i j k l → g.get? k l = g'.get? k l) :
    (g.derivative axis .first h).get? i j = (g'.derivative axis .first h').get? i j := by
  obtain ⟨m, n, f, hf⟩ := g
  obtain ⟨m', n', f', hf'⟩ := g'
  obtain ⟨rfl, rfl⟩ := Prod.mk.inj hshape
  by_cases hin : i < m ∧ j < n
  · let row : Fin m := ⟨i, hin.1⟩
    let col : Fin n := ⟨j, hin.2⟩
    cases axis with
    | rows =>
      have hcells : ∀ k : Fin m, SlopeReads m row k →
          (⟨m, n, f, hf⟩ : Grid R).get k col = (⟨m, n, f', hf'⟩ : Grid R).get k col := by
        intro k hk
        exact get_eq_of_get? (hread k j ⟨hk, rfl⟩)
      have hslope := congrArg some (slope_first_congr h row hcells)
      have hleft := get?_derivative_rows h row col
      have hright := get?_derivative_rows h' row col
      exact hleft.trans (hslope.trans hright.symm)
    | cols =>
      have hcells : ∀ k : Fin n, SlopeReads n col k →
          (⟨m, n, f, hf⟩ : Grid R).get row k = (⟨m, n, f', hf'⟩ : Grid R).get row k := by
        intro k hk
        exact get_eq_of_get? (hread i k ⟨rfl, hk⟩)
      have hslope := congrArg some (slope_first_congr h col hcells)
      have hleft := get?_derivative_cols h row col
      have hright := get?_derivative_cols h' row col
      exact hleft.trans (hslope.trans hright.symm)
  · cases axis <;> exact (get?_eq_none hin).trans (get?_eq_none hin).symm

end Grid

namespace VectorMap

variable {v v' : VectorMap R} {divergence divergence' curl curl' : Grid R} {i j : Nat}

/-- Both components agree where a slope at a place is taken from. -/
def AgreeAround (v v' : VectorMap R) (i j : Nat) : Prop :=
  ∀ axis k l, DerivativeReads v.y.shape axis i j k l →
    v.y.get? k l = v'.y.get? k l ∧ v.x.get? k l = v'.x.get? k l

omit [Add R] [Sub R] [Mul R] [Div R] [Neg R] [NatCast R] in
theorem longEnough_of_le {v : VectorMap R} (hrows : 2 ≤ v.y.rows) (hcols : 2 ≤ v.y.cols)
    (axis : Axis) : EdgeOrder.first.least ≤ v.y.length axis ∧
      EdgeOrder.first.least ≤ v.x.length axis := by
  have hrows' : 2 ≤ v.x.rows := Grid.rows_eq v.shape_eq ▸ hrows
  have hcols' : 2 ≤ v.x.cols := Grid.cols_eq v.shape_eq ▸ hcols
  cases axis with
  | rows => exact ⟨hrows, hrows'⟩
  | cols => exact ⟨hcols, hcols'⟩

section Derived

variable (hrows : 2 ≤ v.y.rows) (hcols : 2 ≤ v.y.cols) (hshape : v.y.shape = v'.y.shape)
include hshape

theorem y_derivative_congr (hagree : v.AgreeAround v' i j)
    (axis : Axis) (h : EdgeOrder.first.least ≤ v.y.length axis)
    (h' : EdgeOrder.first.least ≤ v'.y.length axis) :
    (v.y.derivative axis .first h).get? i j = (v'.y.derivative axis .first h').get? i j := by
  apply Grid.get?_derivative_congr hshape
  intro k l hreads
  exact (hagree axis k l hreads).1

theorem x_derivative_congr (hagree : v.AgreeAround v' i j)
    (axis : Axis) (h : EdgeOrder.first.least ≤ v.x.length axis)
    (h' : EdgeOrder.first.least ≤ v'.x.length axis) :
    (v.x.derivative axis .first h).get? i j = (v'.x.derivative axis .first h').get? i j := by
  apply Grid.get?_derivative_congr (v.shape_eq.symm.trans (hshape.trans v'.shape_eq))
  intro k l hreads
  rw [← v.shape_eq] at hreads
  exact (hagree axis k l hreads).2

include hrows hcols

theorem divergence_congr (h : v.divergence = .ok divergence) (h' : v'.divergence = .ok divergence')
    (hagree : v.AgreeAround v' i j) : divergence.get? i j = divergence'.get? i j := by
  have hlong := longEnough_of_le hrows hcols
  have hlong' := longEnough_of_le (Grid.rows_eq hshape ▸ hrows) (Grid.cols_eq hshape ▸ hcols)
  obtain rfl := Except.ok.inj ((divergence_eq_ok (hlong .rows).1 (hlong .cols).2).symm.trans h)
  obtain rfl := Except.ok.inj ((divergence_eq_ok (hlong' .rows).1 (hlong' .cols).2).symm.trans h')
  have hy := y_derivative_congr hshape hagree .rows (hlong .rows).1 (hlong' .rows).1
  have hx := x_derivative_congr hshape hagree .cols (hlong .cols).2 (hlong' .cols).2
  exact Grid.get?_zipWith_congr _ _ hy hx

theorem curl_congr (h : v.curl = .ok curl) (h' : v'.curl = .ok curl')
    (hagree : v.AgreeAround v' i j) : curl.get? i j = curl'.get? i j := by
  have hlong := longEnough_of_le hrows hcols
  have hlong' := longEnough_of_le (Grid.rows_eq hshape ▸ hrows) (Grid.cols_eq hshape ▸ hcols)
  obtain rfl := Except.ok.inj ((curl_eq_ok (hlong .cols).1 (hlong .rows).2).symm.trans h)
  obtain rfl := Except.ok.inj ((curl_eq_ok (hlong' .cols).1 (hlong' .rows).2).symm.trans h')
  have hy := y_derivative_congr hshape hagree .cols (hlong .cols).1 (hlong' .cols).1
  have hx := x_derivative_congr hshape hagree .rows (hlong .rows).2 (hlong' .rows).2
  exact Grid.get?_zipWith_congr _ _ hy hx

end Derived

end VectorMap

section Maps

variable [BEq R] {m m' : MapTriple R} {i j p q : Nat} (refY refX : R)

/-- The values of the three maps at a position are the same. -/
def MapTriple.AgreeAt {α : Type} (m m' : MapTriple α) (i j : Nat) : Prop :=
  m.sum.get? i j = m'.sum.get? i j ∧ m.y.get? i j = m'.y.get? i j ∧ m.x.get? i j = m'.x.get? i j

omit [Add R] [Mul R] [Neg R] in
/-- A shift depends on the maps at its own position only. -/
theorem MapTriple.AgreeAt.shifts (h : m.AgreeAt m' i j) :
    (m.shifts refY refX).y.get? i j = (m'.shifts refY refX).y.get? i j ∧
      (m.shifts refY refX).x.get? i j = (m'.shifts refY refX).x.get? i j := by
  obtain ⟨hsum, hy, hx⟩ := h
  exact ⟨Grid.get?_zipWith_congr m.y_shape m'.y_shape hy hsum,
    Grid.get?_zipWith_congr m.x_shape m'.x_shape hx hsum⟩

omit [Neg R] in
theorem MapTriple.AgreeAt.magnitude [Elementary R] (h : m.AgreeAt m' i j) :
    (m.shifts refY refX).magnitude.get? i j = (m'.shifts refY refX).magnitude.get? i j := by
  obtain ⟨hy, hx⟩ := h.shifts refY refX
  exact Grid.get?_zipWith_congr _ _ hy hx

omit [Add R] [Mul R] [Neg R] in
/-- Maps that differ at one position have slopes that agree wherever that position is not read. -/
theorem MapTriple.agreeAround_shifts (hagree : ∀ i j, (i, j) ≠ (p, q) → m.AgreeAt m' i j)
    (hread : ∀ axis, ¬ DerivativeReads m.sum.shape axis i j p q) :
    (m.shifts refY refX).AgreeAround (m'.shifts refY refX) i j := by
  have hshape : (m.shifts refY refX).y.shape = m.sum.shape := m.y_shape
  intro axis k l hreads
  apply MapTriple.AgreeAt.shifts
  apply hagree
  rintro ⟨⟩
  rw [hshape] at hreads
  exact hread axis hreads

/-- What is derived from the maps of a scan at one position is seen there and, in the divergence and
the curl, one step away along an axis; an interior position does not even see itself in those two.
Nothing is asked of the arithmetic. -/
theorem ofMaps_local [Elementary R] (m m' : MapTriple R) (refY refX : R) (p q : Nat)
    (hrows : 2 ≤ m.sum.rows) (hcols : 2 ≤ m.sum.cols) (hshape : m'.sum.shape = m.sum.shape)
    (hagree : ∀ i j, (i, j) ≠ (p, q) → m.AgreeAt m' i j) :
    ∃ field field' : RealField R,
      ShiftField.ofMaps (.real m) refY refX = .ok (.real field) ∧
      ShiftField.ofMaps (.real m') refY refX = .ok (.real field') ∧
      (∀ g ∈ (ShiftField.real field).grids ++ (ShiftField.real field').grids,
        g.shape = m.sum.shape) ∧
      (∀ i j, (i, j) ≠ (p, q) → field.x.get? i j = field'.x.get? i j ∧
        field.y.get? i j = field'.y.get? i j ∧
        field.magnitude.get? i j = field'.magnitude.get? i j) ∧
      (∀ i j, (i, j) ≠ (p, q) → ¬ Beside i j p q →
        field.divergence.get? i j = field'.divergence.get? i j ∧
        field.curl.get? i j = field'.curl.get? i j) ∧
      (Interior m.sum.shape p q → field.divergence.get? p q = field'.divergence.get? p q ∧
        field.curl.get? p q = field'.curl.get? p q) := by
  have hrows' : 2 ≤ m'.sum.rows := Grid.rows_eq hshape ▸ hrows
  have hcols' : 2 ≤ m'.sum.cols := Grid.cols_eq hshape ▸ hcols
  obtain ⟨divergence, curl, -, -, hfield⟩ := ShiftField.ofMaps_real_eq_ok refY refX hrows hcols
  obtain ⟨divergence', curl', -, -, hfield'⟩ :=
    ShiftField.ofMaps_real_eq_ok refY refX hrows' hcols'
  have hgrids := ShiftField.shape_of_mem_grids refY refX hfield
  have hgrids' := ShiftField.shape_of_mem_grids refY refX hfield'
  obtain ⟨_, _, hdivergence, hcurl, heq⟩ := ShiftField.ofMaps_real_inv hfield
  obtain ⟨_, _, hdivergence', hcurl', heq'⟩ := ShiftField.ofMaps_real_inv hfield'
  obtain ⟨⟩ := heq
  obtain ⟨⟩ := heq'
  have hlong : 2 ≤ (m.shifts refY refX).y.rows ∧ 2 ≤ (m.shifts refY refX).y.cols :=
    ⟨hrows.trans_eq (Grid.rows_eq m.y_shape).symm, hcols.trans_eq (Grid.cols_eq m.y_shape).symm⟩
  have hsides : (m.shifts refY refX).y.shape = (m'.shifts refY refX).y.shape :=
    m.y_shape.trans (hshape.symm.trans m'.y_shape.symm)
  -- Only the places that a slope reads count, so the last two parts differ just in why the open
  -- position is not among them.
  have hderived : ∀ i j, (∀ axis, ¬ DerivativeReads m.sum.shape axis i j p q) →
      divergence.get? i j = divergence'.get? i j ∧ curl.get? i j = curl'.get? i j := by
    intro i j hread
    have haround := MapTriple.agreeAround_shifts refY refX hagree hread
    exact ⟨VectorMap.divergence_congr hlong.1 hlong.2 hsides hdivergence hdivergence' haround,
      VectorMap.curl_congr hlong.1 hlong.2 hsides hcurl hcurl' haround⟩
  refine ⟨_, _, hfield, hfield', ?_, ?_, ?_, ?_⟩
  · intro g hg
    rcases List.mem_append.mp hg with hg | hg
    · exact hgrids g hg
    · exact (hgrids' g hg).trans hshape
  · intro i j hne
    have hshifts := (hagree i j hne).shifts refY refX
    exact ⟨hshifts.2, hshifts.1, (hagree i j hne).magnitude refY refX⟩
  · intro i j hne hapart
    apply hderived
    intro axis hreads
    exact hreads.eq_or_beside.elim hne hapart
  · intro hinterior
    apply hderived
    intro axis
    exact hinterior.not_reads

end Maps

theorem Grid.get?_ofFn_congr {α : Type} {m n : Nat} {f f' : Fin m → Fin n → α} {i j : Nat}
    (h : ∀ (k : Fin m) (l : Fin n), k = i → l = j → f k l = f' k l) :
    (ofFn m n f).get? i j = (ofFn m n f').get? i j := by
  by_cases hin : i < m ∧ j < n
  · have hcell := congrArg some (h ⟨i, hin.1⟩ ⟨j, hin.2⟩ rfl rfl)
    exact (get?_ofFn f _ _).trans (hcell.trans (get?_ofFn f' _ _).symm)
  · exact (get?_eq_none hin).trans (get?_eq_none hin).symm

/-- Nine positions of one mass, with the weighted sums of the middle one left open. -/
def aroundMiddle (y x : Float) : MapTriple Float where
  sum := .ofFn 3 3 fun _ _ => 1
  y := .ofFn 3 3 fun i j => if i.val = 1 ∧ j.val = 1 then y else Float.ofNat i
  x := .ofFn 3 3 fun i j => if i.val = 1 ∧ j.val = 1 then x else Float.ofNat j
  y_shape := rfl
  x_shape := rfl

theorem agreeAt_aroundMiddle (y x y' x' : Float) (i j : Nat) (hne : (i, j) ≠ (1, 1)) :
    (aroundMiddle y x).AgreeAt (aroundMiddle y' x') i j := by
  have hplace : ∀ k l : Fin 3, k = i → l = j → ¬ (k.val = 1 ∧ l.val = 1) := by
    rintro k l rfl rfl hmiddle
    exact hne (Prod.ext hmiddle.1 hmiddle.2)
  have hsum : (aroundMiddle y x).sum = (aroundMiddle y' x').sum := rfl
  refine ⟨congrArg (·.get? i j) hsum, ?_, ?_⟩
  · simp only [aroundMiddle]
    apply Grid.get?_ofFn_congr
    intro k l hk hl
    rw [if_neg (hplace k l hk hl), if_neg (hplace k l hk hl)]
  · simp only [aroundMiddle]
    apply Grid.get?_ofFn_congr
    intro k l hk hl
    rw [if_neg (hplace k l hk hl), if_neg (hplace k l hk hl)]

theorem ofMaps_local_aroundMiddle :
    let m := aroundMiddle 1 1
    let m' := aroundMiddle (0 / 0) 7
    2 ≤ m.sum.rows ∧ 2 ≤ m.sum.cols ∧ m'.sum.shape = m.sum.shape ∧
    (∀ i j, (i, j) ≠ (1, 1) → m.AgreeAt m' i j) ∧ Interior m.sum.shape 1 1 ∧
    ∃ field field' : RealField Float,
      ShiftField.ofMaps (.real m) 1 1 = .ok (.real field) ∧
      ShiftField.ofMaps (.real m') 1 1 = .ok (.real field') ∧
      field.magnitude.get? 0 1 = field'.magnitude.get? 0 1 ∧
      field.divergence.get? 2 2 = field'.divergence.get? 2 2 ∧
      field.divergence.get? 1 1 = field'.divergence.get? 1 1 ∧
      field.curl.get? 1 1 = field'.curl.get? 1 1 := by
  intro m m'
  have hrows : 2 ≤ m.sum.rows := by decide
  have hcols : 2 ≤ m.sum.cols := by decide
  have hshape : m'.sum.shape = m.sum.shape := rfl
  have hagree : ∀ i j, (i, j) ≠ (1, 1) → m.AgreeAt m' i j := agreeAt_aroundMiddle 1 1 (0 / 0) 7
  have hinterior : Interior m.sum.shape 1 1 := by decide
  obtain ⟨field, field', hfield, hfield', -, hshifts, hapart, hmiddle⟩ :=
    ofMaps_local m m' 1 1 1 1 hrows hcols hshape hagree
  have hcorner : ¬ Beside 2 2 1 1 := by decide
  exact ⟨hrows, hcols, hshape, hagree, hinterior, field, field', hfield, hfield',
    (hshifts 0 1 (by decide)).2.2, (hapart 2 2 (by decide) hcorner).1, hmiddle hinterior⟩

end CenterOfMass
