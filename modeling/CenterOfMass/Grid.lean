namespace CenterOfMass

/-- A table of values kept row after row. -/
@[ext] structure Grid (α : Type) where
  rows : Nat
  cols : Nat
  cells : Array α
  size_eq : cells.size = rows * cols

namespace Grid

variable {α β γ : Type}

def shape (g : Grid α) : Nat × Nat := (g.rows, g.cols)

theorem cell_lt {m n : Nat} (i : Fin m) (j : Fin n) : i.val * n + j.val < m * n :=
  calc i.val * n + j.val < i.val * n + n := Nat.add_lt_add_left j.isLt _
    _ = (i.val + 1) * n := (Nat.succ_mul _ _).symm
    _ ≤ m * n := Nat.mul_le_mul_right _ i.isLt

theorem pos_of_cell {m n : Nat} (p : Fin (m * n)) : 0 < n := by
  rcases Nat.eq_zero_or_pos n with rfl | h
  · exact absurd p.isLt (by simp)
  · exact h

/-- The row of the cell at a position in the row-after-row order. -/
def rowOf {m n : Nat} (p : Fin (m * n)) : Fin m :=
  ⟨p.val / n, (Nat.div_lt_iff_lt_mul (pos_of_cell p)).mpr p.isLt⟩

/-- The column of the cell at a position in the row-after-row order. -/
def colOf {m n : Nat} (p : Fin (m * n)) : Fin n := ⟨p.val % n, Nat.mod_lt _ (pos_of_cell p)⟩

def get (g : Grid α) (i : Fin g.rows) (j : Fin g.cols) : α :=
  have h : i.val * g.cols + j.val < g.cells.size := g.size_eq ▸ cell_lt i j
  g.cells[i.val * g.cols + j.val]

def ofFn (m n : Nat) (f : Fin m → Fin n → α) : Grid α where
  rows := m
  cols := n
  cells := Array.ofFn fun p : Fin (m * n) => f (rowOf p) (colOf p)
  size_eq := Array.size_ofFn

/-- A table of the given sides, provided the values fill it exactly. -/
def ofCells? (m n : Nat) (cells : Array α) : Option (Grid α) :=
  if h : cells.size = m * n then some ⟨m, n, cells, h⟩ else none

def map (f : α → β) (g : Grid α) : Grid β where
  rows := g.rows
  cols := g.cols
  cells := g.cells.map f
  size_eq := by rw [Array.size_map, g.size_eq]

theorem rows_eq {a : Grid α} {b : Grid β} (h : a.shape = b.shape) : a.rows = b.rows :=
  congrArg Prod.fst h

theorem cols_eq {a : Grid α} {b : Grid β} (h : a.shape = b.shape) : a.cols = b.cols :=
  congrArg Prod.snd h

/-- Combines two tables of one shape cell by cell. -/
def zipWith (f : α → β → γ) (a : Grid α) (b : Grid β) (h : a.shape = b.shape) : Grid γ :=
  ofFn a.rows a.cols fun i j => f (a.get i j) (b.get (i.cast (rows_eq h)) (j.cast (cols_eq h)))

@[simp] theorem shape_ofFn (m n : Nat) (f : Fin m → Fin n → α) : (ofFn m n f).shape = (m, n) := rfl

@[simp] theorem shape_map (f : α → β) (g : Grid α) : (g.map f).shape = g.shape := rfl

@[simp] theorem shape_zipWith (f : α → β → γ) (a : Grid α) (b : Grid β) (h : a.shape = b.shape) :
    (zipWith f a b h).shape = a.shape := rfl

theorem rowOf_cell {m n : Nat} (i : Fin m) (j : Fin n) : rowOf ⟨_, cell_lt i j⟩ = i := by
  apply Fin.ext
  have hn : 0 < n := Nat.lt_of_le_of_lt (Nat.zero_le _) j.isLt
  simp only [rowOf]
  rw [Nat.mul_comm, Nat.mul_add_div hn, Nat.div_eq_of_lt j.isLt, Nat.add_zero]

theorem colOf_cell {m n : Nat} (i : Fin m) (j : Fin n) : colOf ⟨_, cell_lt i j⟩ = j := by
  apply Fin.ext
  simp only [colOf]
  rw [Nat.mul_comm, Nat.mul_add_mod, Nat.mod_eq_of_lt j.isLt]

theorem rowOf_mul_add_colOf {m n : Nat} (p : Fin (m * n)) :
    (rowOf p).val * n + (colOf p).val = p.val := by
  simp only [rowOf, colOf]
  rw [Nat.mul_comm]
  exact Nat.div_add_mod _ _

@[simp] theorem get_ofFn (m n : Nat) (f : Fin m → Fin n → α) (i : Fin m) (j : Fin n) :
    (ofFn m n f).get i j = f i j := by
  simp only [get, ofFn, Array.getElem_ofFn]
  rw [rowOf_cell, colOf_cell]

@[simp] theorem get_map (f : α → β) (g : Grid α) (i : Fin g.rows) (j : Fin g.cols) :
    (g.map f).get i j = f (g.get i j) := by
  simp [get, map]

@[simp] theorem get_zipWith (f : α → β → γ) (a : Grid α) (b : Grid β) (h : a.shape = b.shape)
    (i : Fin a.rows) (j : Fin a.cols) : (zipWith f a b h).get i j =
      f (a.get i j) (b.get (i.cast (rows_eq h)) (j.cast (cols_eq h))) :=
  get_ofFn _ _ _ _ _

/-- Every table is the table of its own cells. -/
theorem ofFn_get (g : Grid α) : ofFn g.rows g.cols g.get = g := by
  refine Grid.ext rfl rfl (Array.ext ?_ ?_)
  · simp [ofFn, g.size_eq]
  · intro p hp hq
    simp only [ofFn, Array.getElem_ofFn, get]
    congr 1
    exact rowOf_mul_add_colOf _

/-- Tables are equal when their shapes and all their cells are. -/
theorem ext_get {a b : Grid α} (hr : a.rows = b.rows) (hc : a.cols = b.cols)
    (h : ∀ i j, a.get i j = b.get (i.cast hr) (j.cast hc)) : a = b := by
  obtain ⟨m, n, u, hu⟩ := a
  obtain ⟨m', n', v, hv⟩ := b
  have hm : m = m' := hr
  have hn : n = n' := hc
  subst hm hn
  rw [← ofFn_get ⟨m, n, u, hu⟩, ← ofFn_get ⟨m, n, v, hv⟩]
  congr 1
  funext i j
  exact h i j

end Grid

end CenterOfMass
