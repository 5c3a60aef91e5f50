import CenterOfMass.Grid
import Mathlib.Data.Option.NAry

namespace CenterOfMass

theorem zipWith_ofFn {α β γ : Type} {n : Nat} (f : α → β → γ) (a : Fin n → α) (b : Fin n → β) :
    List.zipWith f (List.ofFn a) (List.ofFn b) = List.ofFn fun i => f (a i) (b i) := by
  refine List.ext_getElem (by simp) fun i hi hj => ?_
  rw [List.getElem_zipWith, List.getElem_ofFn, List.getElem_ofFn, List.getElem_ofFn]

end CenterOfMass

namespace CenterOfMass.Grid

variable {α β γ : Type} {i j : Nat}

/-- The value at a place; none beside the table. -/
def get? (g : Grid α) (i j : Nat) : Option α :=
  if h : i < g.rows ∧ j < g.cols then some (g.get ⟨i, h.1⟩ ⟨j, h.2⟩) else none

theorem get?_of_lt {g : Grid α} (hi : i < g.rows) (hj : j < g.cols) :
    g.get? i j = some (g.get ⟨i, hi⟩ ⟨j, hj⟩) := dif_pos ⟨hi, hj⟩

theorem get?_eq_none {g : Grid α} (h : ¬ (i < g.rows ∧ j < g.cols)) : g.get? i j = none := dif_neg h

theorem isSome_get? {g : Grid α} : (g.get? i j).isSome ↔ i < g.rows ∧ j < g.cols := by
  by_cases h : i < g.rows ∧ j < g.cols
  · simp [get?_of_lt h.1 h.2, h]
  · simp [get?_eq_none h, h]

theorem lt_of_get? {g : Grid α} {x : α} (h : g.get? i j = some x) : i < g.rows ∧ j < g.cols := by
  apply isSome_get?.mp
  rw [h]
  rfl

theorem get?_eq_getElem? {g : Grid α} (hi : i < g.rows) (hj : j < g.cols) :
    g.get? i j = g.cells[i * g.cols + j]? := by
  have hcell : i * g.cols + j < g.cells.size := g.size_eq ▸ cell_lt ⟨i, hi⟩ ⟨j, hj⟩
  rw [Array.getElem?_eq_getElem hcell, get?_of_lt hi hj]
  rfl

/-- Tables of one shape are equal when they agree at every place. -/
theorem ext_get? {a b : Grid α} (h : a.shape = b.shape)
    (hplaces : ∀ i j, a.get? i j = b.get? i j) : a = b := by
  refine ext_get (rows_eq h) (cols_eq h) fun i j => ?_
  have hi : i < b.rows := rows_eq h ▸ i.isLt
  have hj : j < b.cols := cols_eq h ▸ j.isLt
  have hplace : some (a.get i j) = some (b.get ⟨i, hi⟩ ⟨j, hj⟩) := by
    rw [← get?_of_lt hi hj, ← hplaces]
    exact (get?_of_lt i.isLt j.isLt).symm
  exact Option.some.inj hplace

/-- Tables of one shape have values at the same places. -/
theorem exists_get? {a : Grid α} {b : Grid β} (h : b.shape = a.shape) {x : α}
    (hx : a.get? i j = some x) : ∃ y, b.get? i j = some y := by
  obtain ⟨hi, hj⟩ := lt_of_get? hx
  rw [← rows_eq h] at hi
  rw [← cols_eq h] at hj
  exact ⟨_, get?_of_lt hi hj⟩

theorem get?_ofFn {m n : Nat} (f : Fin m → Fin n → α) (i : Fin m) (j : Fin n) :
    (ofFn m n f).get? i j = some (f i j) := by
  have hi : i < (ofFn m n f).rows := i.isLt
  have hj : j < (ofFn m n f).cols := j.isLt
  rw [get?_of_lt hi hj]
  exact congrArg some (get_ofFn m n f i j)

theorem get?_map (f : α → β) (g : Grid α) : (g.map f).get? i j = (g.get? i j).map f := by
  by_cases h : i < g.rows ∧ j < g.cols
  · have hmap : i < (g.map f).rows ∧ j < (g.map f).cols := h
    rw [get?_of_lt h.1 h.2, get?_of_lt hmap.1 hmap.2]
    exact congrArg some (get_map f g ⟨i, h.1⟩ ⟨j, h.2⟩)
  · have hmap : ¬ (i < (g.map f).rows ∧ j < (g.map f).cols) := h
    rw [get?_eq_none h, get?_eq_none hmap]
    rfl

theorem get?_zipWith (f : α → β → γ) {a : Grid α} {b : Grid β} (h : a.shape = b.shape) {x : α}
    {y : β} (hx : a.get? i j = some x) (hy : b.get? i j = some y) :
    (zipWith f a b h).get? i j = some (f x y) := by
  obtain ⟨hi, hj⟩ := lt_of_get? hx
  obtain ⟨hi', hj'⟩ := lt_of_get? hy
  rw [get?_of_lt hi hj] at hx
  rw [get?_of_lt hi' hj'] at hy
  obtain rfl := Option.some.inj hx
  obtain rfl := Option.some.inj hy
  have hzi : i < (zipWith f a b h).rows := hi
  have hzj : j < (zipWith f a b h).cols := hj
  rw [get?_of_lt hzi hzj]
  exact congrArg some (get_zipWith f a b h ⟨i, hi⟩ ⟨j, hj⟩)

theorem get?_zipWith_eq_map₂ (f : α → β → γ) {a : Grid α} {b : Grid β} (h : a.shape = b.shape) :
    (zipWith f a b h).get? i j = Option.map₂ f (a.get? i j) (b.get? i j) := by
  by_cases hin : i < a.rows ∧ j < a.cols
  · have ha := get?_of_lt hin.1 hin.2
    obtain ⟨y, hy⟩ := exists_get? h.symm ha
    rw [get?_zipWith f h ha hy, ha, hy]
    rfl
  · have hzip : ¬ (i < (zipWith f a b h).rows ∧ j < (zipWith f a b h).cols) := hin
    rw [get?_eq_none hin, get?_eq_none hzip]
    rfl

theorem map_ofFn (f : α → β) (m n : Nat) (g : Fin m → Fin n → α) :
    (ofFn m n g).map f = ofFn m n fun i j => f (g i j) := Grid.ext rfl rfl (Array.map_ofFn ..)

theorem zipWith_ofFn (f : α → β → γ) (m n : Nat) (g : Fin m → Fin n → α) (g' : Fin m → Fin n → β)
    (h : (ofFn m n g).shape = (ofFn m n g').shape) :
    zipWith f (ofFn m n g) (ofFn m n g') h = ofFn m n fun i j => f (g i j) (g' i j) := by
  change ofFn m n (fun i j => f ((ofFn m n g).get i j) ((ofFn m n g').get i j)) = _
  simp only [get_ofFn]

theorem zipWith_eq_ofFn (f : α → β → γ) {m n : Nat} {a : Grid α} {b : Grid β}
    (h : a.shape = b.shape) {g : Fin m → Fin n → α} {g' : Fin m → Fin n → β} (ha : a = ofFn m n g)
    (hb : b = ofFn m n g') : zipWith f a b h = ofFn m n fun i j => f (g i j) (g' i j) := by
  subst ha hb
  exact zipWith_ofFn f m n g g' h

theorem map_zipWith {δ : Type} (p : γ → δ) (f : α → β → γ) {a : Grid α} {b : Grid β}
    (h : a.shape = b.shape) :
    (zipWith f a b h).map p = zipWith (fun x y => p (f x y)) a b h :=
  map_ofFn p a.rows a.cols _

theorem map_id (g : Grid α) : g.map id = g := Grid.ext rfl rfl (Array.map_id _)

theorem map_map (f : α → β) (f' : β → γ) (g : Grid α) : (g.map f).map f' = g.map (f' ∘ f) :=
  Grid.ext rfl rfl (Array.map_map ..)

/-- An operation that agrees with another one after a change of all values may be made before or
after that change. -/
theorem zipWith_map {α' β' γ' : Type} {p : α → α'} {q : β → β'} {r : γ → γ'} {f : α → β → γ}
    {f' : α' → β' → γ'} (hf : ∀ x y, f' (p x) (q y) = r (f x y)) {a : Grid α} {b : Grid β}
    (h : a.shape = b.shape) : zipWith f' (a.map p) (b.map q) h = (zipWith f a b h).map r := by
  have hcells : ∀ (i : Fin a.rows) (j : Fin a.cols),
      (zipWith f' (a.map p) (b.map q) h).get i j = ((zipWith f a b h).map r).get i j := by
    intro i j
    have hleft := get_zipWith f' (a.map p) (b.map q) h i j
    have hright := get_map r (zipWith f a b h) i j
    have ha := get_map p a i j
    have hb := get_map q b (i.cast (rows_eq h)) (j.cast (cols_eq h))
    calc (zipWith f' (a.map p) (b.map q) h).get i j
        = f' (p (a.get i j)) (q (b.get (i.cast (rows_eq h)) (j.cast (cols_eq h)))) := by
          rw [← ha, ← hb]
          exact hleft
      _ = r ((zipWith f a b h).get i j) := by rw [hf, get_zipWith]
      _ = ((zipWith f a b h).map r).get i j := hright.symm
  exact ext_get rfl rfl hcells

/-- Every position in the row-after-row order is a place of the table. -/
theorem get?_div_mod {g : Grid α} (p : Nat) :
    g.get? (p / g.cols) (p % g.cols) = g.cells[p]? := by
  have hplace : p / g.cols * g.cols + p % g.cols = p := by
    rw [Nat.mul_comm]
    exact Nat.div_add_mod p g.cols
  by_cases hin : p / g.cols < g.rows ∧ p % g.cols < g.cols
  · rw [get?_eq_getElem? hin.1 hin.2, hplace]
  · have hbeyond : g.cells.size ≤ p := by
      apply Nat.le_of_not_lt
      intro hp
      have hcell : p < g.rows * g.cols := g.size_eq ▸ hp
      exact hin ⟨(rowOf ⟨p, hcell⟩).isLt, (colOf ⟨p, hcell⟩).isLt⟩
    rw [get?_eq_none hin, Array.getElem?_eq_none hbeyond]

theorem toList_zipWith (f : α → β → γ) {a : Grid α} {b : Grid β} (h : a.shape = b.shape) :
    (zipWith f a b h).cells.toList = List.zipWith f a.cells.toList b.cells.toList := by
  refine List.ext_getElem? fun p => ?_
  have ha : a.get? (p / a.cols) (p % a.cols) = a.cells[p]? := get?_div_mod p
  have hb : b.get? (p / a.cols) (p % a.cols) = b.cells[p]? := by
    rw [cols_eq h]
    exact get?_div_mod p
  calc (zipWith f a b h).cells.toList[p]?
      = (zipWith f a b h).get? (p / a.cols) (p % a.cols) := by
        rw [Array.getElem?_toList]
        exact (get?_div_mod p).symm
    _ = Option.map₂ f a.cells[p]? b.cells[p]? := by rw [get?_zipWith_eq_map₂, ha, hb]
    _ = (List.zipWith f a.cells.toList b.cells.toList)[p]? := by
      rw [List.getElem?_zipWith, Array.getElem?_toList, Array.getElem?_toList]
      cases a.cells[p]? <;> cases b.cells[p]? <;> rfl

theorem mem_toList_iff {g : Grid α} {x : α} :
    x ∈ g.cells.toList ↔ ∃ i j, g.get? i j = some x := by
  constructor
  · intro hx
    obtain ⟨p, hp, rfl⟩ := List.mem_iff_getElem.mp hx
    refine ⟨p / g.cols, p % g.cols, ?_⟩
    rw [get?_div_mod, Array.getElem?_eq_getElem hp, Array.getElem_toList]
  · rintro ⟨i, j, hx⟩
    obtain ⟨hi, hj⟩ := lt_of_get? hx
    rw [get?_eq_getElem? hi hj] at hx
    exact Array.mem_toList_iff.mpr (Array.mem_of_getElem? hx)

/-- The table whose rows are the columns of another one. -/
def transpose (g : Grid α) : Grid α := ofFn g.cols g.rows fun i j => g.get j i

theorem get?_transpose (g : Grid α) (i j : Nat) : g.transpose.get? i j = g.get? j i := by
  by_cases h : j < g.rows ∧ i < g.cols
  · rw [get?_of_lt h.1 h.2]
    exact get?_ofFn _ ⟨i, h.2⟩ ⟨j, h.1⟩
  · have hbeside : ¬ (i < g.transpose.rows ∧ j < g.transpose.cols) := fun hin => h hin.symm
    rw [get?_eq_none h, get?_eq_none hbeside]

@[simp] theorem shape_transpose (g : Grid α) : g.transpose.shape = g.shape.swap := rfl

theorem shape_transpose_eq_iff {a : Grid α} {b : Grid β} :
    a.transpose.shape = b.transpose.shape ↔ a.shape = b.shape := by
  rw [shape_transpose, shape_transpose, Prod.swap_inj]

theorem transpose_ofFn (m n : Nat) (f : Fin m → Fin n → α) :
    (ofFn m n f).transpose = ofFn n m fun i j => f j i := by
  change ofFn n m (fun i j => (ofFn m n f).get j i) = _
  simp only [get_ofFn]

theorem transpose_map (f : α → β) (g : Grid α) : (g.map f).transpose = g.transpose.map f := by
  refine ext_get? rfl fun i j => ?_
  rw [get?_transpose, get?_map, get?_map, get?_transpose]

/-- Two tables combined after an exchange of the axes, the second with the first. -/
theorem zipWith_eq_transpose {f : α → β → γ} {k : β → α → γ} (hf : ∀ x y, f x y = k y x)
    {a : Grid β} {b : Grid α} {a' : Grid α} {b' : Grid β} (ha : a' = b.transpose)
    (hb : b' = a.transpose) (h : a.shape = b.shape) (h' : a'.shape = b'.shape) :
    zipWith f a' b' h' = (zipWith k a b h).transpose := by
  subst ha hb
  refine ext_get? (congrArg Prod.swap h.symm) fun i j => ?_
  rw [get?_transpose, get?_zipWith_eq_map₂, get?_zipWith_eq_map₂, get?_transpose, get?_transpose]
  exact Option.map₂_comm hf

end CenterOfMass.Grid
