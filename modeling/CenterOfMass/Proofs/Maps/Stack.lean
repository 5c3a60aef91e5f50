import CenterOfMass.Proofs.Grid
import CenterOfMass.Proofs.Maps.Reduction
import Mathlib.Algebra.Group.Nat.Defs

namespace CenterOfMass

namespace Stack

/-- Where an index stands in the order of places, the last axis running fastest; nowhere if it lies
beside an axis or has not one place for each of them. -/
def place? : List Nat → List Nat → Option Nat
  | [], [] => some 0
  | n :: axes, i :: index => if i < n then (place? axes index).map (i * axes.prod + ·) else none
  | _, _ => none

theorem place?_cons {n i p : Nat} {axes index : List Nat} (hi : i < n)
    (h : place? axes index = some p) :
    place? (n :: axes) (i :: index) = some (i * axes.prod + p) := by
  rw [place?, if_pos hi, h]
  rfl

theorem place?_cons_inv {n i q : Nat} {axes index : List Nat}
    (h : place? (n :: axes) (i :: index) = some q) :
    i < n ∧ ∃ p, place? axes index = some p ∧ i * axes.prod + p = q := by
  rw [place?] at h
  split at h
  · next hi => exact ⟨hi, Option.map_eq_some_iff.mp h⟩
  · cases h

theorem lt_prod_of_place? {axes index : List Nat} {p : Nat} (h : place? axes index = some p) :
    p < axes.prod := by
  induction axes generalizing index p with
  | nil =>
    cases index with
    | nil =>
      obtain rfl := Option.some.inj h
      exact Nat.zero_lt_one
    | cons => cases h
  | cons n axes ih =>
    cases index with
    | nil => cases h
    | cons i index =>
      obtain ⟨hi, q, hq, rfl⟩ := place?_cons_inv h
      calc i * axes.prod + q < i * axes.prod + axes.prod := Nat.add_lt_add_left (ih hq) _
        _ = (i + 1) * axes.prod := (Nat.succ_mul _ _).symm
        _ ≤ n * axes.prod := Nat.mul_le_mul_right _ hi

/-- Every place is that of an index. -/
theorem exists_place? {axes : List Nat} {p : Nat} (h : p < axes.prod) :
    ∃ index, place? axes index = some p := by
  induction axes generalizing p with
  | nil =>
    have hp : p = 0 := Nat.lt_one_iff.mp h
    subst hp
    exact ⟨[], rfl⟩
  | cons n axes ih =>
    have hpos : 0 < axes.prod := Nat.pos_of_mul_pos_left (Nat.lt_of_le_of_lt (Nat.zero_le p) h)
    obtain ⟨index, hindex⟩ := ih (Nat.mod_lt p hpos)
    have hi : p / axes.prod < n := (Nat.div_lt_iff_lt_mul hpos).mpr h
    refine ⟨p / axes.prod :: index, ?_⟩
    rw [place?_cons hi hindex, Nat.div_add_mod']

/-- A further axis behind the others multiplies the places. -/
theorem place?_concat {axes index : List Nat} {p n k : Nat} (h : place? axes index = some p)
    (hk : k < n) : place? (axes ++ [n]) (index ++ [k]) = some (p * n + k) := by
  induction axes generalizing index p with
  | nil =>
    cases index with
    | nil =>
      obtain rfl := Option.some.inj h
      have hlast : place? [n] [k] = some (k * 1 + 0) := place?_cons hk rfl
      rw [List.nil_append, List.nil_append, hlast]
      congr 1
      omega
    | cons => cases h
  | cons m axes ih =>
    cases index with
    | nil => cases h
    | cons i index =>
      obtain ⟨hi, q, hq, rfl⟩ := place?_cons_inv h
      rw [List.cons_append, List.cons_append, place?_cons hi (ih hq), List.prod_append]
      congr 1
      simp [Nat.add_mul, Nat.mul_assoc, Nat.add_assoc]

variable {α : Type}

/-- The value at an index. -/
def get? (s : Stack α) (index : List Nat) : Option α :=
  (place? s.shape index).bind fun p => s.cells[p]?

/-- The values at one place of the last axis, in the order of the other axes. -/
structure IsPlane (s : Stack α) (axes : List Nat) (k : Nat) (values : Array α) : Prop where
  size_eq : values.size = axes.prod
  value_eq : ∀ index p, place? axes index = some p → values[p]? = s.get? (index ++ [k])

section Planes

variable {s : Stack α} {axes : List Nat} (hshape : s.shape = axes ++ [3])

include hshape

theorem size_cells : s.cells.size = axes.prod * 3 := by
  have hprod : (axes ++ [3]).prod = axes.prod * 3 := by simp
  rw [← hprod, ← hshape]
  exact s.size_eq

theorem isPlane_plane (k : Fin 3) : s.IsPlane axes k (s.plane k) := by
  have hthird : s.cells.size / 3 = axes.prod := by
    rw [size_cells hshape, Nat.mul_div_cancel _ (by decide)]
  refine ⟨by rw [plane, Array.size_ofFn, hthird], fun index p hp => ?_⟩
  have hlt : p < s.cells.size / 3 := hthird ▸ lt_prod_of_place? hp
  have hcell : 3 * p + k < s.cells.size := by omega
  rw [get?, hshape, place?_concat hp k.isLt, Option.bind_some, plane, Array.getElem?_ofFn,
    dif_pos hlt, Nat.mul_comm p 3, Array.getElem?_eq_getElem hcell]

/-- There are no other values in a plane. -/
theorem IsPlane.eq_plane {k : Fin 3} {values : Array α} (h : s.IsPlane axes k values) :
    values = s.plane k := by
  have hplane := isPlane_plane hshape k
  refine Array.ext_getElem? fun p => ?_
  by_cases hp : p < axes.prod
  · obtain ⟨index, hindex⟩ := exists_place? hp
    rw [h.value_eq index p hindex, hplane.value_eq index p hindex]
  · rw [Array.getElem?_eq_none (by rw [h.size_eq]; omega),
      Array.getElem?_eq_none (by rw [hplane.size_eq]; omega)]

end Planes

/-- The buffer whose last axis runs over three lists of values. -/
def interleave (axes : List Nat) (lists : Fin 3 → Array α)
    (h : ∀ k, (lists k).size = axes.prod) : Stack α where
  shape := axes ++ [3]
  cells := Array.ofFn fun q : Fin (axes.prod * 3) =>
    have hrow : (Grid.rowOf q).val < (lists (Grid.colOf q)).size := by
      rw [h]
      exact (Grid.rowOf q).isLt
    (lists (Grid.colOf q))[(Grid.rowOf q).val]
  size_eq := by
    have hprod : (axes ++ [3]).prod = axes.prod * 3 := by simp
    rw [Array.size_ofFn, ← hprod]
    rfl

theorem isPlane_interleave (axes : List Nat) (lists : Fin 3 → Array α)
    (h : ∀ k, (lists k).size = axes.prod) (k : Fin 3) :
    (interleave axes lists h).IsPlane axes k (lists k) := by
  refine ⟨h k, fun index p hp => ?_⟩
  have hlt : p < axes.prod := lt_prod_of_place? hp
  have hcell : p * 3 + k < axes.prod * 3 := Grid.cell_lt ⟨p, hlt⟩ k
  have hplace : place? (interleave axes lists h).shape (index ++ [k.val]) = some (p * 3 + k) :=
    place?_concat hp k.isLt
  have hrow : Grid.rowOf (⟨_, hcell⟩ : Fin (axes.prod * 3)) = ⟨p, hlt⟩ := Grid.rowOf_cell ⟨p, hlt⟩ k
  have hcol : Grid.colOf (⟨_, hcell⟩ : Fin (axes.prod * 3)) = k := Grid.colOf_cell ⟨p, hlt⟩ k
  rw [get?, hplace, Option.bind_some, interleave, Array.getElem?_ofFn, dif_pos hcell]
  simp only
  rw [← Array.getElem?_eq_getElem, hrow, hcol]

end Stack

/-- Three maps over a scan hold three lists, row after row. -/
structure MapTriple.Holds {β : Type} (m : MapTriple β) (scan : Scan) (lists : Fin 3 → Array β) :
    Prop where
  shape_eq : m.sum.shape = scan.shape
  value_eq : ∀ i j, i < scan.height → j < scan.width →
    m.sum.get? i j = (lists 0)[i * scan.width + j]? ∧
      m.y.get? i j = (lists 1)[i * scan.width + j]? ∧
      m.x.get? i j = (lists 2)[i * scan.width + j]?

namespace ReductionMaps

variable {α R : Type} [Element α R]

/-- The maps of three lists, read as their element type says. -/
def Shows (maps : ReductionMaps R) (scan : Scan) (lists : Fin 3 → Array α) : Prop :=
  match (Element.reading : Reading α R), maps with
  | .real value, .real m => m.Holds scan fun k => (lists k).map value
  | .complex value, .complex m => m.Holds scan fun k => (lists k).map value
  | _, _ => False

/-- Lists of one value for every position fill the scan. -/
theorem exists_ofLists {scan : Scan} (hscan : scan.Indexable) {lists : Fin 3 → Array α}
    (hsize : ∀ k, (lists k).size = scan.height * scan.width) :
    ∃ maps : ReductionMaps R, ofLists (lists 0) (lists 1) (lists 2) scan = .ok maps ∧
      maps.Shows scan lists := by
  refine ⟨_, ofLists_eq_ok hscan (hsize 0) (hsize 1) (hsize 2), ?_⟩
  unfold Shows ofTriple
  cases (Element.reading : Reading α R) with
  | real value =>
    refine ⟨rfl, fun i j hi hj => ⟨?_, ?_, ?_⟩⟩
    · exact Grid.get?_eq_getElem? hi hj
    · exact Grid.get?_eq_getElem? hi hj
    · exact Grid.get?_eq_getElem? hi hj
  | complex value =>
    refine ⟨rfl, fun i j hi hj => ⟨?_, ?_, ?_⟩⟩
    · exact Grid.get?_eq_getElem? hi hj
    · exact Grid.get?_eq_getElem? hi hj
    · exact Grid.get?_eq_getElem? hi hj

section OfStack

variable {s : Stack α} {scan : Scan}

theorem ofStack_eq_ofLists {axes : List Nat} (hshape : s.shape = axes ++ [3])
    {lists : Fin 3 → Array α} (hlists : ∀ k : Fin 3, s.IsPlane axes k (lists k)) :
    (ofStack s scan : Except Failure (ReductionMaps R)) =
      ofLists (lists 0) (lists 1) (lists 2) scan := by
  have hlast : s.shape.getLast? = some 3 := by rw [hshape, List.getLast?_concat]
  rw [(hlists 0).eq_plane hshape, (hlists 1).eq_plane hshape, (hlists 2).eq_plane hshape, ofStack,
    hlast]
  rfl

/-- A buffer without axes, or with a last one that is not three long, is no stack of maps. -/
theorem ofStack_eq_error (h : ∀ axes, s.shape ≠ axes ++ [3]) :
    ∃ fault, (ofStack s scan : Except Failure (ReductionMaps R)) =
      .error (.shapeMismatch fault) := by
  unfold ofStack
  cases hlast : s.shape.getLast? with
  | none => exact ⟨_, rfl⟩
  | some last =>
    have hne : last ≠ 3 := by
      rintro rfl
      obtain ⟨axes, haxes⟩ := List.getLast?_eq_some_iff.mp hlast
      exact h axes haxes
    exact ⟨_, if_neg hne⟩

end OfStack

end ReductionMaps

end CenterOfMass
