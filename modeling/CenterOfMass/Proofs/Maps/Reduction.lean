import CenterOfMass.Maps.Reduction
import CenterOfMass.Proofs.Outcome

namespace CenterOfMass

theorem Grid.ofCells?_eq_some {α : Type} {m n : Nat} {cells : Array α}
    (h : cells.size = m * n) : Grid.ofCells? m n cells = some ⟨m, n, cells, h⟩ := dif_pos h

theorem Grid.ofCells?_eq_none {α : Type} {m n : Nat} {cells : Array α}
    (h : cells.size ≠ m * n) : Grid.ofCells? m n cells = none := dif_neg h

/-- The sides of a scan, those that are zero left out, have a product below `2⁶³`. -/
def Scan.Indexable (s : Scan) : Prop := max s.height 1 * max s.width 1 < Word.half

namespace Scan

variable {s : Scan}

theorem mul_le_max_mul_max (s : Scan) :
    s.height * s.width ≤ max s.height 1 * max s.width 1 :=
  Nat.mul_le_mul (Nat.le_max_left _ _) (Nat.le_max_left _ _)

theorem isHeld_sides (h : s.Indexable) : Word.isHeld [s.height, s.width] 1 = true := by
  have hle := s.mul_le_max_mul_max
  unfold Indexable at h
  simp only [Word.isHeld, List.foldr_cons, List.foldr_nil, Nat.mul_one, Bool.and_eq_true,
    decide_eq_true_eq, Word.memoryLimit]
  omega

variable {α : Type} {name : String} {values : Array α}

theorem fill_eq_ok (h : s.Indexable) (hsize : values.size = s.height * s.width) :
    s.fill name values = .ok ⟨s.height, s.width, values, hsize⟩ := by
  unfold fill
  simp only [isHeld_sides h, if_true]
  rw [Grid.ofCells?_eq_some hsize]

theorem fill_eq_error (hsize : values.size ≠ s.height * s.width) :
    s.fill name values = .error (.shapeMismatch (.notFilled name values.size s.shape)) := by
  unfold fill
  simp only [Grid.ofCells?_eq_none hsize, ite_self]

theorem failsOnly_fill (s : Scan) (name : String) (values : Array α) :
    FailsOnly Failure.Later (s.fill name values) := by
  unfold fill
  dsimp only
  split
  · exact .ok _
  · exact .error trivial

end Scan

theorem MapTriple.failsOnly_ofGrids {α : Type}
    (fault : Nat × Nat → Nat × Nat → Nat × Nat → ShapeFault) (sum y x : Grid α) :
    FailsOnly Failure.Later (ofGrids fault sum y x) := by
  unfold ofGrids
  split
  · exact .ok _
  · exact .error trivial

/-- Whether stored values are read as complex numbers. -/
def Reading.isComplex {α R : Type} : Reading α R → Bool
  | .real _ => false
  | .complex _ => true

/-- The first of three lists under their names that does not have a value for every position. -/
def Scan.firstUnfit? (s : Scan) (lists : List (String × Nat)) : Option (String × Nat) :=
  lists.find? fun list => list.2 ≠ s.height * s.width

namespace ReductionMaps

variable {α R : Type} [Element α R]

theorem shape_ofTriple (maps : MapTriple α) :
    (ofTriple maps : ReductionMaps R).shape = maps.sum.shape := by
  unfold ofTriple
  split <;> rfl

theorem isComplex_ofTriple (maps : MapTriple α) :
    (ofTriple maps : ReductionMaps R).isComplex = (Element.reading : Reading α R).isComplex := by
  unfold ofTriple
  cases (Element.reading : Reading α R) <;> rfl

variable {s : Scan} {sum y x : Array α}

theorem ofLists_eq_ok (h : s.Indexable) (hsum : sum.size = s.height * s.width)
    (hy : y.size = s.height * s.width) (hx : x.size = s.height * s.width) :
    (ofLists sum y x s : Except Failure (ReductionMaps R)) =
      .ok (ofTriple ⟨⟨_, _, sum, hsum⟩, ⟨_, _, y, hy⟩, ⟨_, _, x, hx⟩, rfl, rfl⟩) := by
  let maps : MapTriple α := ⟨⟨_, _, sum, hsum⟩, ⟨_, _, y, hy⟩, ⟨_, _, x, hx⟩, rfl, rfl⟩
  have hmaps : MapTriple.ofGrids .maps maps.sum maps.y maps.x = .ok maps :=
    MapTriple.ofGrids_ok .maps maps
  unfold ofLists
  rw [Scan.fill_eq_ok h hsum, ok_bind, Scan.fill_eq_ok h hy, ok_bind, Scan.fill_eq_ok h hx,
    ok_bind]
  exact congrArg (Except.map fun m => (ofTriple m : ReductionMaps R)) hmaps

theorem ofLists_eq_error (h : s.Indexable) {name : String} {size : Nat}
    (hfirst : s.firstUnfit? [("sum", sum.size), ("y", y.size), ("x", x.size)] =
      some (name, size)) :
    (ofLists sum y x s : Except Failure (ReductionMaps R)) =
      .error (.shapeMismatch (.notFilled name size s.shape)) := by
  unfold ofLists
  unfold Scan.firstUnfit? at hfirst
  by_cases hsum : sum.size = s.height * s.width
  · rw [Scan.fill_eq_ok h hsum, ok_bind]
    by_cases hy : y.size = s.height * s.width
    · rw [Scan.fill_eq_ok h hy, ok_bind]
      by_cases hx : x.size = s.height * s.width
      · simp [hsum, hy, hx] at hfirst
      · rw [Scan.fill_eq_error hx]
        obtain ⟨rfl, rfl⟩ : "x" = name ∧ x.size = size := by simpa [hsum, hy, hx] using hfirst
        rfl
    · rw [Scan.fill_eq_error hy]
      obtain ⟨rfl, rfl⟩ : "y" = name ∧ y.size = size := by simpa [hsum, hy] using hfirst
      rfl
  · rw [Scan.fill_eq_error hsum]
    obtain ⟨rfl, rfl⟩ : "sum" = name ∧ sum.size = size := by simpa [hsum] using hfirst
    rfl

theorem failsOnly_ofLists (sum y x : Array α) (s : Scan) :
    FailsOnly Failure.Later (ofLists sum y x s : Except Failure (ReductionMaps R)) := by
  apply FailsOnly.bind (s.failsOnly_fill "sum" sum)
  intro sum
  apply FailsOnly.bind (s.failsOnly_fill "y" y)
  intro y
  apply FailsOnly.bind (s.failsOnly_fill "x" x)
  intro x
  exact (MapTriple.failsOnly_ofGrids .maps sum y x).map ofTriple

theorem failsOnly_ofStack (stack : Stack α) (s : Scan) :
    FailsOnly Failure.Later (ofStack stack s : Except Failure (ReductionMaps R)) := by
  unfold ofStack
  split
  · exact .error trivial
  · split
    · exact failsOnly_ofLists _ _ _ s
    · exact .error trivial

end ReductionMaps

end CenterOfMass
