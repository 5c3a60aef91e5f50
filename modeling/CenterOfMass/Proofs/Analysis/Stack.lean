import CenterOfMass.Proofs.Analysis.Basic
import CenterOfMass.Proofs.Maps.Stack

namespace CenterOfMass

section Maps

variable {α R : Type} [Element α R] {scan : Scan}

/-- A buffer whose leading axes do not have a place for each position of the scan is refused. -/
theorem ofStack_eq_error_of_prod_ne (hscan : scan.Indexable) {s : Stack α} {axes : List Nat}
    (hshape : s.shape = axes ++ [3]) (hprod : axes.prod ≠ scan.height * scan.width) :
    ∃ fault, (ReductionMaps.ofStack s scan : Except Failure (ReductionMaps R)) =
      .error (.shapeMismatch fault) := by
  have hsize : (s.plane 0).size ≠ scan.height * scan.width := by
    rw [(Stack.isPlane_plane hshape 0).size_eq]
    exact hprod
  have hfirst : scan.firstUnfit? [("sum", (s.plane 0).size), ("y", (s.plane 1).size),
      ("x", (s.plane 2).size)] = some ("sum", (s.plane 0).size) := by
    unfold Scan.firstUnfit?
    exact List.find?_cons_of_pos (by simpa using hsize)
  rw [ReductionMaps.ofStack_eq_ofLists hshape (Stack.isPlane_plane hshape)]
  exact ⟨_, ReductionMaps.ofLists_eq_error hscan hfirst⟩

theorem shapeChecked_ofStack (hscan : scan.Indexable) (s : Stack α) :
    ShapeChecked (ReductionMaps.ofStack s scan : Except Failure (ReductionMaps R))
      (∃ axes, s.shape = axes ++ [3] ∧ axes.prod = scan.height * scan.width) := by
  by_cases hlast : ∃ axes, s.shape = axes ++ [3]
  · obtain ⟨axes, hshape⟩ := hlast
    by_cases hprod : axes.prod = scan.height * scan.width
    · have hsize (k : Fin 3) : (s.plane k).size = scan.height * scan.width :=
        (Stack.isPlane_plane hshape k).size_eq.trans hprod
      obtain ⟨maps, hmaps, -⟩ := ReductionMaps.exists_ofLists (R := R) hscan hsize
      rw [ReductionMaps.ofStack_eq_ofLists hshape (Stack.isPlane_plane hshape)]
      exact .of_ok ⟨maps, hmaps⟩ ⟨axes, hshape, hprod⟩
    · refine .of_error (ofStack_eq_error_of_prod_ne hscan hshape hprod) ?_
      rintro ⟨axes', hshape', hprod'⟩
      obtain rfl := List.append_cancel_right (hshape'.symm.trans hshape)
      exact hprod hprod'
  · have hnone : ∀ axes, s.shape ≠ axes ++ [3] := fun axes h => hlast ⟨axes, h⟩
    refine .of_error (ReductionMaps.ofStack_eq_error hnone) ?_
    rintro ⟨axes, hshape, -⟩
    exact hnone axes hshape

end Maps

section Results

variable {α R : Type} [Element α R] [Scalar R]

theorem resultsOfStack_eq_resultsOfLists (a : Analysis R) {s : Stack α} {axes : List Nat}
    (hshape : s.shape = axes ++ [3]) {lists : Fin 3 → Array α}
    (hlists : ∀ k : Fin 3, s.IsPlane axes k (lists k)) :
    a.resultsOfStack s = a.resultsOfLists (lists 0) (lists 1) (lists 2) := by
  unfold Analysis.resultsOfStack Analysis.resultsOfLists
  rw [ReductionMaps.ofStack_eq_ofLists hshape hlists]

/-- One buffer or three lists are two ways to deliver the same maps: a buffer is taken exactly if
its last axis runs over three values at every position of the scan, and then it stands for the
lists of these values. Every three lists that fill the scan come out of such a buffer unchanged. -/
theorem ofStack_agrees_ofLists {scan : Scan} (hscan : scan.Indexable) :
    (∀ s : Stack α,
      ShapeChecked (ReductionMaps.ofStack s scan : Except Failure (ReductionMaps R))
        (∃ axes, s.shape = axes ++ [3] ∧ axes.prod = scan.height * scan.width) ∧
      ∀ axes, s.shape = axes ++ [3] →
        (∃ lists : Fin 3 → Array α, ∀ k : Fin 3, s.IsPlane axes k (lists k)) ∧
        ∀ lists : Fin 3 → Array α, (∀ k : Fin 3, s.IsPlane axes k (lists k)) →
          (ReductionMaps.ofStack s scan : Except Failure (ReductionMaps R)) =
              ReductionMaps.ofLists (lists 0) (lists 1) (lists 2) scan ∧
            ∀ a : Analysis R, a.resultsOfStack s =
              a.resultsOfLists (lists 0) (lists 1) (lists 2)) ∧
    ∀ (axes : List Nat) (lists : Fin 3 → Array α) (hsize : ∀ k, (lists k).size = axes.prod),
      axes.prod = scan.height * scan.width →
      ∃ maps : ReductionMaps R, maps.Shows scan lists ∧
        ReductionMaps.ofStack (.interleave axes lists hsize) scan = .ok maps ∧
        ReductionMaps.ofLists (lists 0) (lists 1) (lists 2) scan = .ok maps ∧
        ∀ a : Analysis R, a.resultsOfStack (.interleave axes lists hsize) =
          a.resultsOfLists (lists 0) (lists 1) (lists 2) := by
  refine ⟨fun s => ⟨shapeChecked_ofStack hscan s, fun axes hshape => ⟨?_, ?_⟩⟩, ?_⟩
  · exact ⟨fun k => s.plane k, Stack.isPlane_plane hshape⟩
  · intro lists hlists
    exact ⟨ReductionMaps.ofStack_eq_ofLists hshape hlists,
      fun a => resultsOfStack_eq_resultsOfLists a hshape hlists⟩
  · intro axes lists hsize hprod
    have hplanes := Stack.isPlane_interleave axes lists hsize
    have hfill (k : Fin 3) : (lists k).size = scan.height * scan.width := (hsize k).trans hprod
    obtain ⟨maps, hmaps, hshows⟩ := ReductionMaps.exists_ofLists (R := R) hscan hfill
    refine ⟨maps, hshows, ?_, hmaps, ?_⟩
    · rw [ReductionMaps.ofStack_eq_ofLists rfl hplanes, hmaps]
    · intro a
      exact resultsOfStack_eq_resultsOfLists a rfl hplanes

end Results

/-- Three lists of two values each. -/
def threePairs : Fin 3 → Array Float32
  | 0 => #[1, 2]
  | 1 => #[3, 4]
  | 2 => #[5, 6]

theorem size_threePairs (k : Fin 3) : (threePairs k).size = [2, 1].prod := by
  revert k
  decide

theorem ofStack_agrees_ofLists_pairs :
    Scan.Indexable ⟨1, 2⟩ ∧
      (Stack.interleave [2, 1] threePairs size_threePairs).cells = #[1, 3, 5, 2, 4, 6] ∧
      ∃ maps : ReductionMaps Float, maps.Shows ⟨1, 2⟩ threePairs ∧
        ReductionMaps.ofStack (.interleave [2, 1] threePairs size_threePairs) ⟨1, 2⟩ = .ok maps ∧
        ReductionMaps.ofLists #[(1 : Float32), 2] #[3, 4] #[5, 6] ⟨1, 2⟩ = .ok maps := by
  have hscan : Scan.Indexable ⟨1, 2⟩ := by
    unfold Scan.Indexable
    decide
  obtain ⟨maps, hshows, hstack, hlists, -⟩ :=
    (ofStack_agrees_ofLists hscan (R := Float)).2 [2, 1] threePairs size_threePairs rfl
  exact ⟨hscan, rfl, maps, hshows, hstack, hlists⟩

end CenterOfMass
