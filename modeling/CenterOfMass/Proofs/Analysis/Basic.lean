import CenterOfMass.Analysis.Basic
import CenterOfMass.Maps.Element
import CenterOfMass.Proofs.Analysis.Package
import CenterOfMass.Proofs.Maps.Reduction

namespace CenterOfMass

/-- A step that succeeds under a condition and reports shapes that do not fit otherwise. -/
def ShapeChecked {α : Type} (outcome : Except Failure α) (condition : Prop) : Prop :=
  ((∃ a, outcome = .ok a) ↔ condition) ∧
    ∀ e, outcome = .error e → ∃ fault, e = .shapeMismatch fault

namespace ShapeChecked

variable {α : Type} {outcome : Except Failure α} {condition : Prop}

theorem of_ok (h : ∃ a, outcome = .ok a) (hc : condition) : ShapeChecked outcome condition := by
  obtain ⟨a, rfl⟩ := h
  refine ⟨⟨fun _ => hc, fun _ => ⟨a, rfl⟩⟩, fun e he => ?_⟩
  cases he

theorem of_error (h : ∃ fault, outcome = .error (.shapeMismatch fault)) (hc : ¬ condition) :
    ShapeChecked outcome condition := by
  obtain ⟨fault, rfl⟩ := h
  refine ⟨⟨fun hok => ?_, fun hcond => absurd hcond hc⟩, fun e he => ?_⟩
  · obtain ⟨a, ha⟩ := hok
    cases ha
  · exact ⟨fault, (Except.error.inj he).symm⟩

end ShapeChecked

theorem Scan.firstUnfit?_eq_none_iff {s : Scan} {lists : List (String × Nat)} :
    s.firstUnfit? lists = none ↔ ∀ list ∈ lists, list.2 = s.height * s.width := by
  simp [firstUnfit?]

namespace Analysis

variable {R : Type} [Scalar R] {a : Analysis R}

/-- An analysis is made of the data set's own axes and of the parameters it resolves. -/
theorem ofDataset_eq_ok_iff {shape : DatasetShape} {user : UserParameters R} :
    ofDataset shape user = .ok a ↔ a.shape = shape ∧ shape.detector = .ok a.detector ∧
      shape.scan = .ok a.scan ∧ user.resolve a.detector = .ok a.parameters ∧
      a.settings = .standard := by
  unfold ofDataset
  constructor
  · intro h
    obtain ⟨detector, hdetector, h⟩ := bind_eq_ok_iff.mp h
    obtain ⟨scan, hscan, h⟩ := bind_eq_ok_iff.mp h
    obtain ⟨parameters, hparameters, h⟩ := bind_eq_ok_iff.mp h
    obtain rfl := Except.ok.inj h
    exact ⟨rfl, hdetector, hscan, hparameters, rfl⟩
  · obtain ⟨shape', detector, scan, parameters, settings⟩ := a
    rintro ⟨rfl, hdetector, hscan, hparameters, rfl⟩
    rw [hdetector, ok_bind, hscan, ok_bind, hparameters]
    rfl

/-- A scan has derivatives both ways, or there is no need of them. -/
def Resolved (a : Analysis R) (isComplex : Bool) : Prop :=
  isComplex = true ∨ 2 ≤ a.scan.height ∧ 2 ≤ a.scan.width

theorem compute_eq_ofMaps {maps : ReductionMaps R} (hshape : maps.shape = a.scan.shape) :
    a.compute maps = ShiftField.ofMaps maps a.parameters.cy a.parameters.cx :=
  if_neg (not_not.mpr hshape)

theorem ofMaps_of_compute {maps : ReductionMaps R} {field : ShiftField R}
    (h : a.compute maps = .ok field) :
    ShiftField.ofMaps maps a.parameters.cy a.parameters.cx = .ok field := by
  unfold compute at h
  split at h
  · cases h
  · exact h

/-- A field that has been computed can be drawn and has all its results. -/
theorem resultSet_of_ofMaps {maps : ReductionMaps R} {field : ShiftField R}
    (h : ShiftField.ofMaps maps a.parameters.cy a.parameters.cx = .ok field)
    (hmemory : 4 * (maps.shape.1 * maps.shape.2) < Word.memoryLimit) (settings : Settings R) :
    ∃ s, field.resultSet settings = .ok s ∧ s.keys = field.keys := by
  have hgrids := ShiftField.shape_of_mem_grids _ _ h
  have hdraw : ∀ g ∈ field.grids, g.Drawable := by
    intro g hg
    rw [← hgrids g hg] at hmemory
    exact hmemory
  obtain ⟨s, hs, hnamed, -⟩ := ShiftField.resultSet_eq_ok settings hgrids hdraw
  exact ⟨s, hs, ShiftField.map_key_of_named hnamed⟩

theorem results_eq_ok {maps : ReductionMaps R} (hshape : maps.shape = a.scan.shape)
    (hresolved : a.Resolved maps.isComplex)
    (hmemory : 4 * (maps.shape.1 * maps.shape.2) < Word.memoryLimit) :
    ∃ s, a.results maps = .ok s := by
  have hlong : maps.isComplex ∨ 2 ≤ maps.shape.1 ∧ 2 ≤ maps.shape.2 := by
    rw [hshape]
    exact hresolved
  obtain ⟨field, hfield, -⟩ := ShiftField.ofMaps_eq_ok a.parameters.cy a.parameters.cx hlong
  obtain ⟨s, hs, -⟩ := resultSet_of_ofMaps hfield hmemory a.settings
  refine ⟨s, ?_⟩
  unfold results
  rw [compute_eq_ofMaps hshape, hfield, ok_bind, hs]

theorem results_eq_error {maps : ReductionMaps R}
    (h : ¬ (maps.shape = a.scan.shape ∧ a.Resolved maps.isComplex)) :
    ∃ fault, a.results maps = .error (.shapeMismatch fault) := by
  unfold results
  by_cases hshape : maps.shape = a.scan.shape
  · have hshort : ¬ (maps.isComplex ∨ 2 ≤ maps.shape.1 ∧ 2 ≤ maps.shape.2) := by
      intro hlong
      rw [hshape] at hlong
      exact h ⟨hshape, hlong⟩
    obtain ⟨fault, hfault⟩ :=
      ShiftField.ofMaps_eq_error a.parameters.cy a.parameters.cx hshort
    rw [compute_eq_ofMaps hshape, hfault]
    exact ⟨fault, rfl⟩
  · have hother : a.compute maps =
        .error (.shapeMismatch (.otherScan maps.shape a.scan.shape)) := if_pos hshape
    rw [hother]
    exact ⟨_, rfl⟩

theorem shapeChecked_results {maps : ReductionMaps R}
    (hmemory : 4 * (maps.shape.1 * maps.shape.2) < Word.memoryLimit) :
    ShapeChecked (a.results maps)
      (maps.shape = a.scan.shape ∧ a.Resolved maps.isComplex) := by
  by_cases h : maps.shape = a.scan.shape ∧ a.Resolved maps.isComplex
  · exact .of_ok (results_eq_ok h.1 h.2 hmemory) h
  · exact .of_error (results_eq_error h) h

/-- A run on real maps with the sides of the scan gives their shifts and all results. -/
theorem run_eq_ok {reducer : Reducer R} {masks : Masks R} {m : MapTriple R}
    (hmasks : a.masks = .ok masks) (hmaps : reducer masks a.parameters = .ok (.real m))
    (hshape : m.sum.shape = a.scan.shape) (hrows : 2 ≤ a.scan.height) (hcols : 2 ≤ a.scan.width)
    (hmemory : 4 * (a.scan.height * a.scan.width) < Word.memoryLimit) :
    let v := m.shifts a.parameters.cy a.parameters.cx
    ∃ divergence curl results, a.run reducer =
      .ok (.real ⟨v.x, v.y, v.magnitude, divergence, curl⟩, results) := by
  intro v
  obtain ⟨hheight, hwidth⟩ : m.sum.rows = a.scan.height ∧ m.sum.cols = a.scan.width :=
    Prod.mk.inj hshape
  obtain ⟨divergence, curl, -, -, hfield⟩ := ShiftField.ofMaps_real_eq_ok a.parameters.cy
    a.parameters.cx (hrows.trans_eq hheight.symm) (hcols.trans_eq hwidth.symm)
  have hscan : (ReductionMaps.real m).shape = a.scan.shape := hshape
  obtain ⟨s, hs, -⟩ := resultSet_of_ofMaps hfield (by rw [hscan]; exact hmemory) a.settings
  refine ⟨divergence, curl, s, ?_⟩
  unfold run
  rw [hmasks, ok_bind, hmaps, ok_bind, compute_eq_ofMaps hscan, hfield, ok_bind, hs]
  rfl

variable {α : Type} [Element α R] {sum y x : Array α}

theorem resultsOfLists_eq_error (hscan : a.scan.Indexable) {name : String} {size : Nat}
    (hfirst : a.scan.firstUnfit? [("sum", sum.size), ("y", y.size), ("x", x.size)] =
      some (name, size)) :
    a.resultsOfLists sum y x = .error (.shapeMismatch (.notFilled name size a.scan.shape)) := by
  unfold resultsOfLists
  rw [ReductionMaps.ofLists_eq_error hscan hfirst]
  rfl

theorem shapeChecked_resultsOfLists (hscan : a.scan.Indexable)
    (hmemory : 4 * sum.size < Word.memoryLimit) :
    ShapeChecked (a.resultsOfLists sum y x)
      ((sum.size = a.scan.height * a.scan.width ∧ y.size = a.scan.height * a.scan.width ∧
          x.size = a.scan.height * a.scan.width) ∧
        a.Resolved (Element.reading : Reading α R).isComplex) := by
  by_cases hfill : sum.size = a.scan.height * a.scan.width ∧
      y.size = a.scan.height * a.scan.width ∧ x.size = a.scan.height * a.scan.width
  · obtain ⟨hsum, hy, hx⟩ := hfill
    let maps : ReductionMaps R :=
      .ofTriple ⟨⟨_, _, sum, hsum⟩, ⟨_, _, y, hy⟩, ⟨_, _, x, hx⟩, rfl, rfl⟩
    have hlists : a.resultsOfLists sum y x = a.results maps := by
      unfold resultsOfLists
      rw [ReductionMaps.ofLists_eq_ok hscan hsum hy hx, ok_bind]
    have hshape : maps.shape = a.scan.shape := ReductionMaps.shape_ofTriple _
    have hkind : maps.isComplex = (Element.reading : Reading α R).isComplex :=
      ReductionMaps.isComplex_ofTriple _
    have hmaps : 4 * (maps.shape.1 * maps.shape.2) < Word.memoryLimit := by
      rw [hsum] at hmemory
      rw [hshape]
      exact hmemory
    have hchecked := shapeChecked_results (a := a) hmaps
    rw [hlists, ← hkind]
    simpa [hshape, hsum, hy, hx] using hchecked
  · have hsome : a.scan.firstUnfit? [("sum", sum.size), ("y", y.size), ("x", x.size)] ≠ none := by
      intro hnone
      apply hfill
      simpa using Scan.firstUnfit?_eq_none_iff.mp hnone
    obtain ⟨⟨name, size⟩, hfirst⟩ := Option.ne_none_iff_exists'.mp hsome
    exact .of_error ⟨_, resultsOfLists_eq_error hscan hfirst⟩ fun h => hfill h.1

/-- When the analysis fails, and how: flat lists of any element type have to fill the scan, maps
have to have its shape, and the scan of real values needs two rows and two columns. No other kind
of failure is met, and the first list that does not fit is the one reported. Memory holds less
than `2⁶³` bytes, and there are four bytes at least to a value. -/
theorem shapeChecked_analysis (hscan : a.scan.Indexable) :
    (∀ {α : Type} [Element α R] (sum y x : Array α), 8 * sum.size < Word.memoryLimit →
      ShapeChecked (a.resultsOfLists sum y x)
        ((sum.size = a.scan.height * a.scan.width ∧ y.size = a.scan.height * a.scan.width ∧
            x.size = a.scan.height * a.scan.width) ∧
          ((Element.reading : Reading α R).isComplex ∨
            2 ≤ a.scan.height ∧ 2 ≤ a.scan.width)) ∧
      ∀ name size,
        [("sum", sum.size), ("y", y.size), ("x", x.size)].find?
            (fun list => list.2 ≠ a.scan.height * a.scan.width) = some (name, size) →
          a.resultsOfLists sum y x =
            .error (.shapeMismatch (.notFilled name size a.scan.shape))) ∧
    ∀ maps : ReductionMaps R, 8 * (maps.shape.1 * maps.shape.2) < Word.memoryLimit →
      ShapeChecked (a.results maps)
        (maps.shape = (a.scan.height, a.scan.width) ∧
          (maps.isComplex ∨ 2 ≤ a.scan.height ∧ 2 ≤ a.scan.width)) := by
  refine ⟨?_, ?_⟩
  · intro α _ sum y x hmemory
    exact ⟨shapeChecked_resultsOfLists hscan (by omega),
      fun _ _ hfirst => resultsOfLists_eq_error hscan hfirst⟩
  · intro maps hmemory
    exact shapeChecked_results (by omega)

/-- An analysis of frames of four pixels in double precision. -/
def ofSides (height width : Nat) : Analysis Float :=
  ⟨⟨[height, width], [2, 2]⟩, ⟨2, 2⟩, ⟨height, width⟩, ⟨1, 1, 2, false, 3, .float32⟩, .standard⟩

theorem shapeChecked_analysis_square :
    (ofSides 2 2).scan.Indexable ∧
      (∃ s, (ofSides 2 2).resultsOfLists #[4.0, 4, 4, 4] #[1.0, 2, 3, 4] #[0.0, 0, 1, 1] = .ok s) ∧
      (ofSides 2 2).resultsOfLists #[4.0, 4, 4, 4] #[1.0, 2, 3] #[0.0] =
        .error (.shapeMismatch (.notFilled "y" 3 (2, 2))) ∧
      ∃ s, (ofSides 2 2).results (.real ⟨.ofFn 2 2 fun _ _ => 1, .ofFn 2 2 fun _ _ => 0,
        .ofFn 2 2 fun _ _ => 0, rfl, rfl⟩) = .ok s := by
  have hscan : (ofSides 2 2).scan.Indexable := by
    unfold Scan.Indexable
    decide
  obtain ⟨hlists, hmaps⟩ := shapeChecked_analysis hscan
  refine ⟨hscan, ?_, ?_, ?_⟩
  · exact (hlists #[4.0, 4, 4, 4] #[1.0, 2, 3, 4] #[0.0, 0, 1, 1] (by decide)).1.1.mpr
      ⟨⟨rfl, rfl, rfl⟩, .inr ⟨by decide, by decide⟩⟩
  · exact (hlists #[4.0, 4, 4, 4] #[1.0, 2, 3] #[0.0] (by decide)).2 "y" 3 rfl
  · exact (hmaps _ (by decide)).1.mpr ⟨rfl, .inr ⟨by decide, by decide⟩⟩

end Analysis

end CenterOfMass
