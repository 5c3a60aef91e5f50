import CenterOfMass.Exchange.Input
import CenterOfMass.Numeric.Double
import CenterOfMass.Proofs.Analysis.Basic
import CenterOfMass.Proofs.Analysis.Presentation
import CenterOfMass.Proofs.Maps.Mask
import CenterOfMass.Proofs.Scan.Demands

namespace CenterOfMass

section Shift

variable {T : Type} [NatCast T] [BEq T] [Sub T] [Div T]

/-- Shifts along one axis: at every position with mass the weighted sum over the mass, less the
reference, and at one without mass the reference less itself. -/
structure Grid.CentersLess (shifts weighted mass : Grid T) (reference : T) : Prop where
  shape_eq : shifts.shape = weighted.shape
  of_mass : ∀ i j w m, weighted.get? i j = some w → mass.get? i j = some m →
    (m == Nat.cast 0) = false → shifts.get? i j = some (w / m - reference)
  of_no_mass : ∀ i j m, mass.get? i j = some m → (m == Nat.cast 0) = true →
    shifts.get? i j = some (reference - reference)

theorem Grid.centersLess_zipWith {weighted mass : Grid T} (h : weighted.shape = mass.shape)
    (reference : T) :
    (Grid.zipWith (shiftFrom reference) weighted mass h).CentersLess weighted mass reference where
  shape_eq := rfl
  of_mass i j w m hw hm hmass := by
    rw [get?_zipWith _ h hw hm, shiftFrom_of_mass reference w hmass]
  of_no_mass i j m hm hmass := by
    obtain ⟨w, hw⟩ := exists_get? h hm
    rw [get?_zipWith _ h hw hm, shiftFrom_of_no_mass reference w hmass]

end Shift

/-- The shifts of a field are the centers that the maps give, less one reference. Those of complex
maps are divided as complex numbers, and their parts are kept apart. -/
def ShiftField.ShiftsFrom {R : Type} [Sub R] [Add R] [Mul R] [Div R] [NatCast R] [BEq R]
    (refY refX : R) : ReductionMaps R → ShiftField R → Prop
  | .real m, .real f => f.y.CentersLess m.y m.sum refY ∧ f.x.CentersLess m.x m.sum refX
  | .complex m, .complex f => ∃ y x : Grid (Complex R),
    y.CentersLess m.y m.sum (.ofReal refY) ∧ x.CentersLess m.x m.sum (.ofReal refX) ∧
      f.yReal = y.map Complex.re ∧ f.xReal = x.map Complex.re ∧ f.yImag = y.map Complex.im ∧
      f.xImag = x.map Complex.im
  | _, _ => False

variable {R : Type} [Scalar R]

theorem ShiftField.shiftsFrom_of_ofMaps {refY refX : R} {maps : ReductionMaps R}
    {field : ShiftField R} (h : ofMaps maps refY refX = .ok field) :
    ShiftsFrom refY refX maps field := by
  cases maps with
  | real m =>
    obtain ⟨divergence, curl, -, -, rfl⟩ := ofMaps_real_inv h
    exact ⟨Grid.centersLess_zipWith m.y_shape refY, Grid.centersLess_zipWith m.x_shape refX⟩
  | complex m =>
    obtain rfl := Except.ok.inj h
    exact ⟨_, _, Grid.centersLess_zipWith m.y_shape _, Grid.centersLess_zipWith m.x_shape _, rfl,
      rfl, rfl, rfl⟩

namespace Analysis

/-- What an analysis is set up with stays, however its results are drawn. There are three masks, the
shifts are taken from the center of their disc, and of what is given later only a reducer can still
report a signal or a parameter. -/
structure SetUpWith (shape : DatasetShape) (p : Parameters R) (a : Analysis R) : Prop where
  signal_eq : shape.signal = [a.detector.height, a.detector.width]
  parameters_eq : a.parameters = p
  masks_eq : ∃ masks, a.masks = .ok masks ∧ masks.toList =
    [⟨.sum, a.detector, p.cx, p.cy, p.r⟩, ⟨.gradientY, a.detector, p.cx, p.cy, p.r⟩,
      ⟨.gradientX, a.detector, p.cx, p.cy, p.r⟩]
  shiftsFrom : ∀ maps field, a.compute maps = .ok field → field.ShiftsFrom p.cy p.cx maps
  compute : ∀ maps, FailsOnly Failure.Later (a.compute maps)
  results : ∀ maps, FailsOnly Failure.Later (a.results maps)
  resultsOfLists : ∀ {α : Type} [Element α R] (sum y x : Array α),
    FailsOnly Failure.Later (a.resultsOfLists sum y x)
  resultsOfStack : ∀ {α : Type} [Element α R] (stack : Stack α),
    FailsOnly Failure.Later (a.resultsOfStack stack)
  analyze : ∀ [Element R R] [Element (Complex R) R] (i : Input R),
    FailsOnly Failure.Later (i.analyze a)
  run : ∀ (reducer : Reducer R) masks, a.masks = .ok masks →
    FailsOnly (fun e => e.Later ∨ reducer masks p = .error e) (a.run reducer)

section Later

variable (a : Analysis R)

theorem failsOnly_results (maps : ReductionMaps R) : FailsOnly Failure.Later (a.results maps) := by
  apply FailsOnly.bind (a.failsOnly_compute maps)
  intro field
  exact (field.agree_resultSet a.settings a.settings).failsOnly

theorem failsOnly_resultsOfLists {α : Type} [Element α R] (sum y x : Array α) :
    FailsOnly Failure.Later (a.resultsOfLists sum y x) := by
  apply FailsOnly.bind (ReductionMaps.failsOnly_ofLists sum y x a.scan)
  intro maps
  exact a.failsOnly_results maps

theorem failsOnly_resultsOfStack {α : Type} [Element α R] (stack : Stack α) :
    FailsOnly Failure.Later (a.resultsOfStack stack) := by
  apply FailsOnly.bind (ReductionMaps.failsOnly_ofStack stack a.scan)
  intro maps
  exact a.failsOnly_results maps

theorem failsOnly_analyze [Element R R] [Element (Complex R) R] (i : Input R) :
    FailsOnly Failure.Later (i.analyze a) := by
  unfold Input.analyze
  cases i.maps with
  | real sum y x => exact a.failsOnly_resultsOfLists _ _ _
  | complex sum y x => exact a.failsOnly_resultsOfLists _ _ _

/-- A run with masks fails as its reducer does, or later. -/
theorem failsOnly_run (reducer : Reducer R) {masks : Masks R} (hmasks : a.masks = .ok masks) :
    FailsOnly (fun e => e.Later ∨ reducer masks a.parameters = .error e) (a.run reducer) := by
  have hreduce : FailsOnly (fun e => e.Later ∨ reducer masks a.parameters = .error e)
      (reducer masks a.parameters) := by
    intro e he
    exact .inr he
  unfold run
  rw [hmasks, ok_bind]
  apply hreduce.bind
  intro maps
  have hlater : FailsOnly Failure.Later (do
      let field ← a.compute maps
      return (field, ← field.resultSet a.settings)) := by
    apply FailsOnly.bind (a.failsOnly_compute maps)
    intro field
    apply FailsOnly.bind (field.agree_resultSet a.settings a.settings).failsOnly
    intro results
    exact .ok _
  exact hlater.mono fun e => .inl

end Later

variable {shape : DatasetShape} {user : UserParameters R} {a : Analysis R}

theorem demanded_ofDataset (shape : DatasetShape) (user : UserParameters R) :
    Demanded (shape.signalDemand :: shape.scanDemand :: (user.filled shape.frame).demands)
      (ofDataset shape user) := by
  apply Demanded.bind shape.demanded_detector
  intro detector hdetector
  rw [DatasetShape.frame_of_detector hdetector]
  apply Demanded.bind shape.demanded_scan
  intro scan _
  exact (user.demanded_resolve detector).bind_ok _

omit [Scalar R] in
/-- Settings replace the settings before and nothing else. -/
theorem foldl_withSettings (a : Analysis R) (cs : List (Settings R)) :
    ∃ settings, cs.foldl withSettings a = a.withSettings settings := by
  induction cs generalizing a with
  | nil => exact ⟨a.settings, rfl⟩
  | cons c cs ih =>
    obtain ⟨settings, hsettings⟩ := ih (a.withSettings c)
    exact ⟨settings, hsettings⟩

theorem setUpWith_of_ofDataset (h : ofDataset shape user = .ok a) (settings : Settings R) :
    (a.withSettings settings).SetUpWith shape (user.filled shape.frame) := by
  obtain ⟨rfl, hdetector, -, hparameters, -⟩ := ofDataset_eq_ok_iff.mp h
  rw [DatasetShape.frame_of_detector hdetector, (UserParameters.resolve_eq_ok_iff.mp hparameters).1]
  refine {
    signal_eq := DatasetShape.detector_eq_ok_iff.mp hdetector
    parameters_eq := rfl
    masks_eq := ⟨_, Masks.ofSignal_eq_ok hdetector _ _ _, rfl⟩
    shiftsFrom := ?_
    compute := failsOnly_compute _
    results := failsOnly_results _
    resultsOfLists := failsOnly_resultsOfLists _
    resultsOfStack := failsOnly_resultsOfStack _
    analyze := failsOnly_analyze _
    run := fun reducer masks hmasks => failsOnly_run _ reducer hmasks }
  intro maps field hfield
  exact ShiftField.shiftsFrom_of_ofMaps (ofMaps_of_compute hfield)

/-- Parameters from two layers and from the standard ones, one by one: when an analysis is set up
with them, what is reported first when it is not, and that all of it is settled then. -/
theorem ofDataset_parametersWith (i : Input R) (given : UserParameters R) :
    let p := given.inEffect i.parameters i.shape.frame
    let made := ofDataset i.shape (i.parametersWith given)
    Demanded (i.shape.signalDemand :: i.shape.scanDemand :: p.demands) made ∧
    (∀ hidden, given.SameBelow i.parameters hidden →
      ofDataset i.shape ({ i with parameters := hidden }.parametersWith given) = made) ∧
    ∀ a, made = .ok a → ∀ cs : List (Settings R),
      (cs.foldl withSettings a).SetUpWith i.shape p := by
  intro p made
  have hp : (i.parametersWith given).filled i.shape.frame = p := UserParameters.filled_override ..
  refine ⟨?_, ?_, ?_⟩
  · rw [← hp]
    exact demanded_ofDataset i.shape _
  · intro hidden hsame
    exact congrArg (ofDataset i.shape) hsame.override_eq.symm
  · intro a hmade cs
    obtain ⟨settings, hsettings⟩ := foldl_withSettings a cs
    rw [hsettings, ← hp]
    exact setUpWith_of_ofDataset hmade settings

/-- A scan of three frames of four rows and six columns, with a column for a center that is no
number. -/
def nowhereInput : Input Float := ⟨⟨[3], [4, 6]⟩, { cx := some (0 / 0) }, .real [] [] []⟩

/-- A column and a radius given anew. -/
def somewhere : UserParameters Float := { cx := some 1.5, r := some 2 }

theorem ofDataset_parametersWith_nowhere :
    (∃ a, ofDataset nowhereInput.shape (nowhereInput.parametersWith somewhere) = .ok a ∧
      ∀ settings settings', ((a.withSettings settings).withSettings settings').SetUpWith
        ⟨[3], [4, 6]⟩ ⟨1.5, 4 / 2, 2, false, 3, .float32⟩) ∧
    ofDataset nowhereInput.shape (nowhereInput.parametersWith { r := some (-1) }) =
      .error (.invalidParameter "cx" (.notFinite (Decimal.text (0 / 0)))) := by
  obtain ⟨hshown, -, hsetup⟩ := ofDataset_parametersWith nowhereInput somewhere
  obtain ⟨hbare, -, -⟩ := ofDataset_parametersWith nowhereInput { r := some (-1) }
  constructor
  · have hmet : ∀ d ∈ nowhereInput.shape.signalDemand :: nowhereInput.shape.scanDemand ::
        (somewhere.inEffect nowhereInput.parameters nowhereInput.shape.frame).demands, d.met := by
      simp only [Parameters.demands, List.forall_mem_cons]
      refine ⟨rfl, .inl rfl, by decide, by decide, by decide, by simp⟩
    obtain ⟨a, ha⟩ := hshown.ok_iff.mpr hmet
    exact ⟨a, ha, fun settings settings' => hsetup a ha [settings, settings']⟩
  · apply (hbare.error_iff _).mpr
    exact .inr ⟨rfl, .inr ⟨.inl rfl, .inl ⟨by decide, rfl⟩⟩⟩

end Analysis

end CenterOfMass
