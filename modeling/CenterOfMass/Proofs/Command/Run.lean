import CenterOfMass.Command.Run
import CenterOfMass.Proofs.Analysis.Basic
import CenterOfMass.Proofs.Exchange.Summary
import CenterOfMass.Proofs.Export

namespace CenterOfMass

namespace ShiftField

def realListing : List (String × Bool) :=
  [("field", false), ("magnitude", true), ("divergence", true), ("curl", true), ("x", true),
    ("y", true)]

def complexListing : List (String × Bool) :=
  [("x_real", true), ("y_real", true), ("x_imag", true), ("y_imag", true)]

/-- The keys of a field's results in order, with whether the values are handed out. -/
def listing {R : Type} : ShiftField R → List (String × Bool)
  | .real _ => realListing
  | .complex _ => complexListing

theorem isEntryName_of_listing {R : Type} (field : ShiftField R) :
    ∀ name ∈ fileNames field.listing, IsEntryName name := by
  have hreal : ∀ name ∈ fileNames realListing, IsEntryName name := by decide
  have hcomplex : ∀ name ∈ fileNames complexListing, IsEntryName name := by decide
  cases field with
  | real => exact hreal
  | complex => exact hcomplex

theorem nodup_fileNames {R : Type} (field : ShiftField R) :
    (fileNames field.listing ++ [summaryName]).Nodup := by
  have hreal : (fileNames realListing ++ [summaryName]).Nodup := by decide
  have hcomplex : (fileNames complexListing ++ [summaryName]).Nodup := by decide
  cases field with
  | real => exact hreal
  | complex => exact hcomplex

/-- The listing of a field with the values under each key. -/
def described {R : Type} (field : ShiftField R) : List ((String × Bool) × RawData R) :=
  field.listing.zip (field.named.map Prod.snd)

theorem map_fst_described {R : Type} (field : ShiftField R) :
    field.described.map Prod.fst = field.listing := by
  cases field <;> rfl

variable {R : Type} [Scalar R] {settings : Settings R} {key title description : String}
  {e : Entry R}

theorem listed_ofMap {map : Grid R} (h : Entry.ofMap settings key title description map = .ok e) :
    (e.listed, e.raw) = ((key, true), .single map) := by
  obtain ⟨image, -, h⟩ := bind_eq_ok_iff.mp h
  obtain rfl := Except.ok.inj h
  rfl

theorem listed_ofVectors {x y : Grid R}
    (h : Entry.ofVectors settings key title description x y = .ok e) :
    (e.listed, e.raw) = ((key, false), .pair x y) := by
  obtain ⟨image, -, h⟩ := bind_eq_ok_iff.mp h
  obtain rfl := Except.ok.inj h
  rfl

theorem described_entries {field : ShiftField R} {entries : List (Entry R)}
    (h : field.entries settings = .ok entries) :
    entries.map (fun e => (e.listed, e.raw)) = field.described := by
  cases field with
  | real f =>
    obtain ⟨vectors, hvectors, h⟩ := bind_eq_ok_iff.mp h
    obtain ⟨magnitude, hmagnitude, h⟩ := bind_eq_ok_iff.mp h
    obtain ⟨divergence, hdivergence, h⟩ := bind_eq_ok_iff.mp h
    obtain ⟨curl, hcurl, h⟩ := bind_eq_ok_iff.mp h
    obtain ⟨x, hx, h⟩ := bind_eq_ok_iff.mp h
    obtain ⟨y, hy, h⟩ := bind_eq_ok_iff.mp h
    obtain rfl := Except.ok.inj h
    simp only [List.map_cons, List.map_nil, listed_ofVectors hvectors, listed_ofMap hmagnitude,
      listed_ofMap hdivergence, listed_ofMap hcurl, listed_ofMap hx, listed_ofMap hy]
    rfl
  | complex f =>
    obtain ⟨xReal, hxReal, h⟩ := bind_eq_ok_iff.mp h
    obtain ⟨yReal, hyReal, h⟩ := bind_eq_ok_iff.mp h
    obtain ⟨xImag, hxImag, h⟩ := bind_eq_ok_iff.mp h
    obtain ⟨yImag, hyImag, h⟩ := bind_eq_ok_iff.mp h
    obtain rfl := Except.ok.inj h
    simp only [List.map_cons, List.map_nil, listed_ofMap hxReal, listed_ofMap hyReal,
      listed_ofMap hxImag, listed_ofMap hyImag]
    rfl

variable {field : ShiftField R} {set : ResultSet R}

theorem listed_resultSet (h : field.resultSet settings = .ok set) :
    set.entries.map Entry.listed = field.listing := by
  rw [← map_fst_described, ← described_entries (resultSet_eq_ok_iff.mp h), List.map_map]
  rfl

/-- Only the values of two components are not handed out. -/
theorem single_of_downloadable (h : field.resultSet settings = .ok set)
    (he : e ∈ set.downloadable) : ∃ map, e.raw = .single map := by
  have hall : ∀ p ∈ field.described, p.1.2 = true → ∃ map, p.2 = .single map := by
    cases field <;> simp [described, listing, realListing, complexListing, named]
  obtain ⟨hmem, hin⟩ := List.mem_filter.mp he
  apply hall (e.listed, e.raw) _ hin
  rw [← described_entries (resultSet_eq_ok_iff.mp h)]
  exact List.mem_map_of_mem hmem

end ShiftField

/-- The results of a field have files of their own, so that each is there once all are written. -/
theorem received_of_resultSet {field : ShiftField Float} {settings : Settings Float}
    {set : ResultSet Float} {parameters : Parameters Float} {summary : Summary Float}
    {t t' : FileTree} {directory : String} {encoder : Png.Encoder}
    (hset : field.resultSet settings = .ok set) (hdirectory : directory ≠ "")
    (h : (Export.results FileTree.system set parameters directory encoder).run.run t =
      (.ok summary, t')) :
    summary = ⟨parameters, set.entries.map .ofEntry⟩ ∧ ∃ images,
      set.entries.mapM (fun e => encoder.write e.key e.image) = .ok images ∧
      (fileNames (set.entries.map Entry.listed) ++ [summaryName]).Nodup ∧
      t.Received t' (t.locate directory) (Export.files set.entries images summary) := by
  have hnames := field.isEntryName_of_listing
  have hnodup := field.nodup_fileNames
  rw [← ShiftField.listed_resultSet hset] at hnames hnodup
  obtain ⟨hsummary, images, himages, hreceived⟩ := received_results hnames hnodup hdirectory h
  exact ⟨hsummary, images, himages, hnodup, hreceived⟩

namespace Command

theorem exists_maps_of_analyze {input : Input Float} {analysis : Analysis Float}
    {set : ResultSet Float} (h : input.analyze analysis = .ok set) :
    ∃ maps, analysis.results maps = .ok set := by
  unfold Input.analyze at h
  split at h
  · obtain ⟨maps, -, h⟩ := bind_eq_ok_iff.mp h
    exact ⟨maps, h⟩
  · obtain ⟨maps, -, h⟩ := bind_eq_ok_iff.mp h
    exact ⟨maps, h⟩

/-- Results are those of a field of shifts. -/
theorem exists_field_of_analyze {input : Input Float} {analysis : Analysis Float}
    {set : ResultSet Float} (h : input.analyze analysis = .ok set) :
    ∃ field : ShiftField Float, field.resultSet analysis.settings = .ok set := by
  obtain ⟨maps, hresults⟩ := exists_maps_of_analyze h
  obtain ⟨field, -, hset⟩ := bind_eq_ok_iff.mp hresults
  exact ⟨field, hset⟩

variable {environment : String → Option String} {a : Arguments} {t t' : FileTree}
  {encoder : Png.Encoder}

/-- All of a run before the first file is made. It looks at the files and leaves them alone. -/
def Arguments.prepare (a : Arguments) (environment : String → Option String) (t : FileTree) :
    Except RunFault (ResultSet Float × Parameters Float) := do
  let settings ← a.settings environment
  let bytes ← (t.readFile a.input).mapError (.read a.input)
  let input ← a.read bytes
  a.analyze settings input

theorem run_execute : (execute FileTree.system encoder environment a).run.run t =
    match a.prepare environment t with
    | .error fault => (.error fault, t)
    | .ok (set, parameters) =>
      ((Export.results FileTree.system set parameters a.outputDirectory encoder).adapt
        .write).run.run t := by
  have hread : ∀ {read : Except RunFault (List UInt8)},
      (t.readFile a.input).mapError (RunFault.read a.input) = read →
      (ExceptT.mk do
        return (← FileTree.system.read a.input).mapError (RunFault.read a.input)).run.run t =
          (read, t) := by
    rintro _ rfl
    rfl
  have hlift : ∀ {α : Type} (x : Except RunFault α),
      (liftM x : ExceptT RunFault (StateM FileTree) α).run.run t = (x, t) := fun _ => rfl
  unfold Arguments.prepare execute
  -- A step before the export fails, or hands its value on with the tree it was given.
  cases a.settings environment with
  | error => rw [run_bind_of_error (hlift _)]; rfl
  | ok settings =>
    rw [run_bind_of_ok (hlift _), ok_bind]
    cases hbytes : (t.readFile a.input).mapError (RunFault.read a.input) with
    | error => rw [run_bind_of_error (hread hbytes)]; rfl
    | ok bytes =>
      rw [run_bind_of_ok (hread hbytes), ok_bind]
      cases a.read bytes with
      | error => rw [run_bind_of_error (hlift _)]; rfl
      | ok input =>
        rw [run_bind_of_ok (hlift _), ok_bind]
        cases a.analyze settings input with
        | error => rw [run_bind_of_error (hlift _)]
        | ok => rw [run_bind_of_ok (hlift _)]

theorem run_eq (environment : String → Option String) (words : List String) (t : FileTree)
    (encoder : Png.Encoder) :
    (run FileTree.system environment words encoder).run t =
      match Arguments.parse environment words with
      | .error stop => (.stopped stop, t)
      | .ok a =>
        match (execute FileTree.system encoder environment a).run.run t with
        | (.ok summary, t') => (.done summary, t')
        | (.error fault, t') => (.failed fault, t') := by
  unfold run
  cases Arguments.parse environment words with
  | error => rfl
  | ok a =>
    simp only
    rw [StateT.run_bind]
    cases (execute FileTree.system encoder environment a).run.run t with
    | mk made t' => cases made <;> rfl

theorem Arguments.outputDirectory_ne_empty {words : List String}
    (h : Arguments.parse environment words = .ok a) : a.outputDirectory ≠ "" := by
  obtain ⟨seen, -, h⟩ := bind_eq_ok_iff.mp h
  split at h
  · cases h
  · simp only at h
    split at h
    · cases h
    · obtain rfl := Except.ok.inj h
      assumption

theorem Arguments.prepare_eq_ok_iff {set : ResultSet Float} {parameters : Parameters Float} :
    a.prepare environment t = .ok (set, parameters) ↔
      ∃ settings bytes input analysis, a.settings environment = .ok settings ∧
        t.readFile a.input = .ok bytes ∧ a.read bytes = .ok input ∧
        Analysis.ofDataset input.shape (input.parametersWith a.parameters) = .ok analysis ∧
        input.analyze (analysis.withSettings settings) = .ok set ∧
        parameters = analysis.parameters := by
  constructor
  · intro h
    obtain ⟨settings, hsettings, h⟩ := bind_eq_ok_iff.mp h
    obtain ⟨bytes, hbytes, h⟩ := bind_eq_ok_iff.mp h
    obtain ⟨input, hinput, h⟩ := bind_eq_ok_iff.mp h
    obtain ⟨analysis, hanalysis, h⟩ := bind_eq_ok_iff.mp h
    obtain ⟨results, hresults, h⟩ := bind_eq_ok_iff.mp h
    obtain ⟨rfl, rfl⟩ := Prod.mk.inj (Except.ok.inj h)
    refine ⟨settings, bytes, input, analysis, hsettings, ?_, hinput, ?_, ?_, rfl⟩
    · exact mapError_eq_ok_iff.mp hbytes
    · exact mapError_eq_ok_iff.mp hanalysis
    · exact mapError_eq_ok_iff.mp hresults
  · rintro ⟨settings, bytes, input, analysis, hsettings, hbytes, hinput, hanalysis, hset, rfl⟩
    refine bind_eq_ok_iff.mpr ⟨settings, hsettings, ?_⟩
    refine bind_eq_ok_iff.mpr ⟨bytes, mapError_eq_ok_iff.mpr hbytes, ?_⟩
    refine bind_eq_ok_iff.mpr ⟨input, hinput, ?_⟩
    refine bind_eq_ok_iff.mpr ⟨analysis, mapError_eq_ok_iff.mpr hanalysis, ?_⟩
    exact bind_eq_ok_iff.mpr ⟨set, mapError_eq_ok_iff.mpr hset, rfl⟩

/-- The results of an analysis that have been written out, in the directory that was asked for. -/
theorem received_of_analyze {words : List String} {input : Input Float}
    {analysis : Analysis Float} {set : ResultSet Float} {parameters : Parameters Float}
    {summary : Summary Float} (hparse : Arguments.parse environment words = .ok a)
    (hset : input.analyze analysis = .ok set)
    (h : (Export.results FileTree.system set parameters a.outputDirectory encoder).run.run t =
      (.ok summary, t')) :
    summary = ⟨parameters, set.entries.map .ofEntry⟩ ∧ ∃ images,
      set.entries.mapM (fun e => encoder.write e.key e.image) = .ok images ∧
      (fileNames (set.entries.map Entry.listed) ++ [summaryName]).Nodup ∧
      t.Received t' (t.locate a.outputDirectory) (Export.files set.entries images summary) := by
  obtain ⟨field, hfield⟩ := exists_field_of_analyze hset
  exact received_of_resultSet hfield (Arguments.outputDirectory_ne_empty hparse) h

/-- What the outcome of a run is, and what it leaves of the files. -/
theorem run_cases (environment : String → Option String) (words : List String) (t : FileTree)
    (encoder : Png.Encoder) :
    (∃ stop, Arguments.parse environment words = .error stop ∧
      (run FileTree.system environment words encoder).run t = (.stopped stop, t)) ∨
    ∃ a, Arguments.parse environment words = .ok a ∧
      ((∃ fault, a.prepare environment t = .error fault ∧
        (run FileTree.system environment words encoder).run t = (.failed fault, t)) ∨
      ∃ set parameters, a.prepare environment t = .ok (set, parameters) ∧
        ∃ t', (∃ cause, (run FileTree.system environment words encoder).run t =
            (.failed (.write cause), t')) ∨
          ∃ summary,
            (Export.results FileTree.system set parameters a.outputDirectory encoder).run.run t =
              (.ok summary, t') ∧
            (run FileTree.system environment words encoder).run t = (.done summary, t')) := by
  rw [run_eq]
  cases hparse : Arguments.parse environment words with
  | error stop => exact .inl ⟨stop, rfl, rfl⟩
  | ok a =>
    refine .inr ⟨a, rfl, ?_⟩
    simp only
    rw [run_execute]
    cases hprepare : a.prepare environment t with
    | error fault => exact .inl ⟨fault, rfl, rfl⟩
    | ok made =>
      obtain ⟨set, parameters⟩ := made
      refine .inr ⟨set, parameters, rfl, ?_⟩
      let exported := Export.results FileTree.system set parameters a.outputDirectory encoder
      have hadapt : (exported.adapt RunFault.write).run.run t =
          ((exported.run.run t).1.mapError RunFault.write, (exported.run.run t).2) := rfl
      simp only
      rw [hadapt]
      cases (Export.results FileTree.system set parameters a.outputDirectory encoder).run.run t with
      | mk made t' =>
        refine ⟨t', ?_⟩
        cases made with
        | error cause => exact .inl ⟨cause, rfl⟩
        | ok summary => exact .inr ⟨summary, rfl, rfl⟩

theorem eq_of_run_stopped {stop : Stop} {words : List String}
    (h : (run FileTree.system environment words encoder).run t = (.stopped stop, t')) : t' = t := by
  rcases run_cases environment words t encoder with
    ⟨_, -, hrun⟩ | ⟨_, -, ⟨_, -, hrun⟩ | ⟨_, _, -, _, ⟨_, hrun⟩ | ⟨_, -, hrun⟩⟩⟩
  all_goals cases h.symm.trans hrun
  rfl

theorem eq_of_run_failed {fault : RunFault} {words : List String}
    (h : (run FileTree.system environment words encoder).run t = (.failed fault, t'))
    (hearly : ∀ cause, fault ≠ .write cause) : t' = t := by
  rcases run_cases environment words t encoder with
    ⟨_, -, hrun⟩ | ⟨_, -, ⟨_, -, hrun⟩ | ⟨_, _, -, _, ⟨cause, hrun⟩ | ⟨_, -, hrun⟩⟩⟩
  all_goals cases h.symm.trans hrun
  · rfl
  · exact absurd rfl (hearly cause)

/-- A run that ends well, and not for help, has come as far as writing its results. -/
theorem exported_of_run {outcome : Outcome} {words : List String}
    (h : (run FileTree.system environment words encoder).run t = (outcome, t'))
    (hexit : outcome.exitCode = 0) (hhelp : outcome ≠ .stopped .help) :
    ∃ a settings bytes input analysis set summary,
      Arguments.parse environment words = .ok a ∧ a.settings environment = .ok settings ∧
      t.readFile a.input = .ok bytes ∧ a.read bytes = .ok input ∧
      Analysis.ofDataset input.shape (input.parametersWith a.parameters) = .ok analysis ∧
      input.analyze (analysis.withSettings settings) = .ok set ∧
      (Export.results FileTree.system set analysis.parameters a.outputDirectory encoder).run.run t =
        (.ok summary, t') ∧ outcome = .done summary := by
  rcases run_cases environment words t encoder with ⟨stop, -, hrun⟩ | ⟨a, hparse, hrest⟩
  · cases h.symm.trans hrun
    cases stop with
    | help => exact absurd rfl hhelp
    | usage => cases hexit
  rcases hrest with ⟨fault, -, hrun⟩ | ⟨set, parameters, hprepare, _, hwritten⟩
  · cases h.symm.trans hrun
    cases hexit
  rcases hwritten with ⟨cause, hrun⟩ | ⟨summary, hresults, hrun⟩
  · cases h.symm.trans hrun
    cases hexit
  · cases h.symm.trans hrun
    obtain ⟨settings, bytes, input, analysis, hsettings, hbytes, hinput, hanalysis, hset, rfl⟩ :=
      Arguments.prepare_eq_ok_iff.mp hprepare
    exact ⟨a, settings, bytes, input, analysis, set, summary, hparse, hsettings, hbytes, hinput,
      hanalysis, hset, hresults, rfl⟩

/-- A run that ends before it writes leaves all files as they are; so does one that was asked for
help. A run that otherwise ends well has made or replaced the images of all results, the values of
those that are handed out, and the summary of them, under names of their own in the output
directory, and no other file. The summary reads as the list of these results with the names of their
files and as the parameters, provided that the texts of the parameters' numbers do. -/
theorem run_all_or_nothing (environment : String → Option String) (words : List String)
    (t : FileTree) (encoder : Png.Encoder) :
    ∃ outcome t', (run FileTree.system environment words encoder).run t = (outcome, t') ∧
      (∀ stop, outcome = .stopped stop → t' = t) ∧
      (∀ fault, outcome = .failed fault → (∀ cause, fault ≠ .write cause) → t' = t) ∧
      (outcome.exitCode = 0 → outcome ≠ .stopped .help →
        ∃ a settings bytes input analysis set images summary,
          Arguments.parse environment words = .ok a ∧ a.settings environment = .ok settings ∧
          t.readFile a.input = .ok bytes ∧ a.read bytes = .ok input ∧
          Analysis.ofDataset input.shape (input.parametersWith a.parameters) = .ok analysis ∧
          input.analyze (analysis.withSettings settings) = .ok set ∧
          set.entries.mapM (fun e => encoder.write e.key e.image) = .ok images ∧
          outcome = .done summary ∧
          summary = ⟨analysis.parameters, set.entries.map fun e =>
            ⟨e.key, e.title, e.description, e.key ++ ".png",
              if e.inDownload then some (e.key ++ ".json") else none⟩⟩ ∧
          let files := Export.files set.entries images summary
          files.map Prod.fst = set.entries.flatMap (fun e => (e.key ++ ".png") ::
            if e.inDownload then [e.key ++ ".json"] else []) ++ ["summary.json"] ∧
          (files.map Prod.fst).Nodup ∧ t.Received t' (t.locate a.outputDirectory) files ∧
          ∃ listing,
            t'.look (t.locate a.outputDirectory ++ ["summary.json"]) = some (.file listing) ∧
            ∀ number?, analysis.parameters.ReadBack number? →
              Summary.read? number? listing = some summary) := by
  refine ⟨_, _, rfl, fun stop h => ?_, fun fault h hearly => ?_, fun hexit hhelp => ?_⟩
  · exact eq_of_run_stopped (Prod.ext h rfl)
  · exact eq_of_run_failed (Prod.ext h rfl) hearly
  · obtain ⟨a, settings, bytes, input, analysis, set, summary, hparse, hsettings, hbytes, hinput,
      hanalysis, hset, hresults, hdone⟩ := exported_of_run rfl hexit hhelp
    obtain ⟨rfl, images, himages, hnodup, hreceived⟩ := received_of_analyze hparse hset hresults
    let summary : Summary Float := ⟨analysis.parameters, set.entries.map .ofEntry⟩
    have hnames : (Export.files set.entries images summary).map Prod.fst = _ :=
      map_fst_files himages
    have hlast : (summaryName, utf8Bytes summary.toJson.pretty) ∈
        Export.files set.entries images summary :=
      List.mem_append_right _ (List.mem_singleton.mpr rfl)
    have haccepted : analysis.parameters.Accepted := by
      obtain ⟨-, -, -, hparameters, -⟩ := Analysis.ofDataset_eq_ok_iff.mp hanalysis
      exact (UserParameters.resolve_eq_ok_iff.mp hparameters).2
    refine ⟨a, settings, bytes, input, analysis, set, images, summary, hparse, hsettings, hbytes,
      hinput, hanalysis, hset, himages, hdone, rfl, ?_, ?_, hreceived, _, hreceived.written _ hlast,
      fun number? hback => Summary.read?_utf8Bytes haccepted hback⟩
    · refine hnames.trans ?_
      unfold fileNames
      rw [List.flatMap_map]
      rfl
    · rw [hnames]
      exact hnodup

/-- A directory with the maps of a single position, which have no imaginary parts. -/
def spotTree : FileTree where
  root := .directory [("in.json", .file (utf8Bytes ("\x7b\"nav_shape\":[1]," ++
    "\"sig_shape\":[2,2],\"maps\":\x7b\"dtype\":\"complex\",\"sum\":[[1,0]]," ++
    "\"y\":[[2,0]],\"x\":[[4,0]]\x7d\x7d")))]
  workingDirectory := []

theorem run_spotTree_ends :
    ((run FileTree.system (fun _ => none) ["in.json"]).run spotTree).1.exitCode = 0 ∧
      ((run FileTree.system (fun _ => none) ["in.json"]).run spotTree).1 ≠ .stopped .help := by
  have hmade : ((run FileTree.system (fun _ => none) ["in.json"]).run spotTree).1.exitCode = 0 ∧
      ((run FileTree.system (fun _ => none) ["in.json"]).run spotTree).2.look ["com-results"] =
        some .directory := by
    decide +kernel
  refine ⟨hmade.1, fun hhelp => ?_⟩
  have hsame : ((run FileTree.system (fun _ => none) ["in.json"]).run spotTree).2 = spotTree :=
    eq_of_run_stopped (Prod.ext hhelp rfl)
  rw [hsame] at hmade
  exact absurd hmade.2 (by decide)

theorem run_all_or_nothing_spotTree :
    ∃ summary t' files listing,
      (run FileTree.system (fun _ => none) ["in.json"]).run spotTree = (.done summary, t') ∧
      files.map Prod.fst = ["x_real.png", "x_real.json", "y_real.png", "y_real.json",
        "x_imag.png", "x_imag.json", "y_imag.png", "y_imag.json", "summary.json"] ∧
      spotTree.Received t' ["com-results"] files ∧
      t'.look ["com-results", "summary.json"] = some (.file listing) ∧
      Summary.read? Decimal.float? listing = some summary ∧
      summary.results.map SummaryEntry.data =
        [some "x_real.json", some "y_real.json", some "x_imag.json", some "y_imag.json"] := by
  obtain ⟨outcome, t', hrun, -, -, hdone⟩ :=
    run_all_or_nothing (fun _ => none) ["in.json"] spotTree .storing
  have hmade : (do
      let a ← (Arguments.parse (fun _ => none) ["in.json"]).toOption
      let made ← (a.prepare (fun _ => none) spotTree).toOption
      return (spotTree.locate a.outputDirectory, made.1.entries.map Entry.listed,
        [made.2.cx, made.2.cy, made.2.r])) =
      some (["com-results"], ShiftField.complexListing, [1, 1, Extended.infinity]) := by
    decide +kernel
  have hends := run_spotTree_ends
  rw [hrun] at hends
  obtain ⟨a, settings, bytes, input, analysis, set, images, summary, hparse, hsettings, hbytes,
    hinput, hanalysis, hset, -, rfl, hsummary, hnames, -, hreceived, listing, hlook, hread⟩ :=
      hdone hends.1 hends.2
  have hprepare : a.prepare (fun _ => none) spotTree = .ok (set, analysis.parameters) :=
    Arguments.prepare_eq_ok_iff.mpr ⟨settings, bytes, input, analysis, hsettings, hbytes, hinput,
      hanalysis, hset, rfl⟩
  rw [hparse] at hmade
  simp only [Except.toOption, Option.bind_eq_bind, Option.bind_some, hprepare] at hmade
  obtain ⟨hplace, hrest⟩ := Prod.mk.inj (Option.some.inj hmade)
  obtain ⟨hlisted, hnumbers⟩ := Prod.mk.inj hrest
  rw [hplace] at hreceived hlook
  have hback : analysis.parameters.ReadBack Decimal.float? := by
    unfold Parameters.ReadBack
    rw [hnumbers]
    decide +kernel
  refine ⟨summary, t', _, listing, hrun, ?_, hreceived, hlook, hread _ hback, ?_⟩
  · have hfiles := congrArg fileNames hlisted
    unfold fileNames at hfiles
    rw [List.flatMap_map] at hfiles
    exact hnames.trans (congrArg (· ++ ["summary.json"]) hfiles)
  · have hdata := congrArg
      (List.map fun listed => if listed.2 then some (dataName listed.1) else none) hlisted
    rw [List.map_map] at hdata
    rw [hsummary, List.map_map]
    exact hdata

/-- Help ends well without an analysis, so that there is no summary of one anywhere. -/
theorem run_help_spotTree :
    ∃ outcome, (run FileTree.system (fun _ => none) ["in.json", "--help"]).run spotTree =
        (outcome, spotTree) ∧
      outcome.exitCode = 0 ∧ ∀ place, spotTree.look (place ++ ["summary.json"]) = none := by
  refine ⟨.stopped .help, rfl, rfl, ?_⟩
  intro place
  cases place with
  | nil => rfl
  | cons name further =>
    have hfile : ∀ bytes, (FileNode.file bytes).look (further ++ ["summary.json"]) = none := by
      intro bytes
      cases further <;> rfl
    show spotTree.root.look (name :: (further ++ ["summary.json"])) = none
    unfold spotTree
    rw [FileNode.look_cons]
    by_cases hname : name = "in.json"
    · subst hname
      exact hfile _
    · rw [List.lookup_cons, beq_false_of_ne hname]
      rfl

end Command

end CenterOfMass
