import CenterOfMass.Proofs.Analysis.Basic
import CenterOfMass.Proofs.Analysis.Shown
import CenterOfMass.Proofs.Command.Run
import CenterOfMass.Proofs.Png.Admitted

namespace CenterOfMass

/-- The image of a result has a pixel for each position of the scan. -/
theorem exists_shows_of_results {analysis : Analysis Float} {maps : ReductionMaps Float}
    {set : ResultSet Float} (h : analysis.results maps = .ok set)
    (hmemory : 4 * (analysis.scan.height * analysis.scan.width) < Word.memoryLimit) :
    ∀ e ∈ set.entries,
      ∃ color, e.image.Shows analysis.scan.height analysis.scan.width color := by
  obtain ⟨field, hfield, hset⟩ := bind_eq_ok_iff.mp h
  have hscan : maps.shape = (analysis.scan.height, analysis.scan.width) := by
    unfold Analysis.compute at hfield
    split at hfield
    · cases hfield
    · next hshape => exact not_not.mp hshape
  have hgrids := ShiftField.shape_of_mem_grids _ _ (Analysis.ofMaps_of_compute hfield)
  rw [hscan] at hgrids
  have hdraw : ∀ g ∈ field.grids, g.Drawable := by
    intro g hg
    obtain ⟨hrows, hcols⟩ := Prod.mk.inj (hgrids g hg)
    unfold Grid.Drawable
    rw [hrows, hcols]
    exact hmemory
  have hword : 3 * (analysis.scan.height * analysis.scan.width) < Word.limit := by
    have hlimit := Word.limit_eq
    omega
  obtain ⟨s, hs, hnamed, hdrawn⟩ := ShiftField.resultSet_eq_ok analysis.settings hgrids hdraw
  obtain rfl := Except.ok.inj (hs.symm.trans hset)
  intro e he
  have hmem : (e.key, e.raw) ∈ field.named := by
    rw [← hnamed]
    exact List.mem_map_of_mem he
  have hraw := ShiftField.shape_of_mem_named hgrids _ hmem
  have hzero : Extended.isFinite (Nat.cast 0 : Float) = true := by decide
  exact ((hdrawn e he).shownIn ordersFinite_double _ hword hzero hraw).exists_shows

/-- The bytes of an image are written under the key of its result. -/
theorem exists_mem_files {encoder : Png.Encoder} {entries : List (Entry Float)}
    {images : List (List UInt8)} {summary : Summary Float}
    (h : entries.mapM (fun e => encoder.write e.key e.image) = .ok images) :
    ∀ e ∈ entries, ∃ image, encoder.write e.key e.image = .ok image ∧
      (imageName e.key, image) ∈ Export.files entries images summary := by
  have hmem : ∀ e ∈ entries, ∃ image, encoder.write e.key e.image = .ok image ∧
      (imageName e.key, image) ∈ (List.zipWith Entry.files entries images).flatten := by
    induction entries generalizing images with
    | nil => exact fun _ he => absurd he List.not_mem_nil
    | cons first entries ih =>
      rw [List.mapM_cons] at h
      obtain ⟨image, himage, h⟩ := bind_eq_ok_iff.mp h
      obtain ⟨rest, hrest, h⟩ := bind_eq_ok_iff.mp h
      obtain rfl := Except.ok.inj h
      rw [List.zipWith_cons_cons, List.flatten_cons]
      refine List.forall_mem_cons.mpr ⟨?_, ?_⟩
      · exact ⟨image, himage, List.mem_append_left _ List.mem_cons_self⟩
      · intro e he
        obtain ⟨found, hfound, hin⟩ := ih hrest e he
        exact ⟨found, hfound, List.mem_append_right _ hin⟩
  intro e he
  obtain ⟨image, himage, hin⟩ := hmem e he
  exact ⟨image, himage, List.mem_append_left _ hin⟩

namespace Command

/-- Every image that a run writes is one that the format admits, with a column for each column of
the scan and a row for each row, unless the scan has no positions. Of the compressor it is asked
that it can be undone; of the scan, that its images fit into memory and four bytes can hold its
sides; and of an image, that four bytes can count its compressed rows. -/
theorem run_images_admitted (environment : String → Option String) (words : List String)
    (t : FileTree) (encoder : Png.Encoder) {inflate : List UInt8 → Option (List UInt8)}
    (hinverse : ∀ bytes, inflate (encoder.compress bytes) = some bytes) :
    ∃ outcome t', (run FileTree.system environment words encoder).run t = (outcome, t') ∧
      (outcome = .stopped .help → t' = t) ∧
      (outcome.exitCode = 0 → outcome ≠ .stopped .help →
        ∃ a settings bytes input analysis set,
          Arguments.parse environment words = .ok a ∧ a.settings environment = .ok settings ∧
          t.readFile a.input = .ok bytes ∧ a.read bytes = .ok input ∧
          Analysis.ofDataset input.shape (input.parametersWith a.parameters) = .ok analysis ∧
          input.analyze (analysis.withSettings settings) = .ok set ∧
          (4 * (analysis.scan.height * analysis.scan.width) < Word.memoryLimit →
            analysis.scan.width < 4294967296 → analysis.scan.height < 4294967296 →
            ∀ e ∈ set.entries, ∃ bytes,
              t'.look (t.locate a.outputDirectory ++ [e.key ++ ".png"]) = some (.file bytes) ∧
              ((encoder.compress
                  (Png.imageRows (encoder.division e.key) e.image)).length < 4294967296 →
                (Png.Admitted inflate bytes analysis.scan.width analysis.scan.height ↔
                  0 < analysis.scan.width ∧ 0 < analysis.scan.height)))) := by
  refine ⟨_, _, rfl, fun h => eq_of_run_stopped (Prod.ext h rfl), fun hexit hhelp => ?_⟩
  obtain ⟨a, settings, bytes, input, analysis, set, summary, hparse, hsettings, hbytes, hinput,
    hanalysis, hset, hresults, -⟩ := exported_of_run rfl hexit hhelp
  obtain ⟨-, images, himages, -, hreceived⟩ := received_of_analyze hparse hset hresults
  refine ⟨a, settings, bytes, input, analysis, set, hparse, hsettings, hbytes, hinput, hanalysis,
    hset, ?_⟩
  intro hmemory hwidth hheight e he
  obtain ⟨maps, hmaps⟩ := exists_maps_of_analyze hset
  obtain ⟨color, hshows⟩ := exists_shows_of_results hmaps hmemory e he
  have hcols : e.image.width = analysis.scan.width := hshows.width_eq
  have hrows : e.image.height = analysis.scan.height := hshows.height_eq
  have hsize : e.image.pixels.size = 3 * e.image.width * e.image.height := by
    rw [hshows.size_eq, hshows.width_eq, hshows.height_eq, Nat.mul_assoc,
      Nat.mul_comm (analysis.withSettings settings).scan.width]
  obtain ⟨image, himage, hfile⟩ := exists_mem_files himages e he
  refine ⟨image, hreceived.written _ hfile, fun hdata => ?_⟩
  rw [← hcols, ← hrows] at hmemory ⊢
  rw [Nat.mul_comm e.image.height] at hmemory
  exact Png.admitted_encodeWith_iff hinverse hsize (hcols ▸ hwidth) (hrows ▸ hheight) hmemory hdata
    himage

theorem run_images_admitted_spotTree :
    ∃ outcome t' bytes,
      (run FileTree.system (fun _ => none) ["in.json"]).run spotTree = (outcome, t') ∧
      outcome.exitCode = 0 ∧
      t'.look ["com-results", "x_real.png"] = some (.file bytes) ∧
      Png.Admitted Png.Zlib.decompress? bytes 1 1 := by
  obtain ⟨outcome, t', hrun, -, hdone⟩ :=
    run_images_admitted (fun _ => none) ["in.json"] spotTree .storing
      Png.Zlib.decompress?_compress
  have hmade : (do
      let a ← (Arguments.parse (fun _ => none) ["in.json"]).toOption
      let settings ← (a.settings (fun _ => none)).toOption
      let bytes ← (spotTree.readFile a.input).toOption
      let input ← (a.read bytes).toOption
      let analysis ← (Analysis.ofDataset input.shape (input.parametersWith a.parameters)).toOption
      let set ← (input.analyze (analysis.withSettings settings)).toOption
      return (spotTree.locate a.outputDirectory, analysis.scan.height, analysis.scan.width,
        set.entries.map fun e =>
          (e.key, (Png.Zlib.compress (Png.imageRows .single e.image)).length))) =
      some (["com-results"], 1, 1,
        [("x_real", 13), ("y_real", 13), ("x_imag", 13), ("y_imag", 13)]) := by
    decide +kernel
  have hends := run_spotTree_ends
  rw [hrun] at hends
  obtain ⟨a, settings, bytes, input, analysis, set, hparse, hsettings, hbytes, hinput, hanalysis,
    hset, hadmitted⟩ := hdone hends.1 hends.2
  rw [hparse] at hmade
  simp only [Except.toOption, Option.bind_eq_bind, Option.bind_some, hsettings, hbytes, hinput,
    hanalysis, hset] at hmade
  obtain ⟨hplace, hrest⟩ := Prod.mk.inj (Option.some.inj hmade)
  obtain ⟨hheight, hrest⟩ := Prod.mk.inj hrest
  obtain ⟨hwidth, hlengths⟩ := Prod.mk.inj hrest
  obtain ⟨e, he, hkey⟩ := List.mem_map.mp (hlengths ▸ List.mem_cons_self)
  obtain ⟨hkey, hlength⟩ := Prod.mk.inj hkey
  rw [hplace, hheight, hwidth] at hadmitted
  obtain ⟨image, hlook, hadmitted⟩ := hadmitted (by decide) (by decide) (by decide) e he
  rw [hkey] at hlook
  have hcounted : (Png.Encoder.storing.compress
      (Png.imageRows (Png.Encoder.storing.division e.key) e.image)).length < 4294967296 :=
    hlength.trans_lt (by decide)
  exact ⟨outcome, t', image, hrun, hends.1, hlook, (hadmitted hcounted).mpr (by decide)⟩

/-- A directory with complex maps of a scan of no positions, which nothing refuses. -/
def emptyScanTree : FileTree where
  root := .directory [("in.json", .file (utf8Bytes ("\x7b\"nav_shape\":[0]," ++
    "\"sig_shape\":[2,2],\"maps\":\x7b\"dtype\":\"complex\",\"sum\":[],\"y\":[]," ++
    "\"x\":[]\x7d\x7d")))]
  workingDirectory := []

/-- The run ends well, with images of one row and no columns. -/
theorem run_emptyScanTree :
    ∃ summary t' bytes,
      (run FileTree.system (fun _ => none) ["in.json"]).run emptyScanTree = (.done summary, t') ∧
      (Outcome.done summary).exitCode = 0 ∧
      t'.look ["com-results", "x_real.png"] = some (.file bytes) ∧
      ∀ inflate width height, ¬ Png.Admitted inflate bytes width height := by
  have hwritten : (match (run FileTree.system (fun _ => none) ["in.json"]).run emptyScanTree with
      | (.done _, t') => t'.look ["com-results", "x_real.png"]
      | _ => none) = (Png.encode ⟨0, 1, #[]⟩).toOption.map .file := by
    decide +kernel
  have hwidth : (Png.encode ⟨0, 1, #[]⟩).toOption.bind (fun bytes =>
      (Png.soundChunks? bytes).bind fun chunks =>
        ((Png.body? ['I', 'H', 'D', 'R'] chunks).bind Png.Header.read?).map Png.Header.width) =
      some 0 := by
    decide +kernel
  cases hencode : Png.encode ⟨0, 1, #[]⟩ with
  | error => rw [hencode] at hwidth; cases hwidth
  | ok bytes =>
    rw [hencode] at hwritten hwidth
    split at hwritten
    · next summary t' hrun =>
      refine ⟨summary, t', bytes, hrun, rfl, hwritten, ?_⟩
      rintro inflate width height ⟨chunks, header, data, hopens, hcolumns, -, hpositive, -⟩
      have hzero : some header.width = some 0 := by
        rw [← hwidth]
        show _ = (Png.soundChunks? bytes).bind _
        rw [hopens.chunks_eq]
        show _ =
          ((Png.body? ['I', 'H', 'D', 'R'] chunks).bind Png.Header.read?).map Png.Header.width
        rw [hopens.header_eq]
        rfl
      have hnone : header.width = 0 := Option.some.inj hzero
      omega
    · cases hwritten

end Command

end CenterOfMass
