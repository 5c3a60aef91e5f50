import CenterOfMass.Proofs.Analysis.Basic
import CenterOfMass.Proofs.Command.Run
import CenterOfMass.Proofs.Exchange.RawData

namespace CenterOfMass

open Extended

/-- The file of a result's values is among those of all results. -/
theorem mem_files_of_downloadable {encoder : Png.Encoder} {entries : List (Entry Float)}
    {images : List (List UInt8)} {e : Entry Float}
    (h : entries.mapM (fun e => encoder.write e.key e.image) = .ok images)
    (he : e ∈ entries) (hin : e.inDownload = true) :
    (dataName e.key, utf8Bytes e.raw.toJson.compact) ∈
      (List.zipWith Entry.files entries images).flatten := by
  induction entries generalizing images with
  | nil => cases he
  | cons first entries ih =>
    rw [List.mapM_cons] at h
    obtain ⟨image, -, h⟩ := bind_eq_ok_iff.mp h
    obtain ⟨rest, hrest, h⟩ := bind_eq_ok_iff.mp h
    obtain rfl := Except.ok.inj h
    rw [List.zipWith_cons_cons, List.flatten_cons, List.mem_append]
    rcases List.mem_cons.mp he with rfl | he
    · left
      simp [Entry.files, hin]
    · exact .inr (ih hrest he)

namespace Analysis

variable {analysis : Analysis Float} {maps : ReductionMaps Float} {set : ResultSet Float}
  {e : Entry Float}

/-- Every result that is handed out is one map, and once the results have been written the file
under its key keeps the map: all of it, but that the values that are not finite are null. -/
theorem kept_of_results (hset : analysis.results maps = .ok set) (he : e ∈ set.downloadable) :
    ∃ map, e.raw = .single map ∧
      (∀ number?, map.KeptBy number? (utf8Bytes e.raw.toJson.compact)) ∧
      ∀ t t' directory parameters summary encoder, directory ≠ "" →
        (Export.results FileTree.system set parameters directory encoder).run.run t =
          (.ok summary, t') →
        t'.look (t.locate directory ++ [dataName e.key]) =
          some (.file (utf8Bytes e.raw.toJson.compact)) := by
  obtain ⟨field, -, hfield⟩ := bind_eq_ok_iff.mp hset
  obtain ⟨map, hmap⟩ := ShiftField.single_of_downloadable hfield he
  obtain ⟨hmem, hin⟩ := List.mem_filter.mp he
  refine ⟨map, hmap, fun number? => hmap ▸ map.keptBy_utf8Bytes number?, ?_⟩
  intro t t' directory parameters summary encoder hdirectory hresults
  obtain ⟨-, images, himages, -, hreceived⟩ := received_of_resultSet hfield hdirectory hresults
  apply hreceived.written (dataName e.key, utf8Bytes e.raw.toJson.compact)
  exact List.mem_append_left _ (mem_files_of_downloadable himages hmem hin)

/-- Complex maps of two positions. At the second one the mass is so small that the shifts are beyond
all doubles, upwards and downwards. -/
def farMaps : MapTriple (Complex Float) where
  sum := ⟨1, 2, #[⟨2, 0⟩, ⟨0.25, 0⟩], rfl⟩
  y := ⟨1, 2, #[⟨3, 0⟩, ⟨Float.ofBits 0x7fe0000000000000, 0⟩], rfl⟩
  x := ⟨1, 2, #[⟨3, 0⟩, ⟨Float.ofBits 0xffe0000000000000, 0⟩], rfl⟩
  y_shape := rfl
  x_shape := rfl

def farField : ComplexField Float :=
  let v := farMaps.shifts (Complex.ofReal 1) (Complex.ofReal 1)
  ⟨v.x.map Complex.re, v.y.map Complex.re, v.x.map Complex.im, v.y.map Complex.im⟩

def farShifts (far : Float) : Grid Float := ⟨1, 2, #[0.5, far], rfl⟩

theorem yReal_farField : farField.yReal = farShifts infinity :=
  Grid.ext rfl rfl (by decide +kernel)

theorem xReal_farField : farField.xReal = farShifts (-infinity) :=
  Grid.ext rfl rfl (by decide +kernel)

theorem exists_results_farMaps : ∃ set, (ofSides 1 2).results (.complex farMaps) = .ok set ∧
    ∀ p ∈ (ShiftField.complex farField).named,
      ∃ e ∈ set.downloadable, e.key = p.1 ∧ e.raw = p.2 := by
  have hshape : ∀ g ∈ (ShiftField.complex farField).grids, g.shape = (1, 2) := by
    intro g hg
    simp only [ShiftField.grids, List.mem_cons, List.not_mem_nil, or_false] at hg
    rcases hg with rfl | rfl | rfl | rfl <;> rfl
  have hdraw : ∀ g ∈ (ShiftField.complex farField).grids, g.Drawable := by
    intro g hg
    obtain ⟨hrows, hcols⟩ := Prod.mk.inj (hshape g hg)
    unfold Grid.Drawable
    rw [hrows, hcols]
    decide
  obtain ⟨set, hset, hnamed, hdrawn⟩ :=
    ShiftField.resultSet_eq_ok (ofSides 1 2).settings hshape hdraw
  refine ⟨set, hset, ?_⟩
  intro p hp
  rw [← hnamed] at hp
  obtain ⟨e, he, rfl⟩ := List.mem_map.mp hp
  refine ⟨e, List.mem_filter.mpr ⟨he, (hdrawn e he).1.mpr ?_⟩, rfl, rfl⟩
  rw [hnamed] at hp
  intro hkey
  simp [ShiftField.named, hkey] at hp

theorem kept_of_results_far : ∃ set, (ofSides 1 2).results (.complex farMaps) = .ok set ∧
    ∃ e ∈ set.downloadable, e.key = "y_real" ∧ e.raw = .single (farShifts infinity) ∧
      RawData.read? Decimal.float? (utf8Bytes e.raw.toJson.compact) =
        some (.single ⟨1, 2, #[some 0.5, none], rfl⟩) := by
  obtain ⟨set, hset, hentries⟩ := exists_results_farMaps
  obtain ⟨e, he, hkey, hraw⟩ := hentries ("y_real", .single farField.yReal) (by
    simp [ShiftField.named])
  rw [yReal_farField] at hraw
  obtain ⟨map, hmap, hkept, -⟩ := kept_of_results hset he
  obtain rfl := RawData.single.inj (hmap.symm.trans hraw)
  have hback : (farShifts infinity).ReadBack Decimal.float? := by
    unfold Grid.ReadBack
    decide +kernel
  have hfinite : (farShifts infinity).finite = ⟨1, 2, #[some 0.5, none], rfl⟩ :=
    Grid.ext rfl rfl (by decide +kernel)
  refine ⟨set, hset, e, he, hkey, hraw, ?_⟩
  rw [(hkept Decimal.float?).read hback, hfinite]

/-- Two different maps in one set of results that are written to files of the same bytes. -/
theorem same_file_far : ∃ set, (ofSides 1 2).results (.complex farMaps) = .ok set ∧
    ∃ a ∈ set.downloadable, ∃ b ∈ set.downloadable, a.raw ≠ b.raw ∧
      utf8Bytes a.raw.toJson.compact = utf8Bytes b.raw.toJson.compact := by
  obtain ⟨set, hset, hentries⟩ := exists_results_farMaps
  obtain ⟨a, ha, -, hrawA⟩ := hentries ("y_real", .single farField.yReal) (by
    simp [ShiftField.named])
  obtain ⟨b, hb, -, hrawB⟩ := hentries ("x_real", .single farField.xReal) (by
    simp [ShiftField.named])
  rw [yReal_farField] at hrawA
  rw [xReal_farField] at hrawB
  refine ⟨set, hset, a, ha, b, hb, ?_, ?_⟩
  · intro h
    rw [hrawA, hrawB] at h
    have hcells := congrArg Grid.cells (RawData.single.inj h)
    exact absurd hcells (by decide +kernel)
  · have hfinite : (farShifts infinity).finite = (farShifts (-infinity)).finite :=
      Grid.ext rfl rfl (by decide +kernel)
    rw [hrawA, hrawB, RawData.toJson, RawData.toJson, Grid.toJson_inj hfinite]

end Analysis

end CenterOfMass
