import CenterOfMass.Export
import CenterOfMass.Proofs.Files.Tree

namespace CenterOfMass

/-- The names of the files that results with some keys are written to. The values that are not
handed out have none. -/
def fileNames (listing : List (String × Bool)) : List String :=
  listing.flatMap fun (key, handedOut) =>
    imageName key :: if handedOut then [dataName key] else []

theorem fileNames_cons (first : String × Bool) (listing : List (String × Bool)) :
    fileNames (first :: listing) = fileNames [first] ++ fileNames listing := by
  simp [fileNames]

namespace Entry

/-- The key of a result, with whether its values are handed out. -/
def listed {R : Type} (e : Entry R) : String × Bool := (e.key, e.inDownload)

/-- The files of a result, given the bytes of its image. -/
def files (e : Entry Float) (image : List UInt8) : List (String × List UInt8) :=
  (imageName e.key, image) ::
    if e.inDownload then [(dataName e.key, utf8Bytes e.raw.toJson.compact)] else []

theorem map_fst_files (e : Entry Float) (image : List UInt8) :
    (e.files image).map Prod.fst = fileNames [e.listed] := by
  cases hin : e.inDownload <;> simp [files, fileNames, listed, hin]

end Entry

namespace FileTree

variable {t t' t'' : FileTree} {place : Location} {files further : List (String × List UInt8)}

/-- What is seen after files have been written into a directory, one after the other. -/
def seenAfter (look : Location → Option FileView) (place : Location)
    (files : List (String × List UInt8)) : Location → Option FileView :=
  files.foldl (fun look f other => if other = place ++ [f.1] then some (.file f.2) else look other)
    look

theorem seenAfter_of_notMem {look : Location → Option FileView} {other : Location}
    (h : ∀ f ∈ files, other ≠ place ++ [f.1]) : seenAfter look place files other = look other := by
  induction files generalizing look with
  | nil => rfl
  | cons f files ih =>
    have hfirst := h f List.mem_cons_self
    refine (ih fun g hg => h g (List.mem_cons_of_mem f hg)).trans ?_
    exact if_neg hfirst

theorem seenAfter_of_mem {look : Location → Option FileView} (hnames : (files.map Prod.fst).Nodup)
    {name : String} {bytes : List UInt8} (h : (name, bytes) ∈ files) :
    seenAfter look place files (place ++ [name]) = some (.file bytes) := by
  induction files generalizing look with
  | nil => cases h
  | cons f files ih =>
    obtain ⟨hfirst, hrest⟩ := List.nodup_cons.mp hnames
    rcases List.mem_cons.mp h with rfl | h
    · -- No later file has the name of this one, so that none covers it.
      have hother : ∀ g ∈ files, place ++ [name] ≠ place ++ [g.1] := by
        intro g hg heq
        obtain rfl : name = g.1 := by simpa using heq
        exact hfirst (List.mem_map.mpr ⟨g, hg, rfl⟩)
      refine (seenAfter_of_notMem hother).trans ?_
      exact if_pos rfl
    · exact ih hrest h

/-- The second tree is the first one after files have been written into a directory. -/
structure Wrote (t t' : FileTree) (place : Location) (files : List (String × List UInt8)) :
    Prop where
  workingDirectory : t'.workingDirectory = t.workingDirectory
  look : t'.look = seenAfter t.look place files

theorem Wrote.nil (t : FileTree) (place : Location) : Wrote t t place [] := ⟨rfl, rfl⟩

theorem Wrote.append (h : Wrote t t' place files) (h' : Wrote t' t'' place further) :
    Wrote t t'' place (files ++ further) := by
  refine ⟨h'.workingDirectory.trans h.workingDirectory, ?_⟩
  rw [h'.look, h.look]
  exact (List.foldl_append ..).symm

theorem Wrote.locate (h : Wrote t t' place files) (path : String) :
    t'.locate path = t.locate path := by
  unfold FileTree.locate
  rw [h.workingDirectory]

end FileTree

section Run

open FileTree

variable {t t' : FileTree} {directory name : String} {bytes : List UInt8} {encoder : Png.Encoder}

theorem run_write_eq_ok (h : (Export.file system directory name bytes).run.run t = (.ok (), t')) :
    t.writeFile (joinPath directory name) bytes = .ok t' := by
  unfold Export.file at h
  obtain ⟨made, between, hwrite, h⟩ := run_bind_eq_ok h
  have hupdate := run_liftM hwrite
  rw [show system.write = fun path bytes => update (·.writeFile path bytes) from rfl] at hupdate
  simp only at hupdate
  rw [update_eq] at hupdate
  cases hwritten : t.writeFile (joinPath directory name) bytes with
  | ok after =>
    rw [hwritten] at hupdate
    obtain ⟨rfl, rfl⟩ := Prod.mk.inj hupdate
    obtain ⟨-, rfl⟩ := Prod.mk.inj h
    rfl
  | error fault =>
    rw [hwritten] at hupdate
    obtain ⟨rfl, rfl⟩ := Prod.mk.inj hupdate
    cases h

theorem wrote_file (hname : IsEntryName name) (hdirectory : directory ≠ "")
    (h : (Export.file system directory name bytes).run.run t = (.ok (), t')) :
    t.look (t.locate directory) = some .directory ∧
      Wrote t t' (t.locate directory) [(name, bytes)] := by
  obtain ⟨hworking, hplace, hlook⟩ := writeFile_eq_ok hname hdirectory (run_write_eq_ok h)
  exact ⟨hplace, hworking, funext hlook⟩

theorem wrote_entry {e : Entry Float} {s : SummaryEntry}
    (hnames : ∀ name ∈ fileNames [e.listed], IsEntryName name) (hdirectory : directory ≠ "")
    (h : (Export.entry system encoder directory e).run.run t = (.ok s, t')) :
    s = .ofEntry e ∧ ∃ image, encoder.write e.key e.image = .ok image ∧
      Wrote t t' (t.locate directory) (e.files image) := by
  have himage : IsEntryName (imageName e.key) := hnames _ (by simp [fileNames, Entry.listed])
  unfold Export.entry at h
  simp only at h
  cases hencode : encoder.write e.key e.image with
  | error cause =>
    rw [hencode] at h
    cases h
  | ok image =>
    rw [hencode] at h
    obtain ⟨_, between, hfirst, h⟩ := run_bind_eq_ok h
    obtain ⟨-, hwrote⟩ := wrote_file himage hdirectory hfirst
    cases hin : e.inDownload with
    | false =>
      rw [hin] at h
      obtain ⟨hs, rfl⟩ := Prod.mk.inj h
      obtain rfl := Except.ok.inj hs
      refine ⟨rfl, image, rfl, ?_⟩
      simpa [Entry.files, hin] using hwrote
    | true =>
      have hdata : IsEntryName (dataName e.key) :=
        hnames _ (by simp [fileNames, Entry.listed, hin])
      rw [hin] at h
      obtain ⟨_, after, hsecond, h⟩ := run_bind_eq_ok h
      obtain ⟨-, hwrote'⟩ := wrote_file hdata hdirectory hsecond
      rw [hwrote.locate] at hwrote'
      obtain ⟨hs, rfl⟩ := Prod.mk.inj h
      obtain rfl := Except.ok.inj hs
      refine ⟨rfl, image, rfl, ?_⟩
      simpa [Entry.files, hin] using hwrote.append hwrote'

theorem wrote_entries {entries : List (Entry Float)} {ss : List SummaryEntry}
    (hnames : ∀ name ∈ fileNames (entries.map Entry.listed), IsEntryName name)
    (hdirectory : directory ≠ "")
    (h : (entries.mapM (Export.entry system encoder directory)).run.run t = (.ok ss, t')) :
    ss = entries.map .ofEntry ∧ ∃ images,
      entries.mapM (fun e => encoder.write e.key e.image) = .ok images ∧
        Wrote t t' (t.locate directory) (List.zipWith Entry.files entries images).flatten := by
  -- Over the entries. The tree is general, since each entry starts from what the last one left.
  induction entries generalizing t ss with
  | nil =>
    obtain ⟨hs, rfl⟩ := Prod.mk.inj h
    obtain rfl := Except.ok.inj hs
    exact ⟨rfl, [], rfl, .nil t _⟩
  | cons e entries ih =>
    rw [List.mapM_cons] at h
    obtain ⟨s, between, hfirst, h⟩ := run_bind_eq_ok h
    obtain ⟨rest, after, hrest, h⟩ := run_bind_eq_ok h
    obtain ⟨hs, rfl⟩ := Prod.mk.inj h
    obtain rfl := Except.ok.inj hs
    rw [List.map_cons, fileNames_cons, List.forall_mem_append] at hnames
    obtain ⟨rfl, image, himage, hwrote⟩ := wrote_entry hnames.1 hdirectory hfirst
    obtain ⟨rfl, images, himages, hwrote'⟩ := ih hnames.2 hrest
    rw [hwrote.locate] at hwrote'
    refine ⟨rfl, image :: images, ?_, hwrote.append hwrote'⟩
    rw [List.mapM_cons, himage, himages]
    rfl

/-- The files of some results with the bytes of their images, and of the summary of them. -/
def Export.files (entries : List (Entry Float)) (images : List (List UInt8))
    (summary : Summary Float) : List (String × List UInt8) :=
  (List.zipWith Entry.files entries images).flatten ++
    [(summaryName, utf8Bytes summary.toJson.pretty)]

theorem map_fst_files {entries : List (Entry Float)} {images : List (List UInt8)}
    {summary : Summary Float}
    (h : entries.mapM (fun e => encoder.write e.key e.image) = .ok images) :
    (Export.files entries images summary).map Prod.fst =
      fileNames (entries.map Entry.listed) ++ [summaryName] := by
  have hentries : (List.zipWith Entry.files entries images).flatten.map Prod.fst =
      fileNames (entries.map Entry.listed) := by
    induction entries generalizing images with
    | nil =>
      obtain rfl := Except.ok.inj h
      rfl
    | cons e entries ih =>
      rw [List.mapM_cons] at h
      obtain ⟨image, -, h⟩ := bind_eq_ok_iff.mp h
      obtain ⟨rest, hrest, h⟩ := bind_eq_ok_iff.mp h
      obtain rfl := Except.ok.inj h
      rw [List.zipWith_cons_cons, List.flatten_cons, List.map_append, ih hrest, e.map_fst_files]
      exact (fileNames_cons e.listed _).symm
  unfold Export.files
  rw [List.map_append, hentries]
  rfl

/-- The results that have been written, in a directory that was there or has been made. -/
theorem wrote_results {set : ResultSet Float} {parameters : Parameters Float}
    {summary : Summary Float}
    (hnames : ∀ name ∈ fileNames (set.entries.map Entry.listed), IsEntryName name)
    (hdirectory : directory ≠ "")
    (h : (Export.results system set parameters directory encoder).run.run t = (.ok summary, t')) :
    summary = ⟨parameters, set.entries.map .ofEntry⟩ ∧ ∃ images base,
      set.entries.mapM (fun e => encoder.write e.key e.image) = .ok images ∧ t.Grows base ∧
        Wrote base t' (t.locate directory) (Export.files set.entries images summary) ∧
          t'.look (t.locate directory) = some .directory := by
  unfold Export.results at h
  obtain ⟨made, base, hmade, h⟩ := run_bind_eq_ok h
  have hgrows : t.Grows base := by
    have hbase := growing_makeDirectories directory t
    rwa [run_liftM hmade] at hbase
  have hlocate : base.locate directory = t.locate directory := by
    unfold FileTree.locate
    rw [hgrows.workingDirectory]
  cases made with
  | error => cases h
  | ok =>
    obtain ⟨ss, between, hentries, h⟩ := run_bind_eq_ok h
    obtain ⟨_, after, hsummary, h⟩ := run_bind_eq_ok h
    obtain ⟨hs, rfl⟩ := Prod.mk.inj h
    obtain rfl := Except.ok.inj hs
    obtain ⟨rfl, images, himages, hwrote⟩ := wrote_entries hnames hdirectory hentries
    have hlast : IsEntryName summaryName := by decide
    obtain ⟨hplace, hwrote'⟩ := wrote_file hlast hdirectory hsummary
    rw [hwrote.locate, hlocate] at hplace hwrote'
    rw [hlocate] at hwrote
    refine ⟨rfl, images, base, himages, hgrows, hwrote.append hwrote', ?_⟩
    rw [hwrote'.look, seenAfter_of_notMem]
    · exact hplace
    · simp

/-- The files of a directory have been made or replaced; beside them there are only more
directories. -/
structure FileTree.Received (t t' : FileTree) (place : Location)
    (files : List (String × List UInt8)) : Prop where
  directory : t'.look place = some .directory
  written : ∀ f ∈ files, t'.look (place ++ [f.1]) = some (.file f.2)
  others : ∀ other, (∀ f ∈ files, other ≠ place ++ [f.1]) →
    t'.look other = t.look other ∨ t.look other = none ∧ t'.look other = some .directory

theorem received_results {set : ResultSet Float} {parameters : Parameters Float}
    {summary : Summary Float}
    (hnames : ∀ name ∈ fileNames (set.entries.map Entry.listed), IsEntryName name)
    (hnodup : (fileNames (set.entries.map Entry.listed) ++ [summaryName]).Nodup)
    (hdirectory : directory ≠ "")
    (h : (Export.results system set parameters directory encoder).run.run t = (.ok summary, t')) :
    summary = ⟨parameters, set.entries.map .ofEntry⟩ ∧ ∃ images,
      set.entries.mapM (fun e => encoder.write e.key e.image) = .ok images ∧
        t.Received t' (t.locate directory) (Export.files set.entries images summary) := by
  obtain ⟨hsummary, images, base, himages, hgrows, hwrote, hplace⟩ :=
    wrote_results hnames hdirectory h
  refine ⟨hsummary, images, himages, hplace, ?_, ?_⟩
  · rintro ⟨name, bytes⟩ hf
    rw [hwrote.look]
    rw [← map_fst_files himages] at hnodup
    exact seenAfter_of_mem hnodup hf
  · intro other hother
    rw [hwrote.look, seenAfter_of_notMem hother]
    exact hgrows.look other

end Run

end CenterOfMass
