import CenterOfMass.Analysis.Package
import CenterOfMass.Proofs.Analysis.ResultSet
import CenterOfMass.Proofs.Field.Basic
import CenterOfMass.Proofs.Image.Pixel
import CenterOfMass.Proofs.Image.Range

namespace CenterOfMass

namespace ShiftField

variable {R : Type}

/-- The keys of a field's results, in order. -/
def keys : ShiftField R → List String
  | .real _ => ["field", "magnitude", "divergence", "curl", "x", "y"]
  | .complex _ => ["x_real", "y_real", "x_imag", "y_imag"]

theorem nodup_keys (field : ShiftField R) : field.keys.Nodup := by
  cases field <;> simp [keys]

/-- The values of a field's results under their names, in order. -/
def named : ShiftField R → List (String × RawData R)
  | .real f => [("field", .pair f.x f.y), ("magnitude", .single f.magnitude),
      ("divergence", .single f.divergence), ("curl", .single f.curl), ("x", .single f.x),
      ("y", .single f.y)]
  | .complex f => [("x_real", .single f.xReal), ("y_real", .single f.yReal),
      ("x_imag", .single f.xImag), ("y_imag", .single f.yImag)]

theorem map_key_of_named {field : ShiftField R} {entries : List (Entry R)}
    (h : entries.map (fun e => (e.key, e.raw)) = field.named) :
    entries.map Entry.key = field.keys := by
  have hnames : field.named.map Prod.fst = field.keys := by cases field <;> rfl
  rw [← hnames, ← h, List.map_map]
  rfl

theorem shape_of_mem_named {field : ShiftField R} {shape : Nat × Nat}
    (hshape : ∀ g ∈ field.grids, g.shape = shape) : ∀ p ∈ field.named, p.2.shape = shape := by
  cases field with
  | real f =>
    simp only [grids, List.forall_mem_cons] at hshape
    simp only [named, List.forall_mem_cons, RawData.shape]
    tauto
  | complex f =>
    simp only [grids, List.forall_mem_cons] at hshape
    simp only [named, List.forall_mem_cons, RawData.shape]
    tauto

end ShiftField

/-- A table whose image fits into a block of memory, with a byte to spare for every pixel. -/
def Grid.Drawable {α : Type} (g : Grid α) : Prop := 4 * (g.rows * g.cols) < Word.memoryLimit

variable {R : Type} [Scalar R]

/-- The colors of a map, whose finite values are stretched over the whole colormap. -/
def Settings.mapColors (settings : Settings R) (map : Grid R) : Grid Color :=
  let scaled := map.map (scaledValue settings.logarithmic (colorRange map.cells).1)
  let range := colorRange scaled.cells
  scaled.map fun v => settings.colormap.color (position range.1 range.2 v)

/-- The colors of a vector field, whose longest vector is fully saturated. -/
def Settings.vectorColors (settings : Settings R) (x y : Grid R) (h : y.shape = x.shape) :
    Grid Color :=
  .zipWith (settings.wheel.vectorColor (Wheel.longest y.cells x.cells)) y x h

namespace Entry

variable (settings : Settings R) (key title description : String)

theorem ofMap_eq_ok {map : Grid R} (h : map.Drawable) :
    ofMap settings key title description map =
      .ok { raw := .single map, image := (settings.mapColors map).image, key, title,
            description } := by
  have hsize : map.cells.size = map.cols * map.rows := by rw [map.size_eq, Nat.mul_comm]
  have hmemory : 3 * (map.cols * map.rows) < Word.memoryLimit := by
    unfold Grid.Drawable at h
    rw [Nat.mul_comm map.cols]
    omega
  unfold ofMap
  rw [visualize_eq_ok _ _ hsize hmemory, scaledValues_eq_map]
  unfold Settings.mapColors Grid.image colorBytes
  simp only [Grid.map, Array.toList_map, List.flatMap_map]
  rfl

theorem ofVectors_eq_ok {x y : Grid R} (hshape : y.shape = x.shape) (h : x.Drawable) :
    ofVectors settings key title description x y =
      .ok { raw := .pair x y, image := (settings.vectorColors x y hshape).image, key, title,
            description, inDownload := false } := by
  have hx : x.cells.size = x.cols * x.rows := by rw [x.size_eq, Nat.mul_comm]
  have hy : y.cells.size = x.cols * x.rows := by
    rw [y.size_eq, Grid.rows_eq hshape, Grid.cols_eq hshape, Nat.mul_comm]
  have harea : Sizes.checked.mul x.cols x.rows = .ok (x.cols * x.rows) := by
    have hlimit := Word.limit_eq
    unfold Grid.Drawable at h
    apply Sizes.mul_eq_ok
    rw [Nat.mul_comm]
    omega
  have himage : settings.wheel.render y.cells x.cells x.cols x.rows none =
      .ok (settings.vectorColors x y hshape).image := by
    unfold Wheel.render Settings.vectorColors Grid.image
    rw [harea, ok_bind, if_neg (by omega), Grid.toList_zipWith, ← Grid.rows_eq hshape,
      ← Grid.cols_eq hshape]
    rfl
  unfold ofVectors
  rw [himage]
  rfl

/-- An entry whose image is that of its values, and which is handed out unless its values are those
of the vector field. -/
def Drawn (e : Entry R) : Prop :=
  (e.inDownload = true ↔ e.key ≠ "field") ∧
    match e.raw with
    | .single map => e.image = (settings.mapColors map).image
    | .pair x y => ∃ h, e.image = (settings.vectorColors x y h).image

end Entry

namespace ShiftField

/-- A field of maps of one shape has all its entries as soon as their images fit into memory. -/
theorem entries_eq_ok {field : ShiftField R} (settings : Settings R) {shape : Nat × Nat}
    (hshape : ∀ g ∈ field.grids, g.shape = shape) (hdraw : ∀ g ∈ field.grids, g.Drawable) :
    ∃ entries, field.entries settings = .ok entries ∧
      entries.map (fun e => (e.key, e.raw)) = field.named ∧ ∀ e ∈ entries, e.Drawn settings := by
  cases field with
  | real f =>
    simp only [grids, List.forall_mem_cons] at hshape hdraw
    obtain ⟨hx, hy, hmagnitude, hdivergence, hcurl, -⟩ := hdraw
    have hyx : f.y.shape = f.x.shape := hshape.2.1.trans hshape.1.symm
    unfold entries
    simp only [Entry.ofVectors_eq_ok settings _ _ _ hyx hx,
      Entry.ofMap_eq_ok settings _ _ _ hmagnitude, Entry.ofMap_eq_ok settings _ _ _ hdivergence,
      Entry.ofMap_eq_ok settings _ _ _ hcurl, Entry.ofMap_eq_ok settings _ _ _ hx,
      Entry.ofMap_eq_ok settings _ _ _ hy, ok_bind, pure_eq_ok]
    refine ⟨_, rfl, rfl, ?_⟩
    simp [Entry.Drawn, hyx]
  | complex f =>
    simp only [grids, List.forall_mem_cons] at hdraw
    obtain ⟨hxReal, hyReal, hxImag, hyImag, -⟩ := hdraw
    unfold entries
    simp only [Entry.ofMap_eq_ok settings _ _ _ hxReal, Entry.ofMap_eq_ok settings _ _ _ hyReal,
      Entry.ofMap_eq_ok settings _ _ _ hxImag, Entry.ofMap_eq_ok settings _ _ _ hyImag, ok_bind,
      pure_eq_ok]
    refine ⟨_, rfl, rfl, ?_⟩
    simp [Entry.Drawn]

/-- The results of a field are its entries. -/
theorem resultSet_eq_ok_iff {field : ShiftField R} {settings : Settings R} {s : ResultSet R} :
    field.resultSet settings = .ok s ↔ field.entries settings = .ok s.entries := by
  unfold resultSet
  rw [bind_eq_ok_iff]
  constructor
  · rintro ⟨entries, hentries, h⟩
    rw [hentries, ResultSet.ofEntries_eq_ok_iff.mp h]
  · intro h
    exact ⟨s.entries, h, ResultSet.ofEntries_eq_ok_iff.mpr rfl⟩

theorem resultSet_eq_ok {field : ShiftField R} (settings : Settings R) {shape : Nat × Nat}
    (hshape : ∀ g ∈ field.grids, g.shape = shape) (hdraw : ∀ g ∈ field.grids, g.Drawable) :
    ∃ s, field.resultSet settings = .ok s ∧
      s.entries.map (fun e => (e.key, e.raw)) = field.named ∧
        ∀ e ∈ s.entries, e.Drawn settings := by
  obtain ⟨entries, hentries, hnamed, hdrawn⟩ := entries_eq_ok settings hshape hdraw
  have hnodup : (entries.map Entry.key).Nodup := by
    rw [map_key_of_named hnamed]
    exact field.nodup_keys
  exact ⟨⟨entries, hnodup⟩, resultSet_eq_ok_iff.mpr hentries, hnamed, hdrawn⟩

end ShiftField

end CenterOfMass
