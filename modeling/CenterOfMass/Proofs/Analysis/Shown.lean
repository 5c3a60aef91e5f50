import CenterOfMass.Proofs.Analysis.Package
import CenterOfMass.Proofs.Image.Place
import CenterOfMass.Proofs.Image.Vectors

namespace CenterOfMass

variable {R : Type} [Scalar R]

/-- The finite values of a table. -/
def Grid.HasFinite (g : Grid R) (v : R) : Prop :=
  Extended.isFinite v = true ∧ ∃ row col, g.get? row col = some v

/-- The finite lengths of the vectors with the given components. -/
def HasFiniteLength (y x : Grid R) (m : R) : Prop :=
  Extended.isFinite m = true ∧
    ∃ row col, Option.map₂ Elementary.hypot (y.get? row col) (x.get? row col) = some m

/-- The value that a color is taken for: as it is, or the logarithm of its distance from the least
value of its map, which itself counts as one. -/
def Settings.drawn (settings : Settings R) (least v : R) : R :=
  if settings.logarithmic then Elementary.log (v - least + Nat.cast 1) else v

/-- An image shows a map when the color at a place is that of the part of the way which the value
there has come through the range of all finite ones, as they are drawn. It shows a vector field when
the color is that of the direction of the vector there and of its length in parts of the longest
finite one. -/
def RawData.ShownIn (settings : Settings R) (rows cols : Nat) (image : Image) : RawData R → Prop
  | .single map => ∃ least greatest low high,
      IsRange map.HasFinite least greatest ∧
      IsRange (map.map (settings.drawn least)).HasFinite low high ∧
      image.Shows rows cols fun row col => (map.get? row col).map fun v =>
        settings.colormap.color (normalized low high (settings.drawn least v))
  | .pair x y => ∃ longest,
      IsExtreme (· > ·) (fun m => m = Nat.cast 0 ∨ HasFiniteLength y x m) longest ∧
      image.Shows rows cols fun row col =>
        Option.map₂ (fun vy vx => settings.wheel.color (Wheel.shownAngle longest vy vx)
          (Wheel.shownSaturation longest vy vx)) (y.get? row col) (x.get? row col)

theorem RawData.ShownIn.exists_shows {settings : Settings R} {rows cols : Nat} {image : Image}
    {raw : RawData R} (h : raw.ShownIn settings rows cols image) :
    ∃ color, image.Shows rows cols color := by
  cases raw with
  | single map =>
    obtain ⟨_, _, _, _, -, -, hshows⟩ := h
    exact ⟨_, hshows⟩
  | pair x y =>
    obtain ⟨_, -, hshows⟩ := h
    exact ⟨_, hshows⟩

section Order

variable (order : OrdersFinite (R := R) (· < ·))

include order

theorem isRange_grid (g : Grid R) :
    IsRange g.HasFinite (colorRange g.cells).1 (colorRange g.cells).2 := by
  have hrange := isRange_colorRange order g.cells
  simp only [Grid.mem_toList_iff] at hrange
  exact hrange

theorem isExtreme_longest_grid (hzero : Extended.isFinite (Nat.cast 0 : R) = true) {y x : Grid R}
    (h : y.shape = x.shape) :
    IsExtreme (· > ·) (fun m => m = Nat.cast 0 ∨ HasFiniteLength y x m)
      (Wheel.longest y.cells x.cells) := by
  have hlongest := isExtreme_longest order hzero y.cells x.cells
  simp only [← Grid.toList_zipWith Elementary.hypot h, Grid.mem_toList_iff,
    Grid.get?_zipWith_eq_map₂] at hlongest
  exact hlongest

variable (settings : Settings R) {rows cols : Nat} (hword : 3 * (rows * cols) < Word.limit)

include hword

theorem shownIn_mapColors {map : Grid R} (hshape : map.shape = (rows, cols)) :
    (RawData.single map).ShownIn settings rows cols (settings.mapColors map).image := by
  obtain ⟨rfl, rfl⟩ := Prod.mk.inj hshape
  let scaled := map.map (settings.drawn (colorRange map.cells).1)
  refine ⟨_, _, _, _, isRange_grid order map, isRange_grid order scaled, ?_⟩
  have hcolors : (settings.mapColors map).get? = fun row col => (map.get? row col).map fun v =>
      settings.colormap.color (normalized (colorRange scaled.cells).1 (colorRange scaled.cells).2
        (settings.drawn (colorRange map.cells).1 v)) := by
    funext row col
    unfold Settings.mapColors
    rw [Grid.get?_map, Grid.get?_map, Option.map_map]
    simp only [← position_eq_normalized]
    rfl
  rw [← hcolors]
  exact Grid.image_shows hword

theorem shownIn_vectorColors (hzero : Extended.isFinite (Nat.cast 0 : R) = true) {x y : Grid R}
    (h : y.shape = x.shape) (hshape : x.shape = (rows, cols)) :
    (RawData.pair x y).ShownIn settings rows cols (settings.vectorColors x y h).image := by
  obtain ⟨rfl, rfl⟩ := Prod.mk.inj (h.trans hshape)
  refine ⟨_, isExtreme_longest_grid order hzero h, ?_⟩
  have hcolors : (settings.vectorColors x y h).get? = fun row col =>
      Option.map₂ (fun vy vx => settings.wheel.color
          (Wheel.shownAngle (Wheel.longest y.cells x.cells) vy vx)
          (Wheel.shownSaturation (Wheel.longest y.cells x.cells) vy vx))
        (y.get? row col) (x.get? row col) := by
    funext row col
    simp only [← Wheel.vectorColor_eq]
    exact Grid.get?_zipWith_eq_map₂ _ h
  rw [← hcolors]
  exact Grid.image_shows hword

theorem Entry.Drawn.shownIn (hzero : Extended.isFinite (Nat.cast 0 : R) = true) {e : Entry R}
    (h : e.Drawn settings) (hshape : e.raw.shape = (rows, cols)) :
    e.raw.ShownIn settings rows cols e.image := by
  obtain ⟨raw, image, key, title, description, inDownload⟩ := e
  obtain ⟨-, himage⟩ := h
  cases raw with
  | single map =>
    obtain rfl : image = _ := himage
    exact shownIn_mapColors order settings hword hshape
  | pair x y =>
    obtain ⟨hyx, rfl⟩ : ∃ hyx, image = (settings.vectorColors x y hyx).image := himage
    exact shownIn_vectorColors order settings hword hzero hyx hshape

end Order

/-- The results of a field of maps of one shape: the maps under their names, no name twice, with
only the vector field kept out of the download, and every map in the colors of its own values. -/
theorem ShiftField.resultSet_shows {field : ShiftField Float} (settings : Settings Float)
    {rows cols : Nat} (hshape : ∀ g ∈ field.grids, g.shape = (rows, cols))
    (hmemory : 4 * (rows * cols) < Word.memoryLimit) :
    ∃ s, field.resultSet settings = .ok s ∧
      s.entries.map (fun e => (e.key, e.raw)) = field.named ∧ (s.entries.map Entry.key).Nodup ∧
      ∀ e ∈ s.entries, (e.inDownload = true ↔ e.key ≠ "field") ∧
        e.raw.ShownIn settings rows cols e.image := by
  have hdraw : ∀ g ∈ field.grids, g.Drawable := by
    intro g hg
    obtain ⟨rfl, rfl⟩ := Prod.mk.inj (hshape g hg)
    exact hmemory
  have hword : 3 * (rows * cols) < Word.limit := by
    have hlimit := Word.limit_eq
    omega
  obtain ⟨s, hs, hnamed, hdrawn⟩ := resultSet_eq_ok settings hshape hdraw
  refine ⟨s, hs, hnamed, s.keys_nodup, ?_⟩
  intro e he
  have hmem : (e.key, e.raw) ∈ field.named := by
    rw [← hnamed]
    exact List.mem_map_of_mem he
  have hraw : e.raw.shape = (rows, cols) := shape_of_mem_named hshape _ hmem
  have hzero : Extended.isFinite (Nat.cast 0 : Float) = true := by decide
  exact ⟨(hdrawn e he).1, (hdrawn e he).shownIn ordersFinite_double settings hword hzero hraw⟩

/-- Two rows of three vectors that differ along the rows only. -/
def wideField : RealField Float where
  x := .ofFn 2 3 fun _ j => if j.val = 0 then 0 else 1
  y := .ofFn 2 3 fun _ _ => 2
  magnitude := .ofFn 2 3 fun _ j => if j.val = 0 then 2 else 3
  divergence := .ofFn 2 3 fun _ _ => 0
  curl := .ofFn 2 3 fun _ _ => 0

theorem resultSet_shows_wide :
    (∀ g ∈ (ShiftField.real wideField).grids, g.shape = (2, 3)) ∧ 4 * (2 * 3) < Word.memoryLimit ∧
      ∃ s, (ShiftField.real wideField).resultSet .standard = .ok s ∧
        s.entries.map (fun e => (e.key, e.raw)) = (ShiftField.real wideField).named ∧
        ∀ e ∈ s.entries, (∃ color, e.image.pixel 1 2 = .ok (some color)) ∧
          e.image.pixel 2 1 = .ok none := by
  have hshape : ∀ g ∈ (ShiftField.real wideField).grids, g.shape = (2, 3) := by
    simp [ShiftField.grids, wideField]
  have hmemory : 4 * (2 * 3) < Word.memoryLimit := by decide
  obtain ⟨s, hs, hnamed, -, hshown⟩ := ShiftField.resultSet_shows .standard hshape hmemory
  refine ⟨hshape, hmemory, s, hs, hnamed, fun e he => ?_⟩
  obtain ⟨color, hcolor⟩ := (hshown e he).2.exists_shows
  have hinside := (hcolor.isSome_iff 1 2).mpr ⟨by decide, by decide⟩
  have houtside : ¬ (color 2 1).isSome := by
    rw [hcolor.isSome_iff]
    decide
  constructor
  · obtain ⟨c, hc⟩ := Option.isSome_iff_exists.mp hinside
    exact ⟨c, by rw [hcolor.pixel_eq, hc]⟩
  · rw [hcolor.pixel_eq, Option.not_isSome_iff_eq_none.mp houtside]

end CenterOfMass
