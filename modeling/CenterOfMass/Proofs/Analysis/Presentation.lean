import CenterOfMass.Analysis.Basic
import CenterOfMass.Proofs.Field.Basic
import CenterOfMass.Proofs.Image.Agreement
import Mathlib.Data.List.Forall2

namespace CenterOfMass

variable {R : Type} [Scalar R]

/-- Results that differ at most in their images, and only where these are drawn by settings that
differ: the vector field by the wheel, every map by the colormap and its scale. -/
structure Entry.AgreesUnder (c c' : Settings R) (e e' : Entry R) : Prop where
  key_eq : e.key = e'.key
  title_eq : e.title = e'.title
  description_eq : e.description = e'.description
  inDownload_eq : e.inDownload = e'.inDownload
  raw_eq : e.raw = e'.raw
  field_image_eq : e.key = "field" → c.wheel = c'.wheel → e.image = e'.image
  map_image_eq : e.key ≠ "field" → c.colormap = c'.colormap → c.logarithmic = c'.logarithmic →
    e.image = e'.image

variable (c c' : Settings R)

namespace Entry

theorem agree_ofMap {key : String} (hkey : key ≠ "field") (title description : String)
    (map : Grid R) : Agree Failure.Later (AgreesUnder c c')
      (ofMap c key title description map) (ofMap c' key title description map) := by
  unfold ofMap
  apply Agree.bind (agree_visualize _ _ _ _ map.cells map.cols map.rows .checked)
  intro image image' himage
  apply Agree.ok
  exact ⟨rfl, rfl, rfl, rfl, rfl, fun hfield => absurd hfield hkey, fun _ => himage⟩

theorem agree_ofVectors (title description : String) (x y : Grid R) :
    Agree Failure.Later (AgreesUnder c c') (ofVectors c "field" title description x y)
      (ofVectors c' "field" title description x y) := by
  unfold ofVectors
  apply Agree.bind (Wheel.agree_render c.wheel c'.wheel y.cells x.cells x.cols x.rows none
    .checked)
  intro image image' himage
  apply Agree.ok
  exact ⟨rfl, rfl, rfl, rfl, rfl, fun _ => himage, fun hmap => absurd rfl hmap⟩

omit [Scalar R] in
theorem map_key_of_agreesUnder {c c' : Settings R} {entries entries' : List (Entry R)}
    (h : List.Forall₂ (AgreesUnder c c') entries entries') :
    entries.map key = entries'.map key := by
  induction h with
  | nil => rfl
  | cons hentry _ ih => rw [List.map_cons, List.map_cons, hentry.key_eq, ih]

end Entry

/-- Whether results can be taken together depends on their keys only. -/
theorem ResultSet.agree_ofEntries {R : Type} {rel : Entry R → Entry R → Prop}
    {entries entries' : List (Entry R)} (hkeys : entries.map Entry.key = entries'.map Entry.key)
    (h : List.Forall₂ rel entries entries') :
    Agree Failure.Later (fun s s' => List.Forall₂ rel s.entries s'.entries)
      (ofEntries entries) (ofEntries entries') := by
  unfold ofEntries
  split
  · next key hkey =>
    rw [hkeys] at hkey
    split
    · next key' hkey' =>
      obtain rfl := Option.some.inj (hkey.symm.trans hkey')
      exact .error trivial
    · next hnone => cases hkey.symm.trans hnone
  · next hnone =>
    rw [hkeys] at hnone
    split
    · next key' hkey' => cases hnone.symm.trans hkey'
    · exact .ok h

namespace ShiftField

theorem agree_entries (field : ShiftField R) :
    Agree Failure.Later (List.Forall₂ (Entry.AgreesUnder c c'))
      (field.entries c) (field.entries c') := by
  have hmap {key : String} (hkey : key ≠ "field") := Entry.agree_ofMap c c' hkey
  cases field with
  | real f =>
    apply Agree.bind (Entry.agree_ofVectors c c' _ _ f.x f.y)
    intro _ _ hfield
    apply Agree.bind (hmap (by decide) _ _ f.magnitude)
    intro _ _ hmagnitude
    apply Agree.bind (hmap (by decide) _ _ f.divergence)
    intro _ _ hdivergence
    apply Agree.bind (hmap (by decide) _ _ f.curl)
    intro _ _ hcurl
    apply Agree.bind (hmap (by decide) _ _ f.x)
    intro _ _ hx
    apply Agree.bind (hmap (by decide) _ _ f.y)
    intro _ _ hy
    apply Agree.ok
    exact .cons hfield (.cons hmagnitude (.cons hdivergence (.cons hcurl
      (.cons hx (.cons hy .nil)))))
  | complex f =>
    apply Agree.bind (hmap (by decide) _ _ f.xReal)
    intro _ _ hxReal
    apply Agree.bind (hmap (by decide) _ _ f.yReal)
    intro _ _ hyReal
    apply Agree.bind (hmap (by decide) _ _ f.xImag)
    intro _ _ hxImag
    apply Agree.bind (hmap (by decide) _ _ f.yImag)
    intro _ _ hyImag
    apply Agree.ok
    exact .cons hxReal (.cons hyReal (.cons hxImag (.cons hyImag .nil)))

theorem agree_resultSet (field : ShiftField R) :
    Agree Failure.Later (fun s s' => List.Forall₂ (Entry.AgreesUnder c c') s.entries s'.entries)
      (field.resultSet c) (field.resultSet c') := by
  apply Agree.bind (field.agree_entries c c')
  intro entries entries' h
  exact ResultSet.agree_ofEntries (Entry.map_key_of_agreesUnder h) h

end ShiftField

namespace Analysis

theorem failsOnly_compute (a : Analysis R) (maps : ReductionMaps R) :
    FailsOnly Failure.Later (a.compute maps) := by
  unfold compute
  split
  · exact .error trivial
  · exact ShiftField.failsOnly_ofMaps _ _ maps

/-- Settings decide neither whether there are results, or why there are none, nor what values they
have. Each image is drawn by the settings of its own kind alone. -/
theorem results_agree_under_settings (a : Analysis R) (maps : ReductionMaps R) :
    Agree Failure.Later (fun s s' => List.Forall₂ (Entry.AgreesUnder c c') s.entries s'.entries)
      ((a.withSettings c).results maps) ((a.withSettings c').results maps) := by
  -- both runs go through one and the same field
  have hfield : Agree Failure.Later Eq ((a.withSettings c).compute maps)
      ((a.withSettings c').compute maps) :=
    .refl (a.failsOnly_compute maps) fun _ => rfl
  apply hfield.bind
  rintro field _ rfl
  exact field.agree_resultSet c c'

end Analysis

end CenterOfMass
