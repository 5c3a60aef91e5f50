import CenterOfMass.Image.Wheel
import CenterOfMass.Proofs.Image.Render

namespace CenterOfMass

theorem rel_of_map_eq {α β : Type} {f : α → β} {o o' : Option α} (h : o.map f = o'.map f) :
    Option.Rel (fun a b => f a = f b) o o' := by
  cases o <;> cases o' <;> simp_all

theorem Agree.length_mapM {ε α β γ : Type} {reported : ε → Prop} {rel : β → γ → Prop}
    {f : α → Except ε β} {g : α → Except ε γ} (h : ∀ a, Agree reported rel (f a) (g a))
    (l : List α) : Agree reported (fun bs cs => bs.length = cs.length) (l.mapM f) (l.mapM g) := by
  induction l with
  | nil => exact .ok rfl
  | cons a l ih =>
    rw [List.mapM_cons, List.mapM_cons]
    apply (h a).bind
    intro b c _
    apply ih.bind
    intro bs cs hrest
    exact .ok (congrArg Nat.succ hrest)

/-- A size is counted once for both. -/
theorem Sizes.agree_hold {reported : Failure → Prop} (hreported : reported .outOfRange) (s : Sizes)
    (n : Nat) : Agree reported Eq (s.hold n) (s.hold n) := by
  apply Agree.refl _ fun _ => rfl
  intro e h
  rwa [Sizes.hold_eq_error h]

theorem agree_valueAt {α : Type} {values values' : Array α} (hsize : values.size = values'.size)
    (width row col : Nat) (sizes : Sizes) :
    Agree Failure.Later (fun _ _ => True) (valueAt values width row col sizes)
      (valueAt values' width row col sizes) := by
  apply (sizes.agree_hold trivial _).bind
  rintro start _ rfl
  apply (sizes.agree_hold trivial _).bind
  rintro place _ rfl
  by_cases hplace : place < values.size
  · rw [Array.getElem?_eq_getElem hplace, Array.getElem?_eq_getElem (hsize ▸ hplace)]
    exact .ok trivial
  · rw [Array.getElem?_eq_none (by omega), Array.getElem?_eq_none (by omega)]
    exact .error trivial

section Draw

variable {R : Type} [Sub R] [Div R] [NatCast R] [LE R] [DecidableLE R] [LT R] [DecidableLT R]
  [Extended R] {color color' : R → Color} {values values' : Array R} {low high low' high' : R}

/-- Whether a row can be drawn, and how many bytes it takes, depends on sizes only. -/
theorem agree_rowBytes (hsize : values.size = values'.size) (width row : Nat)
    {piece piece' : List UInt8} (hpiece : piece.length = piece'.length) (sizes : Sizes) :
    Agree Failure.Later (fun bytes bytes' => bytes.length = bytes'.length)
      (rowBytes color values low high width row piece sizes)
      (rowBytes color' values' low' high' width row piece' sizes) := by
  unfold rowBytes
  rw [hpiece]
  split
  · apply (Agree.length_mapM (fun x => agree_valueAt hsize width row x sizes) _).bind
    intro vs vs' hvs
    have hbytes := length_colorBytes color low high vs
    have hbytes' := length_colorBytes color' low' high' vs'
    apply Agree.ok
    unfold colorBytes at hbytes hbytes'
    rw [hbytes, hbytes', hvs]
  · exact .error trivial

/-- Pieces of an image that are as long in one drawing as they are in another. -/
def SameLengths (done done' : Array (List UInt8)) : Prop :=
  done.map List.length = done'.map List.length

theorem SameLengths.setIfInBounds {done done' : Array (List UInt8)} (h : SameLengths done done')
    (row : Nat) {bytes bytes' : List UInt8} (hbytes : bytes.length = bytes'.length) :
    SameLengths (done.setIfInBounds row bytes) (done'.setIfInBounds row bytes') := by
  unfold SameLengths at h ⊢
  rw [Array.map_setIfInBounds, Array.map_setIfInBounds, h, hbytes]

theorem SameLengths.rel_getElem? {done done' : Array (List UInt8)} (h : SameLengths done done')
    (row : Nat) :
    Option.Rel (fun piece piece' => piece.length = piece'.length) done[row]? done'[row]? := by
  apply rel_of_map_eq
  rw [← Array.getElem?_map, ← Array.getElem?_map, h]

theorem agree_drawRow (hsize : values.size = values'.size) (width row : Nat)
    {done done' : Array (List UInt8)} (h : SameLengths done done') (sizes : Sizes) :
    Agree Failure.Later SameLengths (drawRow color values low high width sizes done row)
      (drawRow color' values' low' high' width sizes done' row) := by
  have hpiece := h.rel_getElem? row
  unfold drawRow
  generalize done[row]? = piece at *
  generalize done'[row]? = piece' at *
  cases hpiece with
  | none => exact .ok h
  | some hpiece =>
    apply Agree.bind (agree_rowBytes hsize width row hpiece sizes)
    intro bytes bytes' hbytes
    exact .ok (h.setIfInBounds row hbytes)

/-- Whether an image can be drawn depends on sizes only, in whatever order its rows are drawn. -/
theorem agree_renderGridIn (arrange : List Nat → List Nat) (hsize : values.size = values'.size)
    (width height : Nat) (sizes : Sizes) :
    Agree Failure.Later (fun _ _ => True)
      (renderGridIn arrange color values low high width height sizes)
      (renderGridIn arrange color' values' low' high' width height sizes) := by
  unfold renderGridIn
  simp only [hsize]
  apply (sizes.agree_hold trivial _).bind
  rintro count _ rfl
  apply (sizes.agree_hold trivial _).bind
  rintro size _ rfl
  split
  · exact .error trivial
  split
  · exact .ok trivial
  split
  · exact .error trivial
  apply (sizes.agree_hold trivial _).bind
  rintro stride _ rfl
  apply Agree.bind
    (Agree.foldlM _ (fun _ _ row hdone => agree_drawRow hsize width row hdone sizes) rfl)
  intro done done' _
  exact .ok trivial

end Draw

variable {R : Type} [Scalar R]

theorem agree_visualize (map map' : Colormap) (logarithmic logarithmic' : Bool) (values : Array R)
    (width height : Nat) (sizes : Sizes) : Agree Failure.Later
      (fun image image' => map = map' → logarithmic = logarithmic' → image = image')
      (visualize map logarithmic values width height sizes)
      (visualize map' logarithmic' values width height sizes) := by
  have hscaled :
      (scaledValues logarithmic values).size = (scaledValues logarithmic' values).size := by
    rw [size_scaledValues, size_scaledValues]
  have hdrawn : Agree Failure.Later (fun _ _ => True)
      (visualize map logarithmic values width height sizes)
      (visualize map' logarithmic' values width height sizes) := by
    unfold visualize
    apply (sizes.agree_hold trivial _).bind
    rintro count _ rfl
    split
    · exact .error trivial
    · apply Agree.bind (agree_renderGridIn id hscaled width height sizes)
      intro pixels pixels' _
      exact .ok trivial
  by_cases hsame : map = map' ∧ logarithmic = logarithmic'
  · obtain ⟨rfl, rfl⟩ := hsame
    exact .refl hdrawn.failsOnly fun _ _ _ => rfl
  · apply hdrawn.mono
    intro image image' _ hmap hlogarithmic
    exact absurd ⟨hmap, hlogarithmic⟩ hsame

theorem Wheel.agree_render (w w' : Wheel R) (y x : Array R) (width height : Nat)
    (vmax : Option R) (sizes : Sizes) :
    Agree Failure.Later (fun image image' => w = w' → image = image')
      (w.render y x width height vmax sizes) (w'.render y x width height vmax sizes) := by
  unfold render
  apply (sizes.agree_hold trivial _).bind
  rintro count _ rfl
  split
  · exact .error trivial
  · apply Agree.ok
    rintro rfl
    rfl

end CenterOfMass
