import CenterOfMass.Proofs.Image.Agreement
import CenterOfMass.Proofs.Image.Logarithm

namespace CenterOfMass

theorem FailsOnly.foldlM {ε α γ : Type} {reported : ε → Prop} {f : α → γ → Except ε α}
    (hstep : ∀ a c, FailsOnly reported (f a c)) (steps : List γ) (a : α) :
    FailsOnly reported (steps.foldlM f a) := by
  induction steps generalizing a with
  | nil => exact .ok a
  | cons c steps ih =>
    rw [List.foldlM_cons]
    exact (hstep a c).bind ih

theorem FailsOnly.mapM {ε α β : Type} {reported : ε → Prop} {f : α → Except ε β}
    (hstep : ∀ a, FailsOnly reported (f a)) (l : List α) : FailsOnly reported (l.mapM f) := by
  induction l with
  | nil => exact .ok []
  | cons a l ih =>
    rw [List.mapM_cons]
    exact (hstep a).bind fun b => ih.bind fun bs => .ok _

theorem length_of_mapM {ε α β : Type} {f : α → Except ε β} {l : List α} {bs : List β}
    (h : l.mapM f = .ok bs) : bs.length = l.length := by
  induction l generalizing bs with
  | nil =>
    obtain rfl := Except.ok.inj h
    rfl
  | cons a l ih =>
    rw [List.mapM_cons] at h
    obtain ⟨b, -, h⟩ := bind_eq_ok_iff.mp h
    obtain ⟨rest, hrest, h⟩ := bind_eq_ok_iff.mp h
    obtain rfl := Except.ok.inj h
    exact congrArg Nat.succ (ih hrest)

theorem Sizes.failsOnly_hold (s : Sizes) (n : Nat) : FailsOnly (· = .outOfRange) (s.hold n) :=
  fun _ => Sizes.hold_eq_error

theorem failsOnly_valueAt {α : Type} {values : Array α} {width : Nat} {sizes : Sizes}
    (row col : Nat) :
    FailsOnly (· = .outOfRange) (valueAt values width row col sizes) := by
  apply (sizes.failsOnly_hold _).bind
  intro start
  apply (sizes.failsOnly_hold _).bind
  intro place
  split
  · exact .ok _
  · exact .error rfl

section Draw

variable {R : Type} [Sub R] [Div R] [NatCast R] [LE R] [DecidableLE R] [LT R] [DecidableLT R]
  [Extended R] {color : R → Color} {values : Array R} {low high : R} {width height : Nat}
  {sizes : Sizes}

/-- A row that is drawn fills its piece. -/
theorem length_of_rowBytes {row : Nat} {piece bytes : List UInt8}
    (h : rowBytes color values low high width row piece sizes = .ok bytes) :
    piece.length = 3 * width ∧ bytes.length = 3 * width := by
  unfold rowBytes at h
  split at h
  · next hpiece =>
    obtain ⟨vs, hvs, h⟩ := bind_eq_ok_iff.mp h
    obtain rfl := Except.ok.inj h
    have hbytes := length_colorBytes color low high vs
    rw [length_of_mapM hvs, List.length_range] at hbytes
    exact ⟨hpiece, hbytes⟩
  · cases h

theorem failsOnly_rowBytes (row : Nat) (piece : List UInt8) :
    FailsOnly (· = .outOfRange) (rowBytes color values low high width row piece sizes) := by
  unfold rowBytes
  split
  · exact (FailsOnly.mapM (fun x => failsOnly_valueAt row x) _).bind fun vs => .ok _
  · exact .error rfl

theorem failsOnly_drawRow (done : Array (List UInt8)) (row : Nat) :
    FailsOnly (· = .outOfRange) (drawRow color values low high width sizes done row) := by
  unfold drawRow
  split
  · exact (failsOnly_rowBytes row _).bind fun bytes => .ok _
  · exact .ok done

/-- All pieces keep their lengths, and the piece of the row has the length of a row. -/
theorem sameLengths_of_drawRow {done drawn : Array (List UInt8)} {row : Nat}
    (h : drawRow color values low high width sizes done row = .ok drawn) :
    SameLengths done drawn ∧ ∀ piece, done[row]? = some piece → piece.length = 3 * width := by
  unfold drawRow at h
  split at h
  · next piece hpiece =>
    obtain ⟨bytes, hbytes, hset⟩ := bind_eq_ok_iff.mp h
    obtain rfl := Except.ok.inj hset
    obtain ⟨hlength, hlength'⟩ := length_of_rowBytes hbytes
    constructor
    · unfold SameLengths
      refine Array.ext_getElem? fun i => ?_
      rw [Array.map_setIfInBounds, Array.getElem?_setIfInBounds]
      split
      · next hrow =>
        subst hrow
        obtain ⟨hlt, hget⟩ := Array.getElem?_eq_some_iff.mp hpiece
        rw [if_pos (by simpa using hlt), Array.getElem?_map, hpiece, Option.map_some, hlength,
          hlength']
      · rfl
    · rintro piece' hpiece'
      rw [hpiece] at hpiece'
      obtain rfl := Option.some.inj hpiece'
      exact hlength
  · next hnone =>
    obtain rfl := Except.ok.inj h
    refine ⟨rfl, fun piece hpiece => ?_⟩
    rw [hnone] at hpiece
    cases hpiece

/-- Where all the rows can be drawn, the pieces they are drawn into have the length of a row. -/
theorem length_of_foldlM_drawRow {rows : List Nat} {done drawn : Array (List UInt8)}
    (h : rows.foldlM (drawRow color values low high width sizes) done = .ok drawn) :
    ∀ row ∈ rows, ∀ piece, done[row]? = some piece → piece.length = 3 * width := by
  induction rows generalizing done with
  | nil => exact fun _ hrow => absurd hrow List.not_mem_nil
  | cons first rows ih =>
    rw [List.foldlM_cons] at h
    obtain ⟨next, hfirst, hrest⟩ := bind_eq_ok_iff.mp h
    obtain ⟨hlengths, hlength⟩ := sameLengths_of_drawRow hfirst
    intro row hrow piece hpiece
    rcases List.mem_cons.mp hrow with rfl | hrow
    · exact hlength piece hpiece
    · have hrel := hlengths.rel_getElem? row
      rw [hpiece] at hrel
      cases hnext : next[row]? with
      | none =>
        rw [hnext] at hrel
        cases hrel
      | some piece' =>
        rw [hnext] at hrel
        cases hrel with
        | some hsame => exact hsame.trans (ih hrest row hrow piece' hnext)

/-- Pieces of one length make up a multiple of it. -/
theorem dvd_length_of_chunksOf {α : Type} {n m : Nat} (hn : 0 < n) {l : List α}
    (h : ∀ piece ∈ chunksOf n l, piece.length = m) : m ∣ l.length := by
  have hsum : l.length = ((chunksOf n l).map List.length).sum := by
    rw [← List.length_flatten, flatten_chunksOf hn]
  rw [hsum]
  apply List.dvd_sum
  intro length hlength
  obtain ⟨piece, hpiece, rfl⟩ := List.mem_map.mp hlength
  exact (h piece hpiece).symm.dvd

theorem renderGrid_wrapping_eq_ok_nil (h : width * height % Word.limit = 0) :
    renderGrid color values low high width height .wrapping = .ok #[] := by
  have hcount : Sizes.wrapping.mul width height = .ok 0 := congrArg Except.ok h
  have hsize : Sizes.wrapping.mul 0 3 = .ok 0 := rfl
  unfold renderGrid renderGridIn
  simp only [hcount, ok_bind, hsize, List.replicate_zero, chunksOf_nil]
  rw [if_neg (by decide)]
  split
  · rfl
  · rw [if_neg (Nat.not_lt_zero _)]
    rfl

/-- Sides with a product are no empty ones. -/
theorem sides_pos (h : width * height % Word.limit ≠ 0) : 0 < width ∧ 0 < height := by
  constructor
  · apply Nat.pos_of_ne_zero
    rintro rfl
    exact h (by rw [Nat.zero_mul, Nat.zero_mod])
  · apply Nat.pos_of_ne_zero
    rintro rfl
    exact h (by rw [Nat.mul_zero, Nat.zero_mod])

/-- The bytes of a row do not come to nothing in a word, whose limit is no multiple of three. -/
theorem mul_three_pos {n : Nat} (hpos : 0 < n) (h : n < Word.limit) : 0 < n * 3 % Word.limit := by
  apply Nat.pos_of_ne_zero
  intro hzero
  have hdvd : Word.limit ∣ n * 3 := Nat.dvd_of_mod_eq_zero hzero
  have hcoprime : Nat.Coprime Word.limit 3 := by decide
  exact absurd (Nat.le_of_dvd hpos (hcoprime.dvd_of_dvd_mul_right hdvd)) (Nat.not_le.mpr h)

section Filled

variable (hsize : values.size = width * height % Word.limit)
  (hmemory : 8 * values.size < Word.memoryLimit) (hpixels : values.size ≠ 0)

include hsize hmemory hpixels

/-- What is drawn depends on the sides by the width and the number of pixels only. -/
theorem renderGrid_wrapping_eq_foldlM :
    let pieces :=
      (chunksOf (width * 3 % Word.limit) (List.replicate (3 * values.size) 0)).toArray
    renderGrid color values low high width height .wrapping = (do
      let drawn ← (List.range pieces.size).foldlM
        (drawRow color values low high width .wrapping) pieces
      return drawn.toList.flatten.toArray) := by
  have hlimit := Word.limit_eq
  have hcount : Sizes.wrapping.mul width height = .ok values.size := congrArg Except.ok hsize.symm
  have hbytes : Sizes.wrapping.mul values.size 3 = .ok (3 * values.size) := by
    rw [Sizes.mul_eq_ok _ (by omega), Nat.mul_comm]
  have hthird : 3 * values.size / 3 = values.size := Nat.mul_div_cancel_left _ (by decide)
  obtain ⟨hwidth, hheight⟩ := sides_pos (hsize ▸ hpixels)
  intro pieces
  unfold renderGrid renderGridIn
  simp only [hcount, ok_bind, hbytes, hthird]
  rw [if_neg (by omega), if_neg (by omega), if_neg (lt_irrefl _)]
  rfl

/-- A row that cannot be filled cannot be drawn. -/
theorem dvd_of_renderGrid_wrapping (hwidth : width < Word.limit) {bytes : Array UInt8}
    (h : renderGrid color values low high width height .wrapping = .ok bytes) :
    width ∣ values.size := by
  rw [renderGrid_wrapping_eq_foldlM hsize hmemory hpixels] at h
  obtain ⟨drawn, hdrawn, -⟩ := bind_eq_ok_iff.mp h
  have hstride := mul_three_pos (sides_pos (hsize ▸ hpixels)).1 hwidth
  have hpieces : ∀ piece ∈ chunksOf (width * 3 % Word.limit)
      (List.replicate (3 * values.size) (0 : UInt8)), piece.length = 3 * width := by
    intro piece hpiece
    obtain ⟨row, hrow, hget⟩ := List.mem_iff_getElem.mp hpiece
    refine length_of_foldlM_drawRow hdrawn row (List.mem_range.mpr (by simpa using hrow)) piece ?_
    rw [List.getElem?_toArray, List.getElem?_eq_getElem hrow, hget]
  have hdvd := dvd_length_of_chunksOf hstride hpieces
  rw [List.length_replicate] at hdvd
  exact Nat.dvd_of_mul_dvd_mul_left (by decide) hdvd

end Filled

theorem failsOnly_renderGrid :
    FailsOnly (· = .outOfRange) (renderGrid color values low high width height sizes) := by
  unfold renderGrid renderGridIn
  apply (sizes.failsOnly_hold _).bind
  intro count
  apply (sizes.failsOnly_hold _).bind
  intro size
  dsimp only
  split
  · exact .error rfl
  split
  · exact .ok _
  split
  · exact .error rfl
  apply (sizes.failsOnly_hold _).bind
  intro stride
  exact (FailsOnly.foldlM failsOnly_drawRow _ _).bind fun drawn => .ok _

variable (color low high) in
/-- Where the product of the sides is reduced to a word, every value is drawn if whole rows of the
width hold them all, and none otherwise. -/
theorem renderGrid_wrapping (hsize : values.size = width * height % Word.limit)
    (hmemory : 8 * values.size < Word.memoryLimit) (hwidth : width < Word.limit) :
    renderGrid color values low high width height .wrapping =
      if width ∣ values.size then .ok (colorBytes color low high values.toList).toArray
      else .error .outOfRange := by
  by_cases hpixels : values.size = 0
  · have hnone : values.toList = [] := List.eq_nil_of_length_eq_zero hpixels
    rw [renderGrid_wrapping_eq_ok_nil (hsize.symm.trans hpixels), hpixels,
      if_pos (Nat.dvd_zero _), hnone]
    rfl
  · split_ifs with hdvd
    · obtain ⟨rows, hrows⟩ := hdvd
      have hlimit := Word.limit_eq
      have hproduct : values.size = width * rows % Word.limit := by
        rw [← hrows, Nat.mod_eq_of_lt (by omega)]
      have hall : values.toList.take (rows * width) = values.toList := by
        rw [Nat.mul_comm, ← hrows]
        exact List.take_length
      have hdrawn : renderGrid color values low high width rows .wrapping =
          .ok (colorBytes color low high (values.toList.take (rows * width))).toArray :=
        renderGridIn_eq_ok color low high .wrapping (.refl _) hrows.ge (by omega)
      rw [hall] at hdrawn
      rw [renderGrid_wrapping_eq_foldlM hsize hmemory hpixels,
        ← renderGrid_wrapping_eq_foldlM hproduct hmemory hpixels]
      exact hdrawn
    · cases hdrawn : renderGrid color values low high width height .wrapping with
      | ok bytes =>
        exact absurd (dvd_of_renderGrid_wrapping hsize hmemory hpixels hwidth hdrawn) hdvd
      | error e => rw [failsOnly_renderGrid e hdrawn]

variable (color low high) in
/-- Sides that are held as they are always make up whole rows. -/
theorem renderGrid_eq (hcount : sizes.mul width height = .ok values.size)
    (hmemory : 8 * values.size < Word.memoryLimit) (hwidth : width < Word.limit) :
    renderGrid color values low high width height sizes =
      if width ∣ values.size then .ok (colorBytes color low high values.toList).toArray
      else .error .outOfRange := by
  rcases Sizes.eq_of_mul_eq_ok hcount with hsize | ⟨rfl, hsize⟩
  · have hall : values.toList.take (height * width) = values.toList := by
      rw [Nat.mul_comm, ← hsize]
      exact List.take_length
    have hdrawn : renderGrid color values low high width height sizes = _ :=
      renderGridIn_eq_ok color low high sizes (.refl _) hsize.ge (by omega)
    rw [hdrawn, hall, if_pos (Dvd.intro height hsize.symm)]
  · exact renderGrid_wrapping color low high hsize hmemory hwidth

end Draw

section Visualize

variable {R : Type} [Scalar R]

/-- A table is refused unless its size is the product of the sides as it is held. It is drawn with
all its values if whole rows hold them. -/
theorem visualize_eq (map : Colormap) (logarithmic : Bool) {values : Array R} {width height : Nat}
    (hmemory : 8 * values.size < Word.memoryLimit) (hwidth : width < Word.limit) (sizes : Sizes) :
    visualize map logarithmic values width height sizes = (do
      let n ← sizes.mul width height
      if values.size ≠ n then .error (.render (.values values.size width height))
      else if width ∣ values.size then
        .ok (stretchedImage map values.toList (drawnPlace logarithmic values) width height)
      else .error .outOfRange) := by
  have hscaled := size_scaledValues logarithmic values
  have hlist : (scaledValues logarithmic values).toList =
      values.toList.map (scaledValue logarithmic (colorRange values).1) := by
    rw [scaledValues_eq_map, Array.toList_map]
  unfold visualize
  cases hcount : sizes.mul width height with
  | error => rfl
  | ok n =>
    rw [ok_bind, ok_bind]
    split_ifs with hsize hdvd
    · rfl
    all_goals
      obtain rfl := Decidable.not_not.mp hsize
      have hdrawn := renderGrid_eq map.color (colorRange (scaledValues logarithmic values)).1
        (colorRange (scaledValues logarithmic values)).2 (hscaled ▸ hcount) (by rwa [hscaled])
        hwidth
      rw [hscaled] at hdrawn
    · rw [if_pos hdvd, colorBytes, hlist, List.flatMap_map] at hdrawn
      exact (congrArg (· >>= _) hdrawn).trans rfl
    · rw [if_neg hdvd] at hdrawn
      exact (congrArg (· >>= _) hdrawn).trans rfl

end Visualize

/-- The answers that sizes are met with: a value where they are accepted, a refusal where there is a
fault in them, and at all others the program stops. -/
structure Answers {α : Type} (accepted : Prop) (refused : RenderFault → Prop)
    (x : Except Failure α) : Prop where
  ok_iff : (∃ a, x = .ok a) ↔ accepted
  render_iff : ∀ fault, x = .error (.render fault) ↔ refused fault
  outOfRange_iff : x = .error .outOfRange ↔ ¬ accepted ∧ ∀ fault, ¬ refused fault

namespace Answers

variable {α β : Type} {accepted : Prop} {refused : RenderFault → Prop} {x : Except Failure α}

theorem ok {a : α} (h : accepted) (hrefused : ∀ fault, ¬ refused fault) :
    Answers accepted refused (.ok a : Except Failure α) := by
  constructor <;> simp [h, hrefused]

theorem render {fault : RenderFault} (h : ¬ accepted) (hrefused : ∀ f, refused f ↔ f = fault) :
    Answers accepted refused (.error (.render fault) : Except Failure α) := by
  constructor <;> simp [h, hrefused, eq_comm]

theorem outOfRange (h : ¬ accepted) (hrefused : ∀ fault, ¬ refused fault) :
    Answers accepted refused (.error .outOfRange : Except Failure α) := by
  constructor <;> simp [h, hrefused]

end Answers

/-- A task that gives a value where sizes fit, and is refused for one fault where they do not. -/
abbrev Checks {α : Type} (fits : Prop) (fault : RenderFault) (x : Except Failure α) : Prop :=
  Answers fits (fun f => f = fault ∧ ¬ fits) x

theorem Checks.refused {α : Type} {fits : Prop} {fault : RenderFault} (h : ¬ fits) :
    Checks fits fault (.error (.render fault) : Except Failure α) :=
  .render h fun _ => and_iff_left h

theorem Checks.accepted {α : Type} {fits : Prop} {fault : RenderFault} {a : α} (h : fits) :
    Checks fits fault (.ok a : Except Failure α) :=
  .ok h fun _ hf => hf.2 h

section Checks

variable {R : Type} [Scalar R] {width height : Nat} {sizes : Sizes}

theorem Wheel.checks_render_of_mul {n : Nat} (hcount : sizes.mul width height = .ok n)
    (w : Wheel R) (y x : Array R) (vmax : Option R) :
    Checks (y.size = n ∧ x.size = n) (.components y.size x.size width height)
      (w.render y x width height vmax sizes) := by
  unfold render
  rw [hcount, ok_bind]
  by_cases hsize : y.size = n ∧ x.size = n
  · rw [if_neg (by omega)]
    exact .accepted hsize
  · rw [if_pos (by omega)]
    exact .refused hsize

/-- The product of the sides is held as it is. -/
theorem Sizes.mul_eq_ok_of_or (h : sizes = .unlimited ∨ width * height < Word.limit) :
    sizes.mul width height = .ok (width * height) := by
  rcases h with rfl | h
  · rfl
  · exact sizes.mul_eq_ok h

theorem checks_visualize (hcount : sizes.mul width height = .ok (width * height))
    (map : Colormap) (logarithmic : Bool) {values : Array R}
    (hmemory : 8 * values.size < Word.memoryLimit) (hwidth : width < Word.limit) :
    Checks (values.size = width * height) (.values values.size width height)
      (visualize map logarithmic values width height sizes) := by
  rw [visualize_eq map logarithmic hmemory hwidth, hcount, ok_bind]
  by_cases hsize : values.size = width * height
  · rw [if_neg (not_not.mpr hsize), if_pos (Dvd.intro height hsize.symm)]
    exact .accepted hsize
  · rw [if_pos hsize]
    exact .refused hsize

end Checks

end CenterOfMass
