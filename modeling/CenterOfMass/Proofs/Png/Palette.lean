import CenterOfMass.Png.Writer
import CenterOfMass.Proofs.Image.Pieces
import CenterOfMass.Proofs.Outcome
import Mathlib.Data.List.Dedup
import Mathlib.Data.Finset.Card

namespace CenterOfMass

namespace Png

/-- The palette with the colors that it lacks behind it, in the order in which they first appear. -/
def withNew (palette : List Color) : List Color → List Color
  | [] => palette
  | c :: cs => if c ∈ palette then withNew palette cs else withNew (palette ++ [c]) cs

section WithNew

variable {palette colors : List Color}

theorem mem_withNew {c : Color} : c ∈ withNew palette colors ↔ c ∈ palette ∨ c ∈ colors := by
  induction colors generalizing palette with
  | nil => simp [withNew]
  | cons d ds ih =>
    simp only [withNew]
    split_ifs with hd
    · rw [ih, List.mem_cons]
      constructor
      · tauto
      · rintro (h | rfl | h)
        · exact Or.inl h
        · exact Or.inl hd
        · exact Or.inr h
    · rw [ih]
      simp [or_assoc]

theorem withNew_nodup (h : palette.Nodup) : (withNew palette colors).Nodup := by
  induction colors generalizing palette with
  | nil => exact h
  | cons d ds ih =>
    simp only [withNew]
    split_ifs with hd
    · exact ih h
    · exact ih (by simpa using h.concat hd)

theorem isPrefix_withNew : palette <+: withNew palette colors := by
  induction colors generalizing palette with
  | nil => exact List.prefix_rfl
  | cons d ds ih =>
    simp only [withNew]
    split_ifs with hd
    · exact ih
    · exact (List.prefix_append palette [d]).trans ih

variable (palette colors) in
theorem length_le_withNew : palette.length ≤ (withNew palette colors).length :=
  isPrefix_withNew.length_le

theorem card_toFinset_eq : colors.toFinset.card = (withNew [] colors).length := by
  have hset : (withNew [] colors).toFinset = colors.toFinset := by
    ext c
    simp [mem_withNew]
  rw [← hset, List.toFinset_card_of_nodup (withNew_nodup List.nodup_nil)]

end WithNew

/-- The pixels as the places of their colors in a palette that has them all. -/
def Indexed.ofPalette (palette colors : List Color) : Indexed :=
  ⟨palette, colors.map fun c => ((palette.idxOf? c).getD 0).toUInt8⟩

/-- Every index names the color of its pixel. -/
def Indexed.Shows (r : Indexed) (colors : List Color) : Prop :=
  List.Forall₂ (fun i c => r.palette[i.toNat]? = some c) r.indices colors

/-- A byte is wide enough for the places of a palette. -/
theorem getElem?_idxOf? {palette : List Color} (hsize : palette.length ≤ paletteLimit) {c : Color}
    (hc : c ∈ palette) : palette[((palette.idxOf? c).getD 0).toUInt8.toNat]? = some c := by
  obtain ⟨i, hi⟩ := Option.isSome_iff_exists.mp (List.isSome_idxOf?.mpr hc)
  obtain ⟨hlt, hget, -⟩ := List.idxOf?_eq_some_iff.mp hi
  have hbyte : i.toUInt8.toNat = i := by
    have hlimit : i < 256 := Nat.lt_of_lt_of_le hlt hsize
    simpa using hlimit
  rw [hi, Option.getD_some, hbyte, List.getElem?_eq_getElem hlt, hget]

theorem Indexed.ofPalette_shows {palette colors : List Color}
    (hsize : palette.length ≤ paletteLimit) (hall : ∀ c ∈ colors, c ∈ palette) :
    (Indexed.ofPalette palette colors).Shows colors := by
  unfold Indexed.Shows Indexed.ofPalette
  rw [List.forall₂_map_left_iff, List.forall₂_same]
  intro c hc
  exact getElem?_idxOf? hsize (hall c hc)

theorem idxOf?_of_isPrefix {a b : List Color} (h : a <+: b) {c : Color} {i : Nat}
    (hi : a.idxOf? c = some i) : b.idxOf? c = some i := by
  obtain ⟨rest, rfl⟩ := h
  obtain ⟨hlt, hget, hfirst⟩ := List.idxOf?_eq_some_iff.mp hi
  refine List.idxOf?_eq_some_iff.mpr
    ⟨by simp; omega, by simpa [List.getElem_append, hlt] using hget, ?_⟩
  intro j hj
  have hja : j < a.length := Nat.lt_trans hj hlt
  simpa [List.getElem_append, hja] using hfirst j hj

/-- Going over the pixels gives the palette of first appearances, if it is small enough. -/
theorem indexFrom_eq {palette : List Color} (hsize : palette.length ≤ paletteLimit)
    (colors : List Color) : indexFrom palette colors =
      if (withNew palette colors).length ≤ paletteLimit then
        some (.ofPalette (withNew palette colors) colors) else none := by
  induction colors generalizing palette with
  | nil => simp [indexFrom, withNew, hsize, Indexed.ofPalette]
  | cons c cs ih =>
    simp only [indexFrom]
    cases hi : palette.idxOf? c with
    | some i =>
      have hc : c ∈ palette := List.isSome_idxOf?.mp (by simp [hi])
      have hplace : (withNew palette cs).idxOf? c = some i := idxOf?_of_isPrefix isPrefix_withNew hi
      simp only [ih hsize, withNew, if_pos hc]
      split_ifs with hfit
      · simp [Indexed.ofPalette, hplace]
      · rfl
    | none =>
      have hc : c ∉ palette := List.idxOf?_eq_none_iff.mp hi
      have hplace : (withNew (palette ++ [c]) cs).idxOf? c = some palette.length := by
        apply idxOf?_of_isPrefix isPrefix_withNew
        refine List.idxOf?_eq_some_iff.mpr ⟨by simp, by simp, ?_⟩
        intro j hj hget
        apply hc
        rw [← hget, List.getElem_append_left hj]
        exact List.getElem_mem hj
      simp only [withNew, if_neg hc]
      split_ifs with hroom hfit hfit
      · rw [ih (by simp; omega), if_pos hfit]
        simp [Indexed.ofPalette, hplace]
      · rw [ih (by simp; omega), if_neg hfit]
        rfl
      · have hlonger := length_le_withNew (palette ++ [c]) cs
        simp only [List.length_append, List.length_singleton] at hlonger
        omega
      · rfl

theorem index_eq (pixels : List UInt8) : index pixels =
    if (withNew [] (colorsOf pixels)).length ≤ paletteLimit then
      some (.ofPalette (withNew [] (colorsOf pixels)) (colorsOf pixels)) else none :=
  indexFrom_eq (by simp) _

theorem merge_eq {palette : List Color} (hsize : palette.length ≤ paletteLimit)
    (colors : List Color) : merge palette colors =
      if (withNew palette colors).length ≤ paletteLimit then some (withNew palette colors)
      else none := by
  induction colors generalizing palette with
  | nil => simp [merge, withNew, hsize]
  | cons c cs ih =>
    simp only [merge, withNew]
    by_cases hc : c ∈ palette
    · simp only [if_pos hc, ih hsize]
    · simp only [if_neg hc]
      split_ifs with hroom hfit hfit
      · rw [ih (by simp; omega), if_pos hfit]
      · rw [ih (by simp; omega), if_neg hfit]
      · have hlonger := length_le_withNew (palette ++ [c]) cs
        simp only [List.length_append, List.length_singleton] at hlonger
        omega
      · rfl

/-- A worker who stops early has found too many colors; all others have found all of theirs. -/
theorem distinct_spec {seen : List Color} (hnodup : seen.Nodup) (colors : List Color) :
    (distinct seen colors).Nodup ∧ (∀ c ∈ distinct seen colors, c ∈ seen ∨ c ∈ colors) ∧
      ((distinct seen colors).length ≤ paletteLimit →
        distinct seen colors = withNew seen colors) := by
  induction colors generalizing seen with
  | nil => simp [distinct, withNew, hnodup]
  | cons c cs ih =>
    simp only [distinct, withNew]
    by_cases hc : c ∈ seen
    · obtain ⟨hn, hmem, hall⟩ := ih hnodup
      simp only [if_pos hc]
      refine ⟨hn, ?_, hall⟩
      intro d hd
      exact (hmem d hd).imp_right (List.mem_cons_of_mem c)
    · have hmore : (seen ++ [c]).Nodup := by simpa using hnodup.concat hc
      simp only [if_neg hc]
      split_ifs with htoo
      · refine ⟨hmore, ?_, fun hfit => absurd hfit (Nat.not_le.mpr htoo)⟩
        intro d hd
        simp only [List.mem_append, List.mem_singleton] at hd
        rcases hd with hd | rfl
        · exact Or.inl hd
        · exact Or.inr List.mem_cons_self
      · obtain ⟨hn, hmem, hall⟩ := ih hmore
        refine ⟨hn, ?_, hall⟩
        intro d hd
        rcases hmem d hd with h | h
        · simp only [List.mem_append, List.mem_singleton] at h
          rcases h with h | rfl
          · exact Or.inl h
          · exact Or.inr List.mem_cons_self
        · exact Or.inr (List.mem_cons_of_mem c h)

section Divided

variable (d : Division) (pixels : List UInt8)

/-- The colors that the workers hand over, piece after piece. -/
def gathered : List Color :=
  ((chunksOf (3 * d.pieceLength pixels) pixels).mapIdx fun i piece =>
    d.drain i (distinct [] (colorsOf piece))).flatten

theorem indexDivided_eq : indexDivided d pixels =
    if (withNew [] (gathered d pixels)).length ≤ paletteLimit then
      some (.ofPalette (withNew [] (gathered d pixels)) (colorsOf pixels)) else none := by
  change (merge [] (gathered d pixels)).map _ = _
  rw [merge_eq (by simp)]
  split_ifs <;> rfl

theorem mem_gathered {c : Color} : c ∈ gathered d pixels ↔
    ∃ piece ∈ chunksOf (3 * d.pieceLength pixels) pixels, c ∈ distinct [] (colorsOf piece) := by
  simp only [gathered, List.mem_flatten, List.mem_mapIdx]
  constructor
  · rintro ⟨_, ⟨i, hi, rfl⟩, hc⟩
    exact ⟨_, List.getElem_mem hi, (d.drain_perm _ _).mem_iff.mp hc⟩
  · rintro ⟨piece, hpiece, hc⟩
    obtain ⟨i, hi, rfl⟩ := List.getElem_of_mem hpiece
    exact ⟨_, ⟨i, hi, rfl⟩, (d.drain_perm _ _).mem_iff.mpr hc⟩

theorem mem_colorsOf_iff {c : Color} : c ∈ colorsOf pixels ↔
    ∃ piece ∈ chunksOf (3 * d.pieceLength pixels) pixels, c ∈ colorsOf piece := by
  have hn : 0 < d.pieceLength pixels := by unfold Division.pieceLength; omega
  rw [← flatMap_colorsOf_chunksOf hn pixels, List.mem_flatMap]

theorem gathered_subset : gathered d pixels ⊆ colorsOf pixels := by
  intro c hc
  obtain ⟨piece, hpiece, hfound⟩ := (mem_gathered d pixels).mp hc
  have hmem := (distinct_spec List.nodup_nil (colorsOf piece)).2.1 c hfound
  exact (mem_colorsOf_iff d pixels).mpr ⟨piece, hpiece, hmem.resolve_left (by simp)⟩

/-- If a palette holds what has been handed over, then no worker has stopped early. -/
theorem subset_gathered (h : (withNew [] (gathered d pixels)).length ≤ paletteLimit) :
    colorsOf pixels ⊆ gathered d pixels := by
  intro c hc
  obtain ⟨piece, hpiece, hmem⟩ := (mem_colorsOf_iff d pixels).mp hc
  obtain ⟨hn, -, hall⟩ := distinct_spec List.nodup_nil (colorsOf piece)
  have hsub : distinct [] (colorsOf piece) ⊆ withNew [] (gathered d pixels) := by
    intro e he
    exact mem_withNew.mpr (Or.inr ((mem_gathered d pixels).mpr ⟨piece, hpiece, he⟩))
  -- a worker who stopped early would alone have more colors than a palette holds
  have hle := (hn.subperm hsub).length_le
  have hfound : c ∈ distinct [] (colorsOf piece) := by
    rw [hall (hle.trans h)]
    exact mem_withNew.mpr (Or.inr hmem)
  exact (mem_gathered d pixels).mpr ⟨piece, hpiece, hfound⟩

theorem length_withNew_gathered_le :
    (withNew [] (gathered d pixels)).length ≤ (withNew [] (colorsOf pixels)).length := by
  apply List.Subperm.length_le
  apply (withNew_nodup List.nodup_nil).subperm
  intro c hc
  have hmem := (mem_withNew.mp hc).resolve_left (by simp)
  exact mem_withNew.mpr (Or.inr (gathered_subset d pixels hmem))

/-- Both palettes hold the same colors, so the same number of them. -/
theorem withNew_gathered_perm (h : (withNew [] (gathered d pixels)).length ≤ paletteLimit) :
    (withNew [] (colorsOf pixels)).Perm (withNew [] (gathered d pixels)) := by
  rw [List.perm_ext_iff_of_nodup (withNew_nodup List.nodup_nil) (withNew_nodup List.nodup_nil)]
  intro c
  rw [mem_withNew, mem_withNew]
  exact or_congr_right
    ⟨fun hc => subset_gathered d pixels h hc, fun hc => gathered_subset d pixels hc⟩

theorem length_withNew_gathered_le_iff : (withNew [] (gathered d pixels)).length ≤ paletteLimit ↔
    (withNew [] (colorsOf pixels)).length ≤ paletteLimit := by
  constructor
  · intro h
    rwa [(withNew_gathered_perm d pixels h).length_eq]
  · intro h
    exact (length_withNew_gathered_le d pixels).trans h

end Divided

/-- A palette that bytes can name all places of, and the place of its color for every pixel. -/
structure Indexed.Sound (r : Indexed) (colors : List Color) : Prop where
  fits : r.palette.length ≤ paletteLimit
  shows : r.Shows colors

theorem index_sound {pixels : List UInt8} {r : Indexed} (h : index pixels = some r) :
    r.Sound (colorsOf pixels) := by
  rw [index_eq] at h
  split_ifs at h with hfit
  cases h
  exact ⟨hfit, Indexed.ofPalette_shows hfit fun c hc => mem_withNew.mpr (Or.inr hc)⟩

theorem indexDivided_sound {d : Division} {pixels : List UInt8} {r : Indexed}
    (h : indexDivided d pixels = some r) : r.Sound (colorsOf pixels) := by
  rw [indexDivided_eq] at h
  split_ifs at h with hfit
  cases h
  have hall : ∀ c ∈ colorsOf pixels, c ∈ withNew [] (gathered d pixels) := fun c hc =>
    mem_withNew.mpr (Or.inr (subset_gathered d pixels hfit hc))
  exact ⟨hfit, Indexed.ofPalette_shows hfit hall⟩

theorem indexImage_sound {d : Division} {count : Nat} {pixels : List UInt8} {r : Indexed}
    (h : indexImage d count pixels = some r) : r.Sound (colorsOf pixels) := by
  unfold indexImage at h
  split_ifs at h
  · exact indexDivided_sound h
  · exact index_sound h

/-- An image has a palette when it has few enough colors, by whomever they are collected. -/
theorem indexImage_isSome_iff (d : Division) (count : Nat) (pixels : List UInt8) :
    (indexImage d count pixels).isSome ↔ (colorsOf pixels).toFinset.card ≤ paletteLimit := by
  rw [card_toFinset_eq, indexImage]
  split_ifs with hmany
  · rw [indexDivided_eq, ← length_withNew_gathered_le_iff d]
    split_ifs with hfit <;> simp [hfit]
  · rw [index_eq]
    split_ifs with hfit <;> simp [hfit]

end Png

end CenterOfMass
