import CenterOfMass.Proofs.Png.RoundTrip

namespace CenterOfMass.Png

/-- What the format asks of an image beside sound chunks. No side is zero; a palette has between one
and 256 colors, and no pixel lies beyond them. -/
def Admitted (inflate : List UInt8 → Option (List UInt8)) (bytes : List UInt8)
    (width height : Nat) : Prop :=
  ∃ chunks header data, Opens inflate bytes chunks header data ∧
    header.width = width ∧ header.height = height ∧ 0 < width ∧ 0 < height ∧
    (header.type = .indexed → ∃ palette colors, body? ['P', 'L', 'T', 'E'] chunks = some palette ∧
      palette.length = 3 * colors ∧ 1 ≤ colors ∧ colors ≤ 256 ∧ ∀ i ∈ data, i.toNat < colors)

theorem Indexed.Shows.lt_length {r : Indexed} {colors : List Color} (h : r.Shows colors) :
    ∀ i ∈ r.indices, i.toNat < r.palette.length := by
  unfold Indexed.Shows at h
  generalize r.indices = indices at h
  induction h with
  | nil => exact fun _ hi => absurd hi List.not_mem_nil
  | cons hc _ ih =>
    obtain ⟨hlt, -⟩ := List.getElem?_eq_some_iff.mp hc
    exact List.forall_mem_cons.mpr ⟨hlt, ih⟩

/-- Where there is a pixel it names a color, so that the palette is not empty. -/
theorem OpensAs.admitted {inflate : List UInt8 → Option (List UInt8)} {image : Image}
    {chunks : List Chunk} (h : OpensAs inflate image chunks) (hcols : 0 < image.width)
    (hrows : 0 < image.height) :
    Admitted inflate (assemble chunks) image.width image.height := by
  cases h with
  | truecolor h => exact ⟨chunks, _, _, h, rfl, rfl, hcols, hrows, nofun⟩
  | indexed r hsound hlength hpalette h =>
    have hbelow := hsound.shows.lt_length
    obtain ⟨i, hi⟩ : ∃ i, i ∈ r.indices := by
      apply List.exists_mem_of_length_pos
      rw [hlength]
      exact Nat.mul_pos hcols hrows
    have hone : 1 ≤ r.palette.length := Nat.lt_of_le_of_lt (Nat.zero_le _) (hbelow i hi)
    refine ⟨chunks, _, _, h, rfl, rfl, hcols, hrows, fun _ => ?_⟩
    have hbytes := length_flatMap_toList r.palette
    exact ⟨_, r.palette.length, hpalette, hbytes, hone, hsound.fits, hbelow⟩

/-- An image of which all bytes are there is written as the format asks exactly if it has pixels. -/
theorem admitted_encodeWith_iff {compress : List UInt8 → List UInt8}
    {inflate : List UInt8 → Option (List UInt8)}
    (hinverse : ∀ bytes, inflate (compress bytes) = some bytes) {d : Division} {image : Image}
    (hsize : image.pixels.size = 3 * image.width * image.height)
    (hwidth : image.width < 4294967296) (hheight : image.height < 4294967296)
    (hmemory : 4 * (image.width * image.height) < Word.memoryLimit)
    (hdata : (compress (imageRows d image)).length < 4294967296) {bytes : List UInt8}
    {sizes : Sizes} (h : encodeWith compress d image sizes = .ok bytes) :
    Admitted inflate bytes image.width image.height ↔ 0 < image.width ∧ 0 < image.height := by
  obtain ⟨chunks, hchunks, hopens⟩ :=
    opensAs_encodeWith hinverse d hsize hwidth hheight hmemory hdata
  obtain rfl := Except.ok.inj ((hchunks sizes).symm.trans h)
  constructor
  · rintro ⟨_, _, _, -, -, -, hcols, hrows, -⟩
    exact ⟨hcols, hrows⟩
  · rintro ⟨hcols, hrows⟩
    exact hopens.admitted hcols hrows

end CenterOfMass.Png
