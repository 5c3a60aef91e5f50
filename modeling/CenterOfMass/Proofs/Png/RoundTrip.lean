import CenterOfMass.Png.Encoder
import CenterOfMass.Proofs.Png.Container
import CenterOfMass.Proofs.Png.Palette
import CenterOfMass.Proofs.Png.Zlib

namespace CenterOfMass.Png

theorem Indexed.Shows.lookUp? {r : Indexed} {colors : List Color} (h : r.Shows colors) :
    lookUp? (r.palette.map Color.toList) r.indices = some (colors.map Color.toList) := by
  unfold Png.lookUp?
  unfold Indexed.Shows at h
  generalize r.indices = indices at h
  induction h with
  | nil => rfl
  | cons hc _ ih =>
    simp only [List.getElem?_map] at ih ⊢
    simp [hc, ih]

/-- A palette is read back color by color. -/
theorem triples_flatMap_toList (colors : List Color) :
    triples (colors.flatMap Color.toList) = colors.map Color.toList := by
  induction colors with
  | nil => rfl
  | cons c cs ih => exact congrArg (c.toList :: ·) ih

theorem length_flatMap_toList (colors : List Color) :
    (colors.flatMap Color.toList).length = 3 * colors.length := by
  induction colors with
  | nil => rfl
  | cons c cs ih =>
    rw [List.flatMap_cons, List.length_append, ih, List.length_cons]
    simp only [Color.toList, List.length_cons, List.length_nil]
    omega

/-- The rows of an image as they are compressed: places in its palette, if it has one, or the bytes
of its pixels. -/
def imageRows (d : Division) (image : Image) : List UInt8 :=
  match indexImage d image.pixelCount image.pixels.toList with
  | some r => rowsOf r.indices.toArray (image.width * 1) 0 image.height
  | none => rowsOf image.pixels (image.width * 3) 0 image.height

section Whole

variable {image : Image} (hsize : image.pixels.size = 3 * image.width * image.height)

include hsize

theorem length_pixels_toList :
    image.pixels.toList.length = 3 * (image.width * image.height) := by
  rw [Array.length_toList, hsize, Nat.mul_assoc]

theorem length_indices {d : Division} {count : Nat} {r : Indexed}
    (h : indexImage d count image.pixels.toList = some r) :
    r.indices.length = image.width * image.height := by
  have hlength := (indexImage_sound h).shows.length_eq
  rw [length_colorsOf, length_pixels_toList hsize] at hlength
  omega

/-- Each row takes one byte more than its pixels, which take one or three each. -/
theorem exists_length_imageRows (d : Division) :
    ∃ stride, image.width ≤ stride ∧ stride ≤ image.width * 3 ∧
      (imageRows d image).length = image.height * (1 + stride) := by
  unfold imageRows
  split
  · next r hr =>
    have hall : (0 + image.height) * (image.width * 1) ≤ r.indices.toArray.size := by
      simp [length_indices hsize hr, Nat.mul_comm]
    exact ⟨_, by omega, by omega, length_rowsOf hall⟩
  · have hall : (0 + image.height) * (image.width * 3) ≤ image.pixels.size := by
      rw [hsize, Nat.zero_add, Nat.mul_comm, Nat.mul_comm image.width]
    exact ⟨_, by omega, le_rfl, length_rowsOf hall⟩

/-- No image has fewer bytes in its rows than pixels. -/
theorem mul_le_length_imageRows (d : Division) :
    image.width * image.height ≤ (imageRows d image).length := by
  obtain ⟨stride, hleast, -, hlength⟩ := exists_length_imageRows hsize d
  rw [hlength, Nat.mul_comm]
  exact Nat.mul_le_mul_left _ (by omega)

/-- The rows of an image take no more than three bytes for a pixel, and one for a row. -/
theorem length_imageRows_le (d : Division) :
    (imageRows d image).length ≤ image.height * (1 + image.width * 3) := by
  obtain ⟨stride, -, hmost, hlength⟩ := exists_length_imageRows hsize d
  rw [hlength]
  exact Nat.mul_le_mul_left _ (by omega)

end Whole

/-- What a reader finds in a file: sound chunks, a header, and the bytes of the rows. -/
structure Opens (inflate : List UInt8 → Option (List UInt8)) (bytes : List UInt8)
    (chunks : List Chunk) (header : Header) (data : List UInt8) : Prop where
  chunks_eq : soundChunks? bytes = some chunks
  header_eq : (body? ['I', 'H', 'D', 'R'] chunks).bind Header.read? = some header
  data_eq : ((body? ['I', 'D', 'A', 'T'] chunks).bind inflate).bind
    (unfilter? header.rowSize header.height) = some data

section Opens

variable {inflate : List UInt8 → Option (List UInt8)} {bytes data : List UInt8}
  {chunks : List Chunk} {width height : Nat}

theorem Opens.decode?_truecolor (h : Opens inflate bytes chunks ⟨width, height, .truecolor⟩ data) :
    decode? inflate bytes = some ⟨width, height, data.toArray⟩ := by
  obtain ⟨hsound, hheader, hdata⟩ := h
  obtain ⟨head, hhead, hheader⟩ := Option.bind_eq_some_iff.mp hheader
  obtain ⟨rows, hrows, hdata⟩ := Option.bind_eq_some_iff.mp hdata
  obtain ⟨body, hbody, hrows⟩ := Option.bind_eq_some_iff.mp hrows
  unfold decode? ofChunks?
  simp [hsound, hhead, hheader, hbody, hrows, hdata]

theorem Opens.decode?_indexed (h : Opens inflate bytes chunks ⟨width, height, .indexed⟩ data)
    {palette : List UInt8} (hpalette : body? ['P', 'L', 'T', 'E'] chunks = some palette)
    {colors : List (List UInt8)} (hcolors : lookUp? (triples palette) data = some colors) :
    decode? inflate bytes = some ⟨width, height, colors.flatten.toArray⟩ := by
  obtain ⟨hsound, hheader, hdata⟩ := h
  obtain ⟨head, hhead, hheader⟩ := Option.bind_eq_some_iff.mp hheader
  obtain ⟨rows, hrows, hdata⟩ := Option.bind_eq_some_iff.mp hdata
  obtain ⟨body, hbody, hrows⟩ := Option.bind_eq_some_iff.mp hrows
  unfold decode? ofChunks?
  simp [hsound, hhead, hheader, hbody, hrows, hdata, hpalette, hcolors]

end Opens

section Written

variable {compress : List UInt8 → List UInt8} {inflate : List UInt8 → Option (List UInt8)}
  (hinverse : ∀ bytes, inflate (compress bytes) = some bytes) {width height : Nat}
  (hwidth : width < 4294967296) (hheight : height < 4294967296)

include hinverse hwidth hheight

theorem opens_truecolorChunks {pixels : Array UInt8} (hsize : pixels.size = width * 3 * height)
    (hmemory : (rowsOf pixels (width * 3) 0 height).length < Word.memoryLimit)
    (hdata : (compress (rowsOf pixels (width * 3) 0 height)).length < 4294967296) :
    ∃ chunks, (∀ sizes, truecolorChunks compress width height pixels sizes = .ok chunks) ∧
      Opens inflate (assemble chunks) chunks ⟨width, height, .truecolor⟩ pixels.toList := by
  have hstride : width * 3 < Word.half := by
    have hhalf : Word.half = 9223372036854775808 := rfl
    omega
  have hrows (sizes : Sizes) := scanlines_eq_ok .truecolor sizes hsize hstride hmemory
  have hback : unfilter? (Header.rowSize ⟨width, height, .truecolor⟩) height
      (rowsOf pixels (width * ColorType.truecolor.bytesPerPixel) 0 height) =
        some pixels.toList := by
    rw [ColorType.rowSize_eq]
    exact (hrows .checked).2
  refine ⟨_, fun sizes => by rw [truecolorChunks, (hrows sizes).1]; rfl, ?_, ?_, ?_⟩
  · apply soundChunks?_assemble
    intro c hc
    simp only [List.mem_cons, List.not_mem_nil, or_false] at hc
    rcases hc with rfl | rfl | rfl
    · exact ⟨rfl, by simp [headerBody, be32]⟩
    · exact ⟨rfl, hdata⟩
    · exact ⟨rfl, by simp⟩
  · have hheader := Header.read?_headerBody hwidth hheight .truecolor
    simp [body?, Chunk.header_eq, hheader]
  · simpa [body?, Chunk.header, Chunk.imageData, letters, hinverse] using hback

theorem opens_indexedChunks {r : Indexed} {colors : List Color} (hsound : r.Sound colors)
    (hsize : r.indices.toArray.size = width * 1 * height)
    (hmemory : (rowsOf r.indices.toArray (width * 1) 0 height).length < Word.memoryLimit)
    (hdata : (compress (rowsOf r.indices.toArray (width * 1) 0 height)).length < 4294967296) :
    ∃ chunks,
      (∀ sizes,
        indexedChunks compress width height r.palette r.indices.toArray sizes = .ok chunks) ∧
      body? ['P', 'L', 'T', 'E'] chunks = some (r.palette.flatMap Color.toList) ∧
      Opens inflate (assemble chunks) chunks ⟨width, height, .indexed⟩ r.indices := by
  have hstride : width * 1 < Word.half := by
    have hhalf : Word.half = 9223372036854775808 := rfl
    omega
  have hrows (sizes : Sizes) := scanlines_eq_ok .indexed sizes hsize hstride hmemory
  have hback : unfilter? (Header.rowSize ⟨width, height, .indexed⟩) height
      (rowsOf r.indices.toArray (width * ColorType.indexed.bytesPerPixel) 0 height) =
        some r.indices := by
    rw [ColorType.rowSize_eq]
    exact (hrows .checked).2
  refine ⟨_, fun sizes => by rw [indexedChunks, (hrows sizes).1]; rfl, rfl, ?_, ?_, ?_⟩
  · apply soundChunks?_assemble
    intro c hc
    simp only [List.mem_cons, List.not_mem_nil, or_false] at hc
    rcases hc with rfl | rfl | rfl | rfl
    · exact ⟨rfl, by simp [headerBody, be32]⟩
    · refine ⟨rfl, ?_⟩
      have hpalette : r.palette.length ≤ 256 := hsound.fits
      rw [length_flatMap_toList]
      omega
    · exact ⟨rfl, hdata⟩
    · exact ⟨rfl, by simp⟩
  · have hheader := Header.read?_headerBody hwidth hheight .indexed
    simp [body?, Chunk.header_eq, hheader]
  · simpa [body?, Chunk.header, Chunk.palette, Chunk.imageData, letters, hinverse] using hback

end Written

/-- The file of an image, as it is opened: with the bytes of the pixels, or with places in a palette
that has a color for each of them. -/
inductive OpensAs (inflate : List UInt8 → Option (List UInt8)) (image : Image)
    (chunks : List Chunk) : Prop
  | truecolor (h : Opens inflate (assemble chunks) chunks ⟨image.width, image.height, .truecolor⟩
      image.pixels.toList)
  | indexed (r : Indexed) (hsound : r.Sound (colorsOf image.pixels.toList))
      (hlength : r.indices.length = image.width * image.height)
      (hpalette : body? ['P', 'L', 'T', 'E'] chunks = some (r.palette.flatMap Color.toList))
      (h : Opens inflate (assemble chunks) chunks ⟨image.width, image.height, .indexed⟩ r.indices)

section Image

variable {compress : List UInt8 → List UInt8} {inflate : List UInt8 → Option (List UInt8)}
  (hinverse : ∀ bytes, inflate (compress bytes) = some bytes) (d : Division) {image : Image}
  (hsize : image.pixels.size = 3 * image.width * image.height)

include hinverse hsize

/-- An image of which all bytes are there is written in one form or the other, however sizes are
held, if its rows fit into memory and four bytes can count what the file counts by them. -/
theorem opensAs_encodeWith (hwidth : image.width < 4294967296)
    (hheight : image.height < 4294967296)
    (hmemory : 4 * (image.width * image.height) < Word.memoryLimit)
    (hdata : (compress (imageRows d image)).length < 4294967296) :
    ∃ chunks, (∀ sizes, encodeWith compress d image sizes = .ok (assemble chunks)) ∧
      OpensAs inflate image chunks := by
  have hlimit := Word.limit_eq
  have hhalf : Word.memoryLimit = 9223372036854775808 := rfl
  have hbytes : image.pixels.size = image.width * image.height * 3 := by
    rw [hsize, Nat.mul_assoc, Nat.mul_comm]
  have hlong : image.pixelCount * 3 < Word.limit := by
    change image.width * image.height * 3 < Word.limit
    omega
  have hrows : (imageRows d image).length < Word.memoryLimit := by
    apply Nat.lt_of_le_of_lt (length_imageRows_le hsize d)
    rw [Nat.mul_add, ← Nat.mul_assoc, Nat.mul_comm image.height image.width]
    omega
  have hcount (sizes : Sizes) : sizes.mul image.width image.height = .ok image.pixelCount :=
    sizes.mul_eq_ok (by omega)
  have htriple (sizes : Sizes) : sizes.mul image.pixelCount 3 = .ok image.pixels.size := by
    rw [hbytes]
    exact sizes.mul_eq_ok hlong
  cases hindex : indexImage d image.pixelCount image.pixels.toList with
  | none =>
    simp only [imageRows, hindex] at hrows hdata
    obtain ⟨chunks, hchunks, hopens⟩ := opens_truecolorChunks hinverse hwidth hheight
      (by rw [hsize, Nat.mul_comm 3]) hrows hdata
    refine ⟨chunks, fun sizes => ?_, .truecolor hopens⟩
    simp [encodeWith, imageChunks, hcount, htriple, hindex, hchunks, Except.map]
  | some r =>
    simp only [imageRows, hindex] at hrows hdata
    have hlength := length_indices hsize hindex
    obtain ⟨chunks, hchunks, hpalette, hopens⟩ := opens_indexedChunks hinverse hwidth hheight
      (indexImage_sound hindex) (by simp [hlength]) hrows hdata
    refine ⟨chunks, fun sizes => ?_,
      .indexed r (indexImage_sound hindex) hlength hpalette hopens⟩
    simp [encodeWith, imageChunks, hcount, htriple, hindex, hchunks, Except.map]

omit hinverse in
theorem OpensAs.decode? {chunks : List Chunk} (h : OpensAs inflate image chunks) :
    decode? inflate (assemble chunks) = some image := by
  cases h with
  | truecolor h => exact h.decode?_truecolor
  | indexed r hsound hlength hpalette h =>
    have hcolors := hsound.shows.lookUp?
    rw [← triples_flatMap_toList] at hcolors
    have hdecoded := h.decode?_indexed hpalette hcolors
    rwa [← List.flatMap_def, flatMap_toList_colorsOf (length_pixels_toList hsize)] at hdecoded

end Image

/-- Every image of which all bytes are there is written, and what is written shows the image to any
reader of the format, with a palette or without. Of the compressor it is asked that it can be undone
and that, like all compressors of this format, it makes nothing shorter than a 1032nd part; of the
compressed rows, that four bytes can count them, as they always can the other chunks. -/
theorem decode?_encodeWith {compress : List UInt8 → List UInt8}
    {inflate : List UInt8 → Option (List UInt8)}
    (hinverse : ∀ bytes, inflate (compress bytes) = some bytes)
    (hratio : ∀ bytes, bytes.length ≤ 1032 * (compress bytes).length) (d : Division) (image : Image)
    (hsize : image.pixels.size = 3 * image.width * image.height)
    (hwidth : image.width < 4294967296) (hheight : image.height < 4294967296)
    (hdata : (compress (imageRows d image)).length < 4294967296) :
    ∃ bytes, (∀ sizes, encodeWith compress d image sizes = .ok bytes) ∧
      decode? inflate bytes = some image := by
  have hmemory : 4 * (image.width * image.height) < Word.memoryLimit := by
    have hlimit : Word.memoryLimit = 9223372036854775808 := rfl
    have hpixels := mul_le_length_imageRows hsize d
    have hshort := hratio (imageRows d image)
    omega
  obtain ⟨chunks, hchunks, hopens⟩ :=
    opensAs_encodeWith hinverse d hsize hwidth hheight hmemory hdata
  exact ⟨assemble chunks, hchunks, hopens.decode? hsize⟩

theorem decode?_encodeWith_stripes :
    let image : Image := ⟨2, 2, #[255, 0, 0, 0, 0, 255, 255, 0, 0, 0, 0, 255]⟩
    ∃ bytes, (∀ sizes, encodeWith Zlib.compress .single image sizes = .ok bytes) ∧
      decode? Zlib.decompress? bytes = some image :=
  decode?_encodeWith Zlib.decompress?_compress
    (fun bytes => (Zlib.length_le_compress bytes).trans (Nat.le_mul_of_pos_left _ (by decide)))
    .single ⟨2, 2, #[255, 0, 0, 0, 0, 255, 255, 0, 0, 0, 0, 255]⟩
    (by decide) (by decide) (by decide) (by decide +kernel)

end CenterOfMass.Png
