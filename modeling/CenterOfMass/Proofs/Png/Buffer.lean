import CenterOfMass.Png.Encoder
import CenterOfMass.Proofs.Png.Container
import CenterOfMass.Proofs.Png.Zlib

namespace CenterOfMass.Png

/-- How a file gives the pixels: each with its color, or with its place in a palette. -/
inductive Form
  | truecolor
  | indexed (palette : List Color)

namespace Form

def type : Form → ColorType
  | truecolor => .truecolor
  | indexed _ => .indexed

/-- The bytes of a row: three for each pixel, or one for its place in the palette. -/
def rowSize (width : Nat) : Form → Nat
  | truecolor => 3 * width
  | indexed _ => width

theorem rowSize_eq (f : Form) (width : Nat) : width * f.type.bytesPerPixel = f.rowSize width := by
  cases f with
  | truecolor => exact Nat.mul_comm width 3
  | indexed _ => exact Nat.mul_one width

/-- Writes an image straight from the bytes of a buffer, without a look at what they show. -/
def write (compress : List UInt8 → List UInt8) (f : Form) (width height : Nat)
    (data : Array UInt8) (sizes : Sizes := .checked) : Except Failure (List UInt8) :=
  match f with
  | truecolor => (truecolorChunks compress width height data sizes).map assemble
  | indexed palette => (indexedChunks compress width height palette data sizes).map assemble

/-- With rows that are stored as they are these are the two writers that run. -/
theorem write_zlib (f : Form) (width height : Nat) (data : Array UInt8) :
    f.write Zlib.compress width height data = match f with
      | truecolor => writeTruecolor width height data
      | indexed palette => writeIndexed width height palette data := by
  cases f <;> rfl

/-- The chunks that a file of a form consists of, with the bodies of two of them left open. -/
def parts (head image : List UInt8) : Form → List Chunk
  | truecolor => [⟨letters ['I', 'H', 'D', 'R'], head⟩, ⟨letters ['I', 'D', 'A', 'T'], image⟩,
      ⟨letters ['I', 'E', 'N', 'D'], []⟩]
  | indexed palette => [⟨letters ['I', 'H', 'D', 'R'], head⟩,
      ⟨letters ['P', 'L', 'T', 'E'], palette.flatMap fun c => [c.r, c.g, c.b]⟩,
      ⟨letters ['I', 'D', 'A', 'T'], image⟩, ⟨letters ['I', 'E', 'N', 'D'], []⟩]

/-- Either form is its own chunks around the rows of the image. -/
theorem write_eq (compress : List UInt8 → List UInt8) (f : Form) (width height : Nat)
    (data : Array UInt8) (sizes : Sizes) :
    f.write compress width height data sizes =
      (scanlines data width height f.type sizes).map fun rows =>
        assemble (f.parts (headerBody width height f.type) (compress rows)) := by
  cases f with
  | truecolor =>
    simp only [write, type, truecolorChunks]
    cases scanlines data width height .truecolor sizes <;> rfl
  | indexed palette =>
    simp only [write, type, indexedChunks]
    cases scanlines data width height .indexed sizes <;> rfl

/-- Every part has a name of four letters. -/
theorem fits_parts {f : Form} {head image : List UInt8}
    (h : ∀ c ∈ f.parts head image, c.body.length < 4294967296) :
    ∀ c ∈ f.parts head image, c.Fits := by
  intro c hc
  refine ⟨?_, h c hc⟩
  cases f with
  | truecolor =>
    simp only [parts, List.mem_cons, List.not_mem_nil, or_false] at hc
    rcases hc with rfl | rfl | rfl <;> rfl
  | indexed palette =>
    simp only [parts, List.mem_cons, List.not_mem_nil, or_false] at hc
    rcases hc with rfl | rfl | rfl | rfl <;> rfl

/-- What a file of a form has to be read back as, if it was written from the bytes of a buffer. -/
structure Shows (inflate : List UInt8 → Option (List UInt8)) (f : Form) (width height : Nat)
    (data : Array UInt8) (bytes head image : List UInt8) : Prop where
  /-- Four bytes count what is in a chunk, so that the file is of these chunks and nothing else,
  with the check of each in order, as long as they can. -/
  chunks : (∀ c ∈ f.parts head image, c.body.length < 4294967296) →
    readChunks? bytes = some ((f.parts head image).map (·, true))
  header : Header.read? head = some ⟨width % 4294967296, height % 4294967296, f.type⟩
  /-- The rows of the buffer, each behind a zero byte. -/
  rows : inflate image = some ((List.range height).flatMap fun y =>
    0 :: (data.extract (y * f.rowSize width) ((y + 1) * f.rowSize width)).toList)
  row_size : ∀ y < height,
    (data.extract (y * f.rowSize width) ((y + 1) * f.rowSize width)).size = f.rowSize width

end Form

section Rows

variable {data : Array UInt8} {stride row n : Nat}

/-- Rows lie in the first bytes of a buffer, whatever stands behind these. -/
theorem rowsOf_append (hsize : (row + n) * stride ≤ data.size) (more : Array UInt8) :
    rowsOf (data ++ more) stride row n = rowsOf data stride row n := by
  induction n generalizing row with
  | zero => rfl
  | succ n ih =>
    have hnext : row + (n + 1) = row + 1 + n := by omega
    rw [hnext] at hsize
    have hle : (row + 1) * stride ≤ (row + 1 + n) * stride :=
      Nat.mul_le_mul_right _ (Nat.le_add_right _ _)
    have hrow : rowValues (data ++ more) stride row = rowValues data stride row := by
      have hnone : (row + 1) * stride - data.size = 0 := Nat.sub_eq_zero_of_le (by omega)
      unfold rowValues
      rw [Array.extract_append, hnone, Array.extract_zero, Array.append_empty]
    rw [rowsOf_succ, rowsOf_succ, hrow, ih hsize]

end Rows

namespace Form

section Write

variable {compress : List UInt8 → List UInt8} {inflate : List UInt8 → Option (List UInt8)}
  {f : Form} {width height : Nat} {data : Array UInt8}

/-- With room for the rows, a buffer is refused exactly if it is too short for them. -/
theorem write_eq_ite (sizes : Sizes) (hstride : f.rowSize width < Word.half)
    (hmemory : height * (1 + f.rowSize width) < Word.memoryLimit) :
    f.write compress width height data sizes =
      if data.size < f.rowSize width * height then
        .error (.render (.scanlines (f.rowSize width * height) data.size))
      else .ok (assemble (f.parts (headerBody width height f.type)
        (compress (rowsOf data (f.rowSize width) 0 height)))) := by
  rw [← rowSize_eq] at hstride hmemory ⊢
  rw [write_eq, scanlines_eq sizes hstride hmemory]
  split_ifs <;> rfl

theorem shows_assemble (hinverse : ∀ bytes, inflate (compress bytes) = some bytes)
    (hsize : f.rowSize width * height ≤ data.size) :
    f.Shows inflate width height data
      (assemble (f.parts (headerBody width height f.type)
        (compress (rowsOf data (f.rowSize width) 0 height))))
      (headerBody width height f.type)
      (compress (rowsOf data (f.rowSize width) 0 height)) where
  chunks h := readChunks?_assemble (fits_parts h)
  header := Header.read?_headerBody_mod width height f.type
  rows := by
    rw [hinverse, rowsOf, ← List.range_eq_range']
    rfl
  row_size y hy := by
    have hle : (y + 1) * f.rowSize width ≤ data.size := by
      apply Nat.le_trans (Nat.mul_le_mul_right _ hy)
      rwa [Nat.mul_comm]
    exact length_rowValues hle

end Write

/-- An image is written from a buffer in either form exactly if the buffer is not too short, bytes
behind the last row make no difference, and the file is read back as what was written: of the
compressor it is asked that it can be undone, of the sides that the rows can be held. -/
theorem write_shows {compress : List UInt8 → List UInt8}
    {inflate : List UInt8 → Option (List UInt8)}
    (hinverse : ∀ bytes, inflate (compress bytes) = some bytes) (f : Form) (width height : Nat)
    (hstride : f.rowSize width < Word.half)
    (hmemory : height * (1 + f.rowSize width) < Word.memoryLimit) (sizes : Sizes)
    (data : Array UInt8) :
    (∀ e, f.write compress width height data sizes = .error e ↔
      data.size < f.rowSize width * height ∧
        e = .render (.scanlines (f.rowSize width * height) data.size)) ∧
    ∀ bytes, f.write compress width height data sizes = .ok bytes →
      (∃ head image, f.Shows inflate width height data bytes head image) ∧
      ∀ more, f.write compress width height (data ++ more) sizes = .ok bytes := by
  rw [write_eq_ite sizes hstride hmemory]
  split_ifs with hshort
  · refine ⟨fun e => ?_, fun bytes hbytes => ?_⟩
    · rw [Except.error.injEq, eq_comm, and_iff_right hshort]
    · cases hbytes
  · refine ⟨fun e => by simp [hshort], fun bytes hbytes => ?_⟩
    obtain rfl := Except.ok.inj hbytes
    have hsize := Nat.le_of_not_lt hshort
    refine ⟨⟨_, _, shows_assemble hinverse hsize⟩, fun more => ?_⟩
    have hlonger : ¬ (data ++ more).size < f.rowSize width * height := by
      rw [Array.size_append]
      omega
    have hall : (0 + height) * f.rowSize width ≤ data.size := by
      rwa [Nat.zero_add, Nat.mul_comm]
    rw [write_eq_ite sizes hstride hmemory, if_neg hlonger, rowsOf_append hall]

/-- Two rows of two places in a palette of two colors, with one byte too many. -/
theorem write_shows_stripes :
    ∃ bytes, writeIndexed 2 2 [⟨255, 0, 0⟩, ⟨0, 0, 255⟩] #[0, 1, 0, 1, 7] = .ok bytes ∧
      ∃ head image, (indexed [⟨255, 0, 0⟩, ⟨0, 0, 255⟩]).Shows Zlib.decompress? 2 2
        #[0, 1, 0, 1, 7] bytes head image := by
  obtain ⟨-, hshows⟩ := write_shows Zlib.decompress?_compress
    (indexed [⟨255, 0, 0⟩, ⟨0, 0, 255⟩]) 2 2 (by decide) (by decide) .checked #[0, 1, 0, 1, 7]
  have hok : writeIndexed 2 2 [⟨255, 0, 0⟩, ⟨0, 0, 255⟩] #[0, 1, 0, 1, 7] = .ok _ := rfl
  obtain ⟨hread, -⟩ := hshows _ ((write_zlib _ 2 2 _).trans hok)
  exact ⟨_, hok, hread⟩

end Form

end CenterOfMass.Png
