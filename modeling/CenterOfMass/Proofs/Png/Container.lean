import CenterOfMass.Png.Writer
import CenterOfMass.Proofs.Image.Pieces
import CenterOfMass.Proofs.Outcome
import CenterOfMass.Proofs.Png.Checksum

namespace CenterOfMass

namespace Png

theorem Chunk.header_eq : Chunk.header = letters ['I', 'H', 'D', 'R'] := rfl

/-- A chunk that a file can hold: four letters, and a length that fits into four bytes. -/
structure Chunk.Fits (c : Chunk) : Prop where
  name : c.name.length = 4
  body : c.body.length < 4294967296

theorem Chunk.length_toBytes_pos (c : Chunk) : 0 < c.toBytes.length := by
  simp [Chunk.toBytes, be32]

/-- A chunk is read back with its check confirmed, whatever follows it. -/
theorem Chunk.read?_toBytes {c : Chunk} (h : c.Fits) (rest : List UInt8) :
    Chunk.read? (c.toBytes ++ rest) = some (c, true, rest) := by
  have hname := split?_append c.name
    (c.body ++ (be32 (crc32 (c.name ++ c.body)).toNat ++ rest))
  have hsum := readBe32?_be32 (UInt32.toNat_lt (crc32 (c.name ++ c.body))) rest
  rw [h.name] at hname
  simp only [Chunk.read?, Chunk.toBytes, List.append_assoc, readBe32?_be32 h.body, hname,
    split?_append, hsum, checksum_eq_crc32, Option.bind_eq_bind, Option.bind_some]
  simp

theorem Chunk.readAll?_toBytes {chunks : List Chunk} (h : ∀ c ∈ chunks, c.Fits) {fuel : Nat}
    (hfuel : chunks.length ≤ fuel) :
    Chunk.readAll? fuel (chunks.flatMap Chunk.toBytes) = some (chunks.map (·, true)) := by
  induction chunks generalizing fuel with
  | nil => cases fuel <;> rfl
  | cons c cs ih =>
    obtain ⟨hc, hcs⟩ := List.forall_mem_cons.mp h
    cases fuel with
    | zero => simp at hfuel
    | succ fuel =>
      have hread := Chunk.read?_toBytes hc (cs.flatMap Chunk.toBytes)
      have hmore := ih hcs (Nat.le_of_succ_le_succ hfuel)
      obtain ⟨b, bs, hbytes⟩ := List.exists_cons_of_length_pos c.length_toBytes_pos
      rw [List.flatMap_cons]
      rw [hbytes, List.cons_append] at hread ⊢
      simp [Chunk.readAll?, hread, hmore]

theorem length_le_flatMap_toBytes (chunks : List Chunk) :
    chunks.length ≤ (chunks.flatMap Chunk.toBytes).length := by
  induction chunks with
  | nil => simp
  | cons c cs ih =>
    have hc := c.length_toBytes_pos
    simp only [List.flatMap_cons, List.length_append, List.length_cons]
    omega

/-- A file is taken apart into the chunks that it was put together from, all of them sound. -/
theorem readChunks?_assemble {chunks : List Chunk} (h : ∀ c ∈ chunks, c.Fits) :
    readChunks? (assemble chunks) = some (chunks.map (·, true)) := by
  have hall := Chunk.readAll?_toBytes h (length_le_flatMap_toBytes chunks)
  have hhead : split? 8 (signature ++ chunks.flatMap Chunk.toBytes) =
      some (signature, chunks.flatMap Chunk.toBytes) := split?_append signature _
  simp only [readChunks?, assemble, hhead, Option.bind_eq_bind, Option.bind_some]
  exact (if_pos rfl).trans hall

theorem soundChunks?_assemble {chunks : List Chunk} (h : ∀ c ∈ chunks, c.Fits) :
    soundChunks? (assemble chunks) = some chunks := by
  simp [soundChunks?, readChunks?_assemble h, Function.comp_def]

/-- Four bytes hold a side of an image; of a longer one they hold what is left of it. -/
theorem Header.read?_headerBody_mod (width height : Nat) (type : ColorType) :
    Header.read? (headerBody width height type) =
      some ⟨width % 4294967296, height % 4294967296, type⟩ := by
  unfold Header.read? headerBody
  rw [List.append_assoc, readBe32?_be32_mod]
  simp only [Option.bind_eq_bind, Option.bind_some, readBe32?_be32_mod]
  cases type <;> rfl

theorem Header.read?_headerBody {width height : Nat} (hw : width < 4294967296)
    (hh : height < 4294967296) (type : ColorType) :
    Header.read? (headerBody width height type) = some ⟨width, height, type⟩ := by
  rw [Header.read?_headerBody_mod, Nat.mod_eq_of_lt hw, Nat.mod_eq_of_lt hh]

/-- Rows of an image one below the other, each behind a zero byte. -/
def rowsOf (data : Array UInt8) (stride row n : Nat) : List UInt8 :=
  (List.range' row n).flatMap fun y => 0 :: rowValues data stride y

theorem rowsOf_succ (data : Array UInt8) (stride row n : Nat) :
    rowsOf data stride row (n + 1) =
      0 :: rowValues data stride row ++ rowsOf data stride (row + 1) n := by
  simp [rowsOf, List.range'_succ]

theorem length_rowsOf {data : Array UInt8} {stride row n : Nat}
    (hsize : (row + n) * stride ≤ data.size) :
    (rowsOf data stride row n).length = n * (1 + stride) := by
  induction n generalizing row with
  | zero => simp [rowsOf]
  | succ n ih =>
    have hnext : row + (n + 1) = row + 1 + n := by omega
    rw [hnext] at hsize
    have hle : (row + 1) * stride ≤ (row + 1 + n) * stride :=
      Nat.mul_le_mul_right _ (Nat.le_add_right _ _)
    rw [rowsOf_succ, List.length_append, List.length_cons, length_rowValues (by omega), ih hsize,
      Nat.succ_mul]
    omega

theorem rowsFrom_eq {data : Array UInt8} {stride row n : Nat} (sizes : Sizes)
    (hsize : (row + n) * stride ≤ data.size) (hword : (row + n) * stride < Word.limit) :
    rowsFrom data stride sizes n row = .ok (rowsOf data stride row n) := by
  induction n generalizing row with
  | zero => rfl
  | succ n ih =>
    have hnext : row + (n + 1) = row + 1 + n := by omega
    rw [hnext] at hsize hword
    have hle : (row + 1) * stride ≤ (row + 1 + n) * stride :=
      Nat.mul_le_mul_right _ (Nat.le_add_right _ _)
    have hstart : row * stride ≤ (row + 1) * stride := Nat.mul_le_mul_right _ (Nat.le_succ _)
    have hslice : rowSlice data stride sizes row = .ok (rowValues data stride row) := by
      rw [rowSlice, sizes.mul_eq_ok (by omega), sizes.mul_eq_ok (by omega), ok_bind, ok_bind,
        if_pos ⟨hstart, by omega⟩]
      rfl
    simp only [rowsFrom, hslice, ih hsize hword, ok_bind, pure_eq_ok, rowsOf_succ]

/-- The rows are what is left once the filter bytes are taken out. -/
theorem unfilter?_rowsOf {data : Array UInt8} {stride row n : Nat}
    (hsize : (row + n) * stride ≤ data.size) :
    unfilter? stride n (rowsOf data stride row n) =
      some ((List.range' row n).flatMap (rowValues data stride)) := by
  induction n generalizing row with
  | zero => rfl
  | succ n ih =>
    have hnext : row + (n + 1) = row + 1 + n := by omega
    rw [hnext] at hsize
    have hle : (row + 1) * stride ≤ (row + 1 + n) * stride :=
      Nat.mul_le_mul_right _ (Nat.le_add_right _ _)
    have hsplit := split?_append (rowValues data stride row) (rowsOf data stride (row + 1) n)
    rw [length_rowValues (by omega)] at hsplit
    rw [rowsOf_succ, List.cons_append]
    simp only [unfilter?, hsplit, ih hsize, Option.bind_eq_bind, Option.bind_some, Option.pure_def]
    rw [List.range'_succ, List.flatMap_cons]

/-- The bytes of a row that every size of an image is counted by. -/
theorem ColorType.rowSize_eq (type : ColorType) (width height : Nat) :
    Header.rowSize ⟨width, height, type⟩ = width * type.bytesPerPixel := by
  cases type with
  | truecolor => exact Nat.mul_comm 3 width
  | indexed => exact (Nat.mul_one width).symm

/-- Once the bytes are counted, too few are refused, and rows that no memory holds. -/
theorem scanlines_eq_ite {data : Array UInt8} {width height stride size : Nat} {type : ColorType}
    {sizes : Sizes} (hstride : sizes.mul width type.bytesPerPixel = .ok stride)
    (hsize : sizes.mul stride height = .ok size) :
    scanlines data width height type sizes =
      if data.size < size then .error (.render (.scanlines size data.size))
      else (do
        let bytes ← sizes.mul height (← sizes.add 1 stride)
        if Word.memoryLimit ≤ bytes then .error .outOfRange
        else rowsFrom data stride sizes height 0) := by
  unfold scanlines
  rw [hstride, ok_bind, hsize, ok_bind]
  split_ifs <;> rfl

/-- The rows of an image come out exactly if its bytes are enough for them. -/
theorem scanlines_eq {data : Array UInt8} {width height : Nat} {type : ColorType} (sizes : Sizes)
    (hstride : width * type.bytesPerPixel < Word.half)
    (hmemory : height * (1 + width * type.bytesPerPixel) < Word.memoryLimit) :
    scanlines data width height type sizes =
      if data.size < width * type.bytesPerPixel * height then
        .error (.render (.scanlines (width * type.bytesPerPixel * height) data.size))
      else .ok (rowsOf data (width * type.bytesPerPixel) 0 height) := by
  have hlimit : Word.limit = Word.half + Word.half := rfl
  have hpositive : 0 < Word.half := by decide
  change height * (1 + width * type.bytesPerPixel) < Word.half at hmemory
  have hwidth : sizes.mul width type.bytesPerPixel = .ok (width * type.bytesPerPixel) :=
    sizes.mul_eq_ok (by omega)
  generalize width * type.bytesPerPixel = stride at *
  have hexpand : height * (1 + stride) = height + stride * height := by
    rw [Nat.mul_add, Nat.mul_one, Nat.mul_comm]
  have htotal : sizes.mul stride height = .ok (stride * height) := sizes.mul_eq_ok (by omega)
  have hadd : sizes.add 1 stride = .ok (1 + stride) := sizes.add_eq_ok (by omega)
  have hheight : sizes.mul height (1 + stride) = .ok (height * (1 + stride)) :=
    sizes.mul_eq_ok (by omega)
  have hheld : ¬ Word.memoryLimit ≤ height * (1 + stride) := Nat.not_le.mpr hmemory
  rw [scanlines_eq_ite hwidth htotal, hadd, ok_bind, hheight, ok_bind, if_neg hheld]
  split_ifs with hshort
  · rfl
  · have hrows : (0 + height) * stride = stride * height := by rw [Nat.zero_add, Nat.mul_comm]
    exact rowsFrom_eq sizes (by omega) (by omega)

/-- Bytes that fill an image exactly are its rows, and are all that its rows hold. -/
theorem scanlines_eq_ok {data : Array UInt8} {width height : Nat} (type : ColorType) (sizes : Sizes)
    (hsize : data.size = width * type.bytesPerPixel * height)
    (hstride : width * type.bytesPerPixel < Word.half)
    (hmemory : (rowsOf data (width * type.bytesPerPixel) 0 height).length < Word.memoryLimit) :
    scanlines data width height type sizes =
        .ok (rowsOf data (width * type.bytesPerPixel) 0 height) ∧
      unfilter? (width * type.bytesPerPixel) height
        (rowsOf data (width * type.bytesPerPixel) 0 height) = some data.toList := by
  have hall : (0 + height) * (width * type.bytesPerPixel) = data.size := by
    rw [hsize, Nat.zero_add, Nat.mul_comm]
  have hdata := unfilter?_rowsOf (Nat.le_of_eq hall)
  rw [flatMap_range'_rowValues, hall, Nat.zero_mul, Array.extract_size] at hdata
  rw [length_rowsOf (Nat.le_of_eq hall)] at hmemory
  exact ⟨by rw [scanlines_eq sizes hstride hmemory, if_neg (by omega)], hdata⟩

end Png

end CenterOfMass
