import CenterOfMass.Png.Zlib
import CenterOfMass.Proofs.Image.Pieces

namespace CenterOfMass.Png.Zlib

theorem readBlock?_block {bytes : List UInt8} (h : bytes.length ≤ blockLimit) (final : Bool)
    (rest : List UInt8) : readBlock? (block final bytes ++ rest) = some (final, bytes, rest) := by
  have hlimit : blockLimit = 65535 := rfl
  have hshort : bytes.length < 65536 := by omega
  have hother : blockLimit - bytes.length < 65536 := by omega
  have hsize := readLe16?_le16 hshort (le16 (blockLimit - bytes.length) ++ (bytes ++ rest))
  have hcomplement := readLe16?_le16 hother (bytes ++ rest)
  have hmark : ¬ ((if final then 1 else 0 : UInt8) &&& 6 ≠ 0) := by cases final <;> decide
  have hfinal : decide ((if final then 1 else 0 : UInt8) &&& 1 = 1) = final := by
    cases final <;> decide
  simp only [block, List.cons_append, List.append_assoc, readBlock?, if_neg hmark]
  simp [hsize, hcomplement, split?_append, h, hfinal]

theorem length_blocks (pieces : List (List UInt8)) : pieces.length < (blocks pieces).length := by
  fun_induction blocks pieces with
  | case1 => simp [block, le16]
  | case2 last => simp [block, le16]
  | case3 piece rest _ ih =>
    simp only [List.length_append, List.length_cons, block]
    omega

/-- Stored blocks are read back up to the last one, whatever follows it. -/
theorem readBlocks?_blocks {pieces : List (List UInt8)}
    (h : ∀ piece ∈ pieces, piece.length ≤ blockLimit) {fuel : Nat} (hfuel : pieces.length < fuel)
    (rest : List UInt8) :
    readBlocks? fuel (blocks pieces ++ rest) = some (pieces.flatten, rest) := by
  fun_induction blocks pieces generalizing fuel with
  | case1 =>
    cases fuel with
    | zero => omega
    | succ fuel =>
      have hempty : ([] : List UInt8).length ≤ blockLimit := Nat.zero_le _
      simp [readBlocks?, readBlock?_block hempty]
  | case2 last =>
    cases fuel with
    | zero => omega
    | succ fuel => simp [readBlocks?, readBlock?_block (h last (by simp))]
  | case3 piece more _ ih =>
    cases fuel with
    | zero => omega
    | succ fuel =>
      obtain ⟨hpiece, hmore⟩ := List.forall_mem_cons.mp h
      have hrest := ih hmore (Nat.lt_of_succ_lt_succ hfuel)
      simp [readBlocks?, readBlock?_block hpiece, hrest]

theorem length_flatten_le_blocks (pieces : List (List UInt8)) :
    pieces.flatten.length ≤ (blocks pieces).length := by
  fun_induction blocks pieces with
  | case1 => simp
  | case2 last =>
    simp only [List.flatten_singleton, block, List.length_cons, List.length_append]
    omega
  | case3 piece rest _ ih =>
    rw [List.flatten_cons, List.length_append, List.length_append]
    simp only [block, List.length_cons, List.length_append]
    omega

/-- Stored blocks make nothing shorter. -/
theorem length_le_compress (bytes : List UInt8) : bytes.length ≤ (compress bytes).length := by
  have hle := length_flatten_le_blocks (chunksOf blockLimit bytes)
  rw [flatten_chunksOf (by decide)] at hle
  simp only [compress, List.length_append]
  omega

/-- What has been compressed comes back. -/
theorem decompress?_compress (bytes : List UInt8) : decompress? (compress bytes) = some bytes := by
  have hpieces : ∀ piece ∈ chunksOf blockLimit bytes, piece.length ≤ blockLimit :=
    fun _ => length_le_of_mem_chunksOf
  have hsum := readBe32?_be32 (UInt32.toNat_lt (adler32 bytes)) []
  have hfuel : (chunksOf blockLimit bytes).length <
      (blocks (chunksOf blockLimit bytes) ++ be32 (adler32 bytes).toNat).length := by
    have hlength := length_blocks (chunksOf blockLimit bytes)
    rw [List.length_append]
    omega
  have hblocks := readBlocks?_blocks hpieces hfuel (be32 (adler32 bytes).toNat)
  rw [flatten_chunksOf (by decide)] at hblocks
  rw [List.append_nil] at hsum
  have hheader : ¬ ((0x78 : UInt8) &&& 15 ≠ 8 ∨
      ((0x78 : UInt8).toNat * 256 + (0x01 : UInt8).toNat) % 31 ≠ 0 ∨
      (0x01 : UInt8) &&& 32 ≠ 0) := by decide
  simp only [compress, List.cons_append, List.nil_append, decompress?, if_neg hheader, hblocks,
    hsum, Option.bind_eq_bind, Option.bind_some]
  simp

end CenterOfMass.Png.Zlib
