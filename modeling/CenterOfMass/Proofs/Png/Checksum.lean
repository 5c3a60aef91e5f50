import CenterOfMass.Png.Checksum
import CenterOfMass.Png.Reader

namespace CenterOfMass.Png

/-- One bit divided out of a remainder in which the lowest bit stands for the highest power. -/
def shiftOut (c : BitVec 32) : BitVec 32 :=
  if c.getLsbD 0 then (c >>> 1) ^^^ 0xedb88320 else c >>> 1

theorem toBitVec_crcBit (c : UInt32) : (crcBit c).toBitVec = shiftOut c.toBitVec := by
  have hlow : (c &&& 1).toBitVec = BitVec.setWidth 32 (BitVec.ofBool (c.toBitVec.getLsbD 0)) := by
    rw [UInt32.toBitVec_and]
    exact BitVec.and_one_eq_setWidth_ofBool_getLsbD
  unfold crcBit shiftOut
  cases hbit : c.toBitVec.getLsbD 0 with
  | false =>
    rw [hbit] at hlow
    have hzero : c &&& 1 = 0 := UInt32.toBitVec_inj.mp hlow
    rw [hzero, if_neg (by decide)]
    simp
  | true =>
    rw [hbit] at hlow
    have hone : c &&& 1 = 1 := UInt32.toBitVec_inj.mp hlow
    rw [hone, if_pos rfl]
    simp

/-- A bit as the lowest one of a word. -/
def lowest (bit : Bool) : BitVec 32 := BitVec.setWidth 32 (BitVec.ofBool bit)

theorem getLsbD_lowest (bit : Bool) (i : Nat) :
    (lowest bit).getLsbD i = (decide (i = 0) && bit) := by
  unfold lowest
  rw [BitVec.getLsbD_setWidth, BitVec.getLsbD_ofBool]
  cases i with
  | zero => simp
  | succ i => simp

theorem reverse_shiftLeft_one (r : BitVec 32) : (r <<< 1).reverse = r.reverse >>> 1 := by
  apply BitVec.eq_of_getLsbD_eq
  intro i hi
  rw [BitVec.getLsbD_reverse, BitVec.getLsbD_ushiftRight, BitVec.getLsbD_reverse,
    BitVec.getMsbD_shiftLeft, Nat.add_comm]

theorem reverse_xor (a b : BitVec 32) : (a ^^^ b).reverse = a.reverse ^^^ b.reverse := by
  apply BitVec.eq_of_getLsbD_eq
  intro i hi
  simp only [BitVec.getLsbD_reverse, BitVec.getLsbD_xor, BitVec.getMsbD_xor]

theorem getLsbD_zero_reverse (r : BitVec 32) : r.reverse.getLsbD 0 = r.msb := by
  rw [BitVec.getLsbD_reverse]
  rfl

/-- What stands above the lowest bit only moves down. -/
theorem shiftOut_xor_of_not {y : BitVec 32} (x : BitVec 32) (h : y.getLsbD 0 = false) :
    shiftOut (x ^^^ y) = shiftOut x ^^^ (y >>> 1) := by
  unfold shiftOut
  rw [BitVec.getLsbD_xor, h, Bool.xor_false, BitVec.ushiftRight_xor_distrib]
  split
  · ac_rfl
  · rfl

theorem reverse_divideBit (r : BitVec 32) (bit : Bool) :
    (divideBit r bit).reverse = shiftOut (r.reverse ^^^ lowest bit) := by
  have hmoved : lowest bit >>> 1 = 0#32 := by cases bit <;> decide
  unfold divideBit shiftOut
  rw [BitVec.getLsbD_xor, getLsbD_zero_reverse, getLsbD_lowest, BitVec.ushiftRight_xor_distrib,
    hmoved]
  by_cases h : r.msb = bit
  · simp [h, reverse_shiftLeft_one]
  · have hodd : (r.msb ^^ (decide (0 = 0) && bit)) = true := by
      cases hm : r.msb <;> cases bit <;> simp_all
    have hpolynomial : (0x04c11db7 : BitVec 32).reverse = 0xedb88320 := by decide +kernel
    rw [if_neg h, hodd, if_pos rfl, reverse_xor, reverse_shiftLeft_one, hpolynomial,
      BitVec.xor_zero]

theorem reverse_foldl_divideBit (bits : List Bool) (r : BitVec 32) :
    (bits.foldl divideBit r).reverse =
      bits.foldl (fun c bit => shiftOut (c ^^^ lowest bit)) r.reverse := by
  induction bits generalizing r with
  | nil => rfl
  | cons bit bits ih => rw [List.foldl_cons, List.foldl_cons, ih, reverse_divideBit]

/-- The first bits of a word taken in one after the other, as if all had been there from the
start. -/
theorem foldl_shiftOut (c m : BitVec 32) (k : Nat) :
    ((List.range k).map m.getLsbD).foldl (fun c bit => shiftOut (c ^^^ lowest bit)) c =
      Nat.repeat shiftOut k (c ^^^ m) ^^^ (m >>> k) := by
  induction k with
  | zero =>
    rw [List.range_zero, List.map_nil, List.foldl_nil, BitVec.ushiftRight_zero, Nat.repeat,
      BitVec.xor_assoc, BitVec.xor_self, BitVec.xor_zero]
  | succ k ih =>
    have hlow : ((m >>> k) ^^^ lowest (m.getLsbD k)).getLsbD 0 = false := by
      rw [BitVec.getLsbD_xor, BitVec.getLsbD_ushiftRight, getLsbD_lowest]
      simp
    have hnext : ((m >>> k) ^^^ lowest (m.getLsbD k)) >>> 1 = m >>> (k + 1) := by
      have hmoved : lowest (m.getLsbD k) >>> 1 = 0#32 := by cases m.getLsbD k <;> decide
      rw [BitVec.ushiftRight_xor_distrib, hmoved, ← BitVec.shiftRight_add, BitVec.xor_zero]
    rw [List.range_succ, List.map_append, List.foldl_append, ih]
    simp only [List.map_cons, List.map_nil, List.foldl_cons, List.foldl_nil, Nat.repeat]
    rw [BitVec.xor_assoc, shiftOut_xor_of_not _ hlow, hnext]

theorem toBitVec_repeat_crcBit (k : Nat) (c : UInt32) :
    (Nat.repeat crcBit k c).toBitVec = Nat.repeat shiftOut k c.toBitVec := by
  induction k with
  | zero => rfl
  | succ k ih => rw [Nat.repeat, Nat.repeat, toBitVec_crcBit, ih]

/-- A byte is taken in at either end of the remainder. -/
theorem foldl_divideBit_byte (r : BitVec 32) (b : UInt8) :
    (((List.range 8).map b.toNat.testBit).foldl divideBit r).reverse =
      (crcByte (.ofBitVec r.reverse) b).toBitVec := by
  have hbits : (List.range 8).map b.toNat.testBit =
      (List.range 8).map (b.toBitVec.setWidth 32).getLsbD := by
    apply List.map_congr_left
    intro i hi
    have hin : i < 32 := Nat.lt_trans (List.mem_range.mp hi) (by decide)
    rw [BitVec.getLsbD_setWidth, decide_eq_true hin, Bool.true_and]
    rfl
  have hnone : (b.toBitVec.setWidth 32) >>> 8 = 0#32 := by
    apply BitVec.eq_of_getLsbD_eq
    intro i _
    simp
  rw [reverse_foldl_divideBit, hbits, foldl_shiftOut, hnone, crcByte, toBitVec_repeat_crcBit,
    BitVec.xor_zero]
  rfl

theorem foldl_divideBit (bytes : List UInt8) (r : BitVec 32) :
    ((bitsOf bytes).foldl divideBit r).reverse =
      (bytes.foldl crcByte (.ofBitVec r.reverse)).toBitVec := by
  induction bytes generalizing r with
  | nil => rfl
  | cons b bytes ih =>
    have hsplit : bitsOf (b :: bytes) = (List.range 8).map b.toNat.testBit ++ bitsOf bytes := rfl
    rw [hsplit, List.foldl_append, ih, foldl_divideBit_byte, List.foldl_cons]

/-- What the writer shifts out at the low end is what remains of the division of the polynomial. -/
theorem checksum_eq_crc32 (bytes : List UInt8) : checksum bytes = (crc32 bytes).toNat := by
  have hones : (BitVec.allOnes 32).reverse = BitVec.allOnes 32 := by decide +kernel
  unfold checksum crc32
  rw [← BitVec.xor_allOnes, reverse_xor, foldl_divideBit, hones]
  rfl

/-- The check of the digits from one to nine. -/
example : checksum (letters ['1', '2', '3', '4', '5', '6', '7', '8', '9']) = 0xcbf43926 := by
  decide +kernel

end CenterOfMass.Png
