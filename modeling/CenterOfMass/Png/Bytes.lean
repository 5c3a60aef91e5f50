namespace CenterOfMass.Png

/-- A size in four bytes, the highest first, reduced modulo `2³²`. -/
def be32 (n : Nat) : List UInt8 :=
  [(n / 16777216).toUInt8, (n / 65536).toUInt8, (n / 256).toUInt8, n.toUInt8]

/-- A size in two bytes, the lowest first, reduced modulo `2¹⁶`. -/
def le16 (n : Nat) : List UInt8 := [n.toUInt8, (n / 256).toUInt8]

/-- Four bytes, the highest first, as a number. -/
def readBe32? : List UInt8 → Option (Nat × List UInt8)
  | a :: b :: c :: d :: rest =>
    some (((a.toNat * 256 + b.toNat) * 256 + c.toNat) * 256 + d.toNat, rest)
  | _ => none

/-- Two bytes, the lowest first, as a number. -/
def readLe16? : List UInt8 → Option (Nat × List UInt8)
  | a :: b :: rest => some (a.toNat + b.toNat * 256, rest)
  | _ => none

/-- The first `n` bytes, if there are so many. -/
def split? (n : Nat) (bytes : List UInt8) : Option (List UInt8 × List UInt8) :=
  let part := bytes.take n
  if part.length = n then some (part, bytes.drop n) else none

theorem readBe32?_be32_mod (n : Nat) (rest : List UInt8) :
    readBe32? (be32 n ++ rest) = some (n % 4294967296, rest) := by
  simp [be32, readBe32?]
  omega

theorem readBe32?_be32 {n : Nat} (h : n < 4294967296) (rest : List UInt8) :
    readBe32? (be32 n ++ rest) = some (n, rest) := by
  rw [readBe32?_be32_mod, Nat.mod_eq_of_lt h]

theorem readLe16?_le16 {n : Nat} (h : n < 65536) (rest : List UInt8) :
    readLe16? (le16 n ++ rest) = some (n, rest) := by
  simp [le16, readLe16?]
  omega

theorem split?_append (a b : List UInt8) : split? a.length (a ++ b) = some (a, b) := by
  simp [split?]

end CenterOfMass.Png
