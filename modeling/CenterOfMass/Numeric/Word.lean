namespace CenterOfMass.Word

/-- Sizes are held in words of 64 bits: this is `2⁶⁴`. -/
def limit : Nat := 18446744073709551616

/-- Half of the words, `2⁶³`: a word below has its sign bit clear. -/
def half : Nat := 9223372036854775808

/-- The size that one block of memory stays below. -/
def memoryLimit : Nat := half

/-- Whether a table can be held: neither the product of its sides, those that are zero left out,
nor its size in bytes reaches the limit. -/
def isHeld (sides : List Nat) (cellBytes : Nat) : Bool :=
  sides.foldr (fun n m => max n 1 * m) 1 < memoryLimit &&
    sides.foldr (· * ·) cellBytes < memoryLimit

theorem limit_eq : limit = memoryLimit + memoryLimit := rfl

end CenterOfMass.Word
