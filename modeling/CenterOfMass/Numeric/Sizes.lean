import CenterOfMass.Failure
import CenterOfMass.Numeric.Word

namespace CenterOfMass

/-- What comes of sizes that no word can hold. -/
inductive Sizes
  /-- They are held all the same, as numbers without a limit. -/
  | unlimited
  /-- The program stops. -/
  | checked
  /-- They are reduced modulo the word size. -/
  | wrapping
  deriving DecidableEq

namespace Sizes

/-- A size as it is held. -/
def hold : Sizes → Nat → Except Failure Nat
  | unlimited, n => .ok n
  | checked, n => if n < Word.limit then .ok n else .error .outOfRange
  | wrapping, n => .ok (n % Word.limit)

def mul (s : Sizes) (a b : Nat) : Except Failure Nat := s.hold (a * b)

def add (s : Sizes) (a b : Nat) : Except Failure Nat := s.hold (a + b)

variable {a b n : Nat}

theorem hold_eq_ok (s : Sizes) (h : n < Word.limit) : s.hold n = .ok n := by
  cases s with
  | unlimited => rfl
  | checked => exact if_pos h
  | wrapping => exact congrArg Except.ok (Nat.mod_eq_of_lt h)

theorem mul_eq_ok (s : Sizes) (h : a * b < Word.limit) : s.mul a b = .ok (a * b) := s.hold_eq_ok h

theorem add_eq_ok (s : Sizes) (h : a + b < Word.limit) : s.add a b = .ok (a + b) := s.hold_eq_ok h

theorem hold_checked_eq_error (h : Word.limit ≤ n) : checked.hold n = .error .outOfRange :=
  if_neg (Nat.not_lt.mpr h)

/-- A size that is held is held as it is, unless sizes are reduced. -/
theorem eq_of_mul_eq_ok {s : Sizes} (h : s.mul a b = .ok n) :
    n = a * b ∨ s = wrapping ∧ n = a * b % Word.limit := by
  cases s with
  | unlimited => exact .inl (Except.ok.inj h).symm
  | checked =>
    rcases Nat.lt_or_ge (a * b) Word.limit with hn | hn
    · exact .inl (Except.ok.inj (h.symm.trans (checked.mul_eq_ok hn)))
    · cases (hold_checked_eq_error hn).symm.trans h
  | wrapping => exact .inr ⟨rfl, (Except.ok.inj h).symm⟩

/-- Of a size that is not held the program says no more. -/
theorem hold_eq_error {s : Sizes} {e : Failure} (h : s.hold n = .error e) : e = .outOfRange := by
  cases s with
  | unlimited => cases h
  | checked =>
    rcases Nat.lt_or_ge n Word.limit with hn | hn
    · cases (checked.hold_eq_ok hn).symm.trans h
    · exact Except.error.inj (h.symm.trans (hold_checked_eq_error hn))
  | wrapping => cases h

end Sizes

end CenterOfMass
