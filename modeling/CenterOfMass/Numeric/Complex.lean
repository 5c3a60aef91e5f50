namespace CenterOfMass

@[ext] structure Complex (R : Type) where
  re : R
  im : R
  deriving DecidableEq

namespace Complex

variable {R : Type}

def ofReal [NatCast R] (x : R) : Complex R := ⟨x, Nat.cast 0⟩

instance [NatCast R] : NatCast (Complex R) := ⟨fun n => ofReal (Nat.cast n)⟩

instance [Sub R] : Sub (Complex R) := ⟨fun a b => ⟨a.re - b.re, a.im - b.im⟩⟩

/-- A complex number is compared part by part. -/
instance [BEq R] : BEq (Complex R) := ⟨fun a b => a.re == b.re && a.im == b.im⟩

/-- The quotient is taken with the conjugate over the squared length of the divisor. -/
instance [Add R] [Sub R] [Mul R] [Div R] : Div (Complex R) where
  div a b :=
    let n := b.re * b.re + b.im * b.im
    ⟨(a.re * b.re + a.im * b.im) / n, (a.im * b.re - a.re * b.im) / n⟩

def map {S : Type} (f : R → S) (z : Complex R) : Complex S := ⟨f z.re, f z.im⟩

end Complex

end CenterOfMass
