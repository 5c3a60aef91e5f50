namespace CenterOfMass

/-- The number `digits · 10 ^ exponent`. -/
structure Decimal where
  digits : Nat
  exponent : Int
  deriving DecidableEq

namespace Decimal

/-- A positive double as `mantissa · 2 ^ exponent`, with the closeness of its lower neighbor. -/
structure Binary where
  mantissa : Nat
  exponent : Int
  /-- The neighbor below is at half the distance of the one above. -/
  narrowBelow : Bool

/-- The number of fractions that a double can have, `2⁵²`. -/
def fractionLimit : Nat := 4503599627370496

def Binary.ofBits (bits : UInt64) : Binary :=
  let field := (bits >>> 52).toNat % 2048
  let fraction := bits.toNat % fractionLimit
  if field = 0 then ⟨fraction, -1074, false⟩
  else ⟨fractionLimit + fraction, (field : Int) - 1075, fraction = 0 && 1 < field⟩

/-- Whole numbers `n` and `d` with `2 ^ e = n / d`. -/
def ratioOfPow (base : Nat) (e : Int) : Nat × Nat :=
  if e < 0 then (1, Nat.pow base e.natAbs) else (Nat.pow base e.natAbs, 1)

def digitCount (n : Nat) : Nat := (Nat.toDigits 10 n).length

/-- The power of ten of the leading digit of `n / d`, for positive `n` and `d`. -/
def leadingPower (n d : Nat) : Int :=
  if d ≤ n then (digitCount (n / d) : Int) - 1
  else -(digitCount ((d + n - 1) / n - 1) : Int)

/-- Drops the zeros at the end of a numeral, at most `fuel` of them. -/
def trim : Nat → Decimal → Decimal
  | 0, x => x
  | fuel + 1, x => if x.digits % 10 = 0 then trim fuel ⟨x.digits / 10, x.exponent + 1⟩ else x

/-- Which of two numerals equally near to a number is taken. -/
inductive Tie
  | up
  | toEven
  deriving DecidableEq

def Tie.takesUpper (tie : Tie) (upper : Nat) : Bool :=
  match tie with
  | .up => true
  | .toEven => upper % 2 = 0

/-- The multiple of `10 ^ k` next to a positive double that rounds to it, if there is one. Of two
the nearer is taken. -/
def onGrid (tie : Tie) (x : Binary) (k : Int) : Option Decimal :=
  -- the number is `4m · a / b` and a step of the grid is `s / t`
  let (a, b) := ratioOfPow 2 (x.exponent - 2)
  let (s, t) := ratioOfPow 10 k
  let value := 4 * x.mantissa * a * t
  let above := (4 * x.mantissa + 2) * a * t
  let below := (4 * x.mantissa - (if x.narrowBelow then 1 else 2)) * a * t
  let step := s * b
  let inside (n : Nat) : Bool :=
    if x.mantissa % 2 = 0 then below ≤ n * step && n * step ≤ above
    else below < n * step && n * step < above
  let low := value / step
  let high := low + 1
  let lowGap := value - low * step
  let highGap := high * step - value
  if inside low && 0 < low then
    if inside high && (highGap < lowGap || (highGap = lowGap && tie.takesUpper high)) then
      some ⟨high, k⟩
    else some ⟨low, k⟩
  else if inside high then some ⟨high, k⟩
  else none

/-- The fewest digits that round to a positive double, and of those the nearest to it. A numeral of
fewer than fifteen digits is one of fifteen too, so there is none if fifteen are not enough. -/
def shortestOfBinary (tie : Tie) (x : Binary) : Decimal :=
  let (a, b) := ratioOfPow 2 x.exponent
  let top := leadingPower (x.mantissa * a) b
  let least := if (onGrid tie x (top - 14)).isSome then 0 else 15
  let found := (List.range' least (17 - least)).findSome? fun (n : Nat) => onGrid tie x (top - n)
  trim 17 (found.getD ⟨0, 0⟩)

def zeros (n : Nat) : String := String.ofList (List.replicate n '0')

/-- Digits with a point after the first `point` of them, filled up with zeros where needed. -/
def positional (digits : String) (point : Int) (whole : String) : String :=
  let n : Int := digits.length
  if n ≤ point then digits ++ zeros (point - n).toNat ++ whole
  else if 0 < point then
    (digits.take point.toNat).toString ++ "." ++ (digits.drop point.toNat).toString
  else "0." ++ zeros (-point).toNat ++ digits

def negative (x : Float) : Bool := x.toBits >>> 63 == 1

/-- The shortest text of a double without an exponent; whole numbers have no point, and a tie goes
up. -/
def text (x : Float) : String :=
  if x.isNaN then "NaN"
  else
    let sign := if negative x then "-" else ""
    if x.isInf then sign ++ "inf"
    else if x == 0.0 then sign ++ "0"
    else
      let d := shortestOfBinary .up (Binary.ofBits x.abs.toBits)
      let digits := toString d.digits
      sign ++ positional digits (digits.length + d.exponent) ""

/-- The shortest text of a finite double with a point or an exponent: positional from `10⁻⁵` up to
`10¹⁶`, scientific beyond, and a tie goes to the even digit. -/
def jsonText (x : Float) : String :=
  let sign := if negative x then "-" else ""
  if x == 0.0 then sign ++ "0.0"
  else
    let d := shortestOfBinary .toEven (Binary.ofBits x.abs.toBits)
    let digits := toString d.digits
    let point : Int := digits.length + d.exponent
    if -5 < point ∧ point ≤ 16 then sign ++ positional digits point ".0"
    else
      let rest := (digits.drop 1).toString
      let fraction := if rest.isEmpty then "" else "." ++ rest
      sign ++ (digits.take 1).toString ++ fraction ++ "e" ++ toString (point - 1)

end Decimal

end CenterOfMass
