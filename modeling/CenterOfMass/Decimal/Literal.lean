import CenterOfMass.Numeric.Word

namespace CenterOfMass.Decimal

def isDigit (c : Char) : Bool := '0' ≤ c && c ≤ '9'

def digitValue (c : Char) : Nat := c.toNat - '0'.toNat

/-- The digits at the start of a text, and what follows them. -/
def spanDigits (cs : List Char) : List Char × List Char := cs.span isDigit

def natOfDigits (cs : List Char) : Nat := cs.foldl (fun n c => 10 * n + digitValue c) 0

/-- The double nearest to `digits · 10 ^ exponent`. Powers beyond the range are settled by the size
of the number alone. -/
def nearest (digits : Nat) (exponent : Int) : Float :=
  let size : Int := (Nat.toDigits 10 digits).length + exponent
  if digits = 0 ∨ size < -400 then Float.ofBits 0
  else if 400 < size then Float.ofBits 0x7ff0000000000000
  else Float.ofScientific digits (exponent < 0) exponent.natAbs

/-- An exponent, if the text is one from its letter to its end; no text counts as the exponent
zero. -/
def exponent? : List Char → Option Int
  | [] => some 0
  | c :: cs =>
    if c = 'e' ∨ c = 'E' then
      let (minus, body) := match cs with
        | '-' :: r => (true, r)
        | '+' :: r => (false, r)
        | r => (false, r)
      if !body.isEmpty && body.all isDigit then
        let n : Int := natOfDigits body
        some (if minus then -n else n)
      else none
    else none

/-- A number without a sign: digits with a point among them or at either end, then perhaps an
exponent. -/
def unsigned? (cs : List Char) : Option Float :=
  let (whole, afterWhole) := spanDigits cs
  let (fraction, afterFraction) := match afterWhole with
    | '.' :: r => spanDigits r
    | r => ([], r)
  if whole.isEmpty && fraction.isEmpty then none
  else (exponent? afterFraction).map fun e =>
    nearest (natOfDigits (whole ++ fraction)) (e - fraction.length)

/-- A number, or one of the words for an unlimited or undefined value in letters of either case.
No blanks are allowed. -/
def float? (s : String) : Option Float :=
  let (minus, body) := match s.toList with
    | '-' :: r => (true, r)
    | '+' :: r => (false, r)
    | r => (false, r)
  let word := String.ofList (body.map Char.toLower)
  let size := if word = "inf" ∨ word = "infinity" then some (Float.ofBits 0x7ff0000000000000)
    else if word = "nan" then some (Float.ofBits 0x7ff8000000000000)
    else unsigned? body
  size.map fun x => if minus then -x else x

/-- The leading digits of a number that fit in a word, and the number of digits after them. -/
def leading : Nat → List Char → Nat × Nat
  | n, [] => (n, 0)
  | n, c :: cs =>
    let m := 10 * n + digitValue c
    if m < Word.limit then leading m cs else (n, cs.length + 1)

/-- Divides by the largest single power of ten until the rest of the exponent fits in one. -/
def scaleDown : Nat → Float → Nat → Float
  | 0, x, _ => x
  | fuel + 1, x, e =>
    if e ≤ 308 then x / Float.ofScientific 1 false e
    else if x == Float.ofBits 0 then x
    else scaleDown fuel (x / Float.ofScientific 1 false 308) (e - 308)

/-- A number of few digits brought to its place with one rounded operation; none if it has no
place below the largest double. -/
def scaled? (significand : Nat) (exponent : Int) : Option Float :=
  let x := Float.ofNat significand
  if exponent < 0 then some (scaleDown 4 x exponent.natAbs)
  else if exponent ≤ 308 then
    let y := x * Float.ofScientific 1 false exponent.toNat
    if y.isInf then none else some y
  else if significand = 0 then some x
  else none

/-- Reads the number with the given digits before and after the point. Digits that do not fit in
a word are dropped; those dropped before the point move it. -/
def wordScaled? (whole fraction : List Char) (exponent : Int) : Option Float :=
  let (n, dropped) := leading 0 whole
  let (m, unread) := leading n fraction
  scaled? m (exponent + dropped - (fraction.length - unread : Nat))

end CenterOfMass.Decimal
