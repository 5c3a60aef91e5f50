import CenterOfMass.Numeric.Double
import Mathlib.Algebra.Field.Rat
import Mathlib.Algebra.Order.Ring.Rat
import Mathlib.Data.Rat.Cast.Defs

namespace CenterOfMass

/-- A number of arithmetic without rounding: a number of an ordered field, which is that of the
rational numbers unless another one is named, unlimited, or none at all. There is one zero. -/
inductive Exact (K : Type := ℚ)
  | finite (x : K)
  | infinite (negative : Bool)
  | undefined
  deriving DecidableEq

namespace Exact

variable {K : Type}

section Order

variable [LinearOrder K]

def le : Exact K → Exact K → Bool
  | finite x, finite y => decide (x ≤ y)
  | finite _, infinite t => !t
  | infinite s, finite _ => s
  | infinite s, infinite t => s || !t
  | undefined, _ => false
  | _, undefined => false

def lt : Exact K → Exact K → Bool
  | finite x, finite y => decide (x < y)
  | finite _, infinite t => !t
  | infinite s, finite _ => s
  | infinite s, infinite t => s && !t
  | undefined, _ => false
  | _, undefined => false

/-- What is no number differs from itself. -/
def beq : Exact K → Exact K → Bool
  | undefined, _ => false
  | a, b => decide (a = b)

instance : LE (Exact K) := ⟨fun a b => a.le b = true⟩

instance : LT (Exact K) := ⟨fun a b => a.lt b = true⟩

instance : DecidableLE (Exact K) := fun a b => inferInstanceAs (Decidable (a.le b = true))

instance : DecidableLT (Exact K) := fun a b => inferInstanceAs (Decidable (a.lt b = true))

instance : BEq (Exact K) := ⟨beq⟩

instance : Extended (Exact K) where
  infinity := infinite false
  isNaN a := decide (a = undefined)
  isFinite
    | finite _ => true
    | _ => false

variable (x y : K)

@[simp] theorem finite_le_finite : finite x ≤ finite y ↔ x ≤ y := decide_eq_true_iff

@[simp] theorem finite_lt_finite : finite x < finite y ↔ x < y := decide_eq_true_iff

theorem finite_le_infinity : finite x ≤ infinite false := rfl

@[simp] theorem finite_bne_finite : (finite x != finite y) = decide (x ≠ y) := by
  have hbeq : (finite x == finite y) = decide (finite x = finite y) := rfl
  rw [bne, hbeq, ← decide_not]
  simp

theorem exists_eq_finite {a : Exact K} (h : Extended.isFinite a = true) : ∃ x, a = finite x := by
  cases a with
  | finite x => exact ⟨x, rfl⟩
  | infinite => cases h
  | undefined => cases h

end Order

section DivisionRing

variable [DivisionRing K]

def neg : Exact K → Exact K
  | finite x => finite (-x)
  | infinite s => infinite !s
  | undefined => undefined

/-- Unlimited numbers of different signs have no sum. -/
def add : Exact K → Exact K → Exact K
  | finite x, finite y => finite (x + y)
  | finite _, infinite t => infinite t
  | infinite s, finite _ => infinite s
  | infinite s, infinite t => if s = t then infinite s else undefined
  | undefined, _ => undefined
  | _, undefined => undefined

instance : Neg (Exact K) := ⟨neg⟩

instance : Add (Exact K) := ⟨add⟩

instance : Sub (Exact K) := ⟨fun a b => a.add b.neg⟩

instance : NatCast (Exact K) := ⟨fun n => finite n⟩

instance : OfScientific (Exact K) :=
  ⟨fun m s e => finite ((OfScientific.ofScientific m s e : ℚ) : K)⟩

theorem neg_neg (a : Exact K) : - -a = a := by
  cases a with
  | finite x => exact congrArg finite (InvolutiveNeg.neg_neg x)
  | infinite s => exact congrArg infinite (Bool.not_not s)
  | undefined => rfl

theorem sub_neg (a b : Exact K) : a - -b = a + b := congrArg a.add b.neg_neg

variable (x y : K)

@[simp] theorem finite_add : finite x + finite y = finite (x + y) := rfl

@[simp] theorem finite_sub : finite x - finite y = finite (x - y) := by
  rw [sub_eq_add_neg]
  rfl

@[simp] theorem neg_finite : -finite x = finite (-x) := rfl

@[simp] theorem natCast_eq (n : ℕ) : (Nat.cast n : Exact K) = finite (n : K) := rfl

theorem natCast_zero : (Nat.cast 0 : Exact K) = finite 0 := by rw [natCast_eq, Nat.cast_zero]

variable (a : Exact K)

@[simp] theorem undefined_add : undefined + a = undefined := by cases a <;> rfl

@[simp] theorem add_undefined : a + undefined = undefined := by cases a <;> rfl

@[simp] theorem undefined_sub : undefined - a = undefined := by cases a <;> rfl

@[simp] theorem sub_undefined : a - undefined = undefined := by cases a <;> rfl

variable [LinearOrder K]

/-- An unlimited number has no product with zero. -/
def mul : Exact K → Exact K → Exact K
  | finite x, finite y => finite (x * y)
  | finite x, infinite t => if x = 0 then undefined else infinite (decide (x < 0) ^^ t)
  | infinite s, finite y => if y = 0 then undefined else infinite (s ^^ decide (y < 0))
  | infinite s, infinite t => infinite (s ^^ t)
  | undefined, _ => undefined
  | _, undefined => undefined

/-- A quotient by zero is unlimited, and there is none of zero by zero. -/
def div : Exact K → Exact K → Exact K
  | finite x, finite y =>
    if y ≠ 0 then finite (x / y) else if x = 0 then undefined else infinite (decide (x < 0))
  | finite _, infinite _ => finite 0
  | infinite s, finite y => infinite (s ^^ decide (y < 0))
  | infinite _, infinite _ => undefined
  | undefined, _ => undefined
  | _, undefined => undefined

instance : Mul (Exact K) := ⟨mul⟩

instance : Div (Exact K) := ⟨div⟩

@[simp] theorem finite_mul : finite x * finite y = finite (x * y) := rfl

theorem infinite_mul_finite (s : Bool) {y : K} (h : y ≠ 0) :
    infinite s * finite y = infinite (s ^^ decide (y < 0)) := if_neg h

theorem finite_mul_infinite {x : K} (h : x ≠ 0) (t : Bool) :
    finite x * infinite t = infinite (decide (x < 0) ^^ t) := if_neg h

theorem finite_div {y : K} (h : y ≠ 0) : finite x / finite y = finite (x / y) := if_pos h

@[simp] theorem undefined_mul : undefined * a = undefined := by cases a <;> rfl

@[simp] theorem mul_undefined : a * undefined = undefined := by cases a <;> rfl

@[simp] theorem div_undefined : a / undefined = undefined := by cases a <;> rfl

end DivisionRing

/-- Nothing is rounded when it is stored. -/
instance : Storage (Exact K) (Exact K) := ⟨id, id⟩

def text [ToString K] : Exact K → String
  | finite x => toString x
  | infinite false => "inf"
  | infinite true => "-inf"
  | undefined => "NaN"

/-- Every choice of elementary functions and of a rounding to bytes gives the numbers that an
analysis asks for. -/
instance [DivisionRing K] [LinearOrder K] [ToString K] [Elementary (Exact K)]
    [Quantized (Exact K)] : Scalar (Exact K) where
  decidableLE := inferInstance
  decidableLT := inferInstance
  text := text

/-- The number that a double stands for. -/
def ofDouble (x : Float) : Exact :=
  if x.isNaN then undefined
  else if x.isInf then infinite (decide (x < 0))
  else
    let size := Decimal.Binary.ofBits x.toBits
    finite ((if x < 0 then -1 else 1) * size.mantissa * (2 : ℚ) ^ size.exponent)

/-- A double close to a number. -/
def toDouble : Exact → Float
  | finite x => Float.ofInt x.num / Float.ofNat x.den
  | infinite false => Extended.infinity
  | infinite true => -Extended.infinity
  | undefined => 0 / 0

/-- The elementary functions as doubles have them. -/
@[reducible] def elementaryOfDoubles : Elementary Exact :=
  let lift (f : Float → Float) (x : Exact) : Exact := ofDouble (f x.toDouble)
  let lift₂ (f : Float → Float → Float) (x y : Exact) : Exact :=
    ofDouble (f x.toDouble y.toDouble)
  { pi := ofDouble Elementary.pi
    sqrt := lift Elementary.sqrt
    hypot := lift₂ Elementary.hypot
    atan2 := lift₂ Elementary.atan2
    sin := lift Elementary.sin
    cos := lift Elementary.cos
    exp := lift Elementary.exp
    log := lift Elementary.log }

/-- Rounding to bytes by way of doubles. -/
@[reducible] def quantizedOfDoubles : Quantized Exact where
  toByte x := Quantized.toByte x.toDouble
  toSingle x := Quantized.toSingle x.toDouble

/-- A number not below zero, which may be unlimited. -/
def IsRadius (r : Exact) : Prop := r = infinite false ∨ ∃ x, 0 ≤ x ∧ r = finite x

theorem isRadius_of_not_lt {r : Exact} (hnumber : Extended.isNaN r = false)
    (hsign : ¬ r < Nat.cast 0) : r.IsRadius := by
  cases r with
  | finite x =>
    have hx : 0 ≤ x := by simpa using hsign
    exact .inr ⟨x, hx, rfl⟩
  | infinite negative =>
    cases negative with
    | false => exact .inl rfl
    | true => exact absurd rfl hsign
  | undefined => cases hnumber

end Exact

end CenterOfMass
