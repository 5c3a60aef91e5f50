import CenterOfMass.Json.Decode
import CenterOfMass.Scan.Parameters

namespace CenterOfMass

variable {R : Type}

/-- JSON has no word for a number that is not finite. -/
def Json.ofNumber [Extended R] (x : R) : Json R := if Extended.isFinite x then .real x else .null

def Json.ofOption {α : Type} (toJson : α → Json R) : Option α → Json R
  | none => .null
  | some a => toJson a

namespace MaskDtype

def name : MaskDtype → String
  | .float32 => "float32"

def ofDraft : Draft R → Except JsonFault MaskDtype := Draft.asOneOf [("float32", .float32)]

end MaskDtype

namespace UserParameters

def toJson [Extended R] (u : UserParameters R) : Json R :=
  .object [("cx", .ofOption .ofNumber u.cx), ("cy", .ofOption .ofNumber u.cy),
    ("r", .ofOption .ofNumber u.r), ("use_sparse", .ofOption .bool u.useSparse)]

/-- Every parameter may be left out. -/
def ofDraft [NatCast R] [Neg R] (d : Draft R) : Except JsonFault (UserParameters R) := do
  let number : Draft R → Except JsonFault (Option R) := Draft.asOptional Draft.asNumber
  let flag : Draft R → Except JsonFault (Option Bool) := Draft.asOptional Draft.asBool
  let found ← d.asRecord [.omissible "cx" number, .omissible "cy" number, .omissible "r" number,
    .omissible "use_sparse" flag]
  return {
    cx := ← found.getOr "cx" number none
    cy := ← found.getOr "cy" number none
    r := ← found.getOr "r" number none
    useSparse := ← found.getOr "use_sparse" flag none }

end UserParameters

namespace Parameters

/-- An unlimited radius is written as null. -/
def toJson [Extended R] (p : Parameters R) : Json R :=
  .object [("cx", .ofNumber p.cx), ("cy", .ofNumber p.cy), ("r", .ofNumber p.r),
    ("use_sparse", .bool p.useSparse), ("mask_count", .natural p.maskCount),
    ("mask_dtype", .text p.maskDtype.name)]

/-- Every parameter has to be there; only the radius may be null. -/
def ofDraft [NatCast R] [Neg R] [Extended R] (d : Draft R) :
    Except JsonFault (Parameters R) := do
  let radius : Draft R → Except JsonFault (Option R) := Draft.asOptional Draft.asNumber
  let found ← d.asRecord [.needed "cx" Draft.asNumber, .needed "cy" Draft.asNumber,
    .needed "r" radius, .needed "use_sparse" Draft.asBool, .needed "mask_count" Draft.asNatural,
    .needed "mask_dtype" MaskDtype.ofDraft]
  return {
    cx := ← found.get "cx" Draft.asNumber
    cy := ← found.get "cy" Draft.asNumber
    r := (← found.get "r" radius).getD Extended.infinity
    useSparse := ← found.get "use_sparse" Draft.asBool
    maskCount := ← found.get "mask_count" Draft.asNatural
    maskDtype := ← found.get "mask_dtype" MaskDtype.ofDraft }

end Parameters

end CenterOfMass
