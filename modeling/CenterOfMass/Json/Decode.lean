import CenterOfMass.Json.Draft

namespace CenterOfMass

namespace Draft

variable {R α : Type}

section Number

variable [NatCast R] [Neg R]

def asNumber : Draft R → Except JsonFault R
  | .natural n => .ok (Nat.cast n)
  | .negative n => .ok (-(Nat.cast n))
  | .real x => .ok x
  | d => .error d.wrongKind

end Number

/-- A whole number not below zero, written as one. -/
def asNatural : Draft R → Except JsonFault Nat
  | .natural n => .ok n
  | d => .error d.wrongKind

def asBool : Draft R → Except JsonFault Bool
  | .bool b => .ok b
  | d => .error d.wrongKind

/-- Null stands for a value that is left out. -/
def asOptional (take : Draft R → Except JsonFault α) : Draft R → Except JsonFault (Option α)
  | .null => .ok none
  | d => (take d).map some

def asList (take : Draft R → Except JsonFault α) : Draft R → Except JsonFault (List α)
  | .array items ending => do
    let taken ← items.mapM take
    ending.check
    return taken
  | d => .error d.wrongKind

/-- A list of exactly two. -/
def asPair (take : Draft R → Except JsonFault α) : Draft R → Except JsonFault (α × α)
  | .array [a, b] .closed => do return (← take a, ← take b)
  | d => .error d.wrongKind

/-- What a name stands for. -/
def lookUp (names : List (String × α)) (name : String) : Except JsonFault α :=
  match names.lookup name with
  | some a => .ok a
  | none => .error .mismatch

/-- One of several names, as a text or as the only member of an object, whose value is null. -/
def asOneOf (names : List (String × α)) : Draft R → Except JsonFault α
  | .text s => lookUp names s
  | .unreadable u => .error u.asName
  | .object [] ending => do
    ending.check
    throw .malformed
  | .object ((key, value) :: more) ending => do
    let found ← lookUp names (← key.read)
    match value with
    | .null => pure ()
    | d => throw d.wrongKind
    if more.isEmpty then
      ending.check
      return found
    else throw .malformed
  | _ => .error .malformed

end Draft

/-- A field of a record: whether it has to be there, and what its value has to be. -/
structure Field (R : Type) where
  name : String
  required : Bool
  check : Draft R → Except JsonFault Unit

namespace Field

variable {R α : Type}

/-- A field that every record has. -/
def needed (name : String) (take : Draft R → Except JsonFault α) : Field R :=
  ⟨name, true, fun d => (take d).map fun _ => ()⟩

/-- A field that may be left out of an object. -/
def omissible (name : String) (take : Draft R → Except JsonFault α) : Field R :=
  ⟨name, false, fun d => (take d).map fun _ => ()⟩

end Field

/-- The fields of a record as they were found. -/
abbrev Found (R : Type) := List (String × Draft R)

namespace Found

variable {R α : Type}

def get (found : Found R) (name : String) (take : Draft R → Except JsonFault α) :
    Except JsonFault α :=
  match found.lookup name with
  | some d => take d
  | none => .error .mismatch

def getOr (found : Found R) (name : String) (take : Draft R → Except JsonFault α) (absent : α) :
    Except JsonFault α :=
  match found.lookup name with
  | some d => take d
  | none => .ok absent

end Found

namespace Draft

variable {R : Type}

/-- Goes over the members of an object. A name that is not a field's is passed over with its value,
and no field may come twice. -/
def members (fields : List (Field R)) (found : Found R) :
    List (Key × Draft R) → Except JsonFault (Found R)
  | [] => .ok found
  | (key, value) :: rest => do
    let name ← key.read
    match fields.find? (·.name = name) with
    | none =>
      value.skip
      members fields found rest
    | some field =>
      if (found.lookup name).isSome then throw .mismatch
      else
        field.check value
        members fields ((name, value) :: found) rest

/-- Goes over a list that holds the fields in order and nothing else. -/
def inOrder : List (Field R) → List (Draft R) → Ending → Except JsonFault (Found R)
  | [], [], ending => do
    ending.check
    return []
  | [], _ :: _, _ => .error .malformed
  | _ :: _, [], ending => do
    ending.check
    throw .mismatch
  | field :: fields, item :: items, ending => do
    field.check item
    return (field.name, item) :: (← inOrder fields items ending)

/-- A record, as an object or as a list of its fields. -/
def asRecord (fields : List (Field R)) : Draft R → Except JsonFault (Found R)
  | .object list ending => do
    let found ← members fields [] list
    ending.check
    if fields.all fun f => !f.required || (found.lookup f.name).isSome then return found
    else throw .mismatch
  | .array items ending => inOrder fields items ending
  | d => .error d.wrongKind

end Draft

end CenterOfMass
