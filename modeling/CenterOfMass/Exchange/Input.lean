import CenterOfMass.Analysis.Basic
import CenterOfMass.Exchange.Parameters
import CenterOfMass.Maps.Element

namespace CenterOfMass

/-- Three flat maps of real or of complex values. -/
inductive MapLists (R : Type)
  | real (sum y x : List R)
  | complex (sum y x : List (Complex R))

/-- Whether maps hold real or complex values. -/
inductive MapKind
  | real
  | complex
  deriving DecidableEq

/-- What a file has to say of a data set: its shape, its parameters, and its maps. -/
structure Input (R : Type) where
  shape : DatasetShape
  parameters : UserParameters R
  maps : MapLists R

namespace MapKind

def name : MapKind → String
  | .real => "real"
  | .complex => "complex"

end MapKind

variable {R : Type}

namespace MapLists

def kind : MapLists R → MapKind
  | .real .. => .real
  | .complex .. => .complex

/-- Kinds of maps are named by a text. -/
def asKind : Draft R → Except JsonFault MapKind
  | .text s => Draft.lookUp [("real", .real), ("complex", .complex)] s
  | d => .error d.wrongKind

/-- Takes in members of any kind and looks for the one that names the kind of the maps, which may
stand anywhere among them. -/
def findKind (depth : Nat) (kind : Option MapKind) :
    List (Key × Draft R) → Except JsonFault (Option MapKind × List (Key × Draft R))
  | [] => .ok (kind, [])
  | (key, value) :: rest => do
    if (← key.read) = "dtype" then
      if kind.isSome then throw .mismatch
      else findKind depth (some (← asKind value)) rest
    else
      value.takeIn depth
      let (kind, others) ← findKind depth kind rest
      return (kind, (key, value) :: others)

section Take

variable [NatCast R] [Neg R]

/-- Three lists of the same kind of value. -/
def asTriple {α : Type} (take : Draft R → Except JsonFault α) (d : Draft R) :
    Except JsonFault (List α × List α × List α) := do
  let values := Draft.asList take
  let found ← d.asRecord [.needed "sum" values, .needed "y" values, .needed "x" values]
  return (← found.get "sum" values, ← found.get "y" values, ← found.get "x" values)

/-- Maps of a known kind from values that have been taken in; all that can still be wrong with them
is that they are not these maps. -/
def ofTaken (kind : MapKind) (content : Draft R) : Except JsonFault (MapLists R) :=
  let maps : Except JsonFault (MapLists R) := match kind with
    | .real => (asTriple Draft.asNumber content).map fun (s, y, x) => .real s y x
    | .complex =>
      let pair (d : Draft R) : Except JsonFault (Complex R) :=
        (Draft.asPair Draft.asNumber d).map fun (re, im) => ⟨re, im⟩
      (asTriple pair content).map fun (s, y, x) => .complex s y x
  maps.mapError fun _ => .mismatch

/-- Maps with the name of their kind, as a member of its own or first in a list. They are taken in
as a whole before their values are looked at. The maps lie within `depth` lists. -/
def ofDraft (depth : Nat) : Draft R → Except JsonFault (MapLists R)
  | .object members ending => do
    let (kind, others) ← findKind (depth + 1) none members
    ending.check
    match kind with
    | some kind => ofTaken kind (.object others .closed)
    | none => throw .mismatch
  | .array [] ending => do
    ending.check
    throw .mismatch
  | .array (first :: others) ending => do
    let kind ← asKind first
    Draft.takeInItems (depth + 1) others
    ending.check
    ofTaken kind (.array others .closed)
  | d => .error d.wrongKind

end Take

end MapLists

namespace Input

/-- The parameters may be left out, but may not be null. -/
def ofDraft [NatCast R] [Neg R] (d : Draft R) : Except JsonFault (Input R) := do
  let axes : Draft R → Except JsonFault (List Nat) := Draft.asList Draft.asNatural
  let maps : Draft R → Except JsonFault (MapLists R) := MapLists.ofDraft 1
  let found ← d.asRecord [.needed "nav_shape" axes, .needed "sig_shape" axes,
    .omissible "parameters" UserParameters.ofDraft, .needed "maps" maps]
  return {
    shape := ⟨← found.get "nav_shape" axes, ← found.get "sig_shape" axes⟩
    parameters := ← found.getOr "parameters" UserParameters.ofDraft {}
    maps := ← found.get "maps" maps }

/-- The parameters of the file, except for those that are given anew. -/
def parametersWith (i : Input R) (given : UserParameters R) : UserParameters R :=
  given.override i.parameters

def analyze [Scalar R] [Element R R] [Element (Complex R) R] (i : Input R) (a : Analysis R) :
    Except Failure (ResultSet R) :=
  match i.maps with
  | .real s y x => a.resultsOfLists s.toArray y.toArray x.toArray
  | .complex s y x => a.resultsOfLists s.toArray y.toArray x.toArray

end Input

end CenterOfMass
