import CenterOfMass.Json.Basic

namespace CenterOfMass

/-- Why a document cannot be taken for what was asked for. -/
inductive JsonFault
  /-- The text is not JSON. -/
  | malformed
  /-- The text ends too early. -/
  | truncated
  /-- The text is JSON, but of something else. -/
  | mismatch
  deriving DecidableEq

/-- A place in a text at which no value can be read. What is wrong with it depends on what it is
looked at for; if it is passed over there need not be anything wrong. -/
structure Unreadable where
  asValue : JsonFault
  asName : JsonFault
  skipped : Option JsonFault
  deriving DecidableEq

/-- Whether a list goes on to its bracket or what comes in between. -/
inductive Ending
  | closed
  | cut (fault : JsonFault)
  deriving DecidableEq

/-- The name of a member. -/
inductive Key
  | text (s : String)
  | unreadable (u : Unreadable)
  deriving DecidableEq

/-- A document as far as it could be read. Nothing is held of the text after the first place that
cannot be passed over. -/
inductive Draft (R : Type)
  | null
  | bool (b : Bool)
  | natural (n : Nat)
  | negative (n : Nat)
  | real (x : R)
  | text (s : String)
  | array (items : List (Draft R)) (ending : Ending)
  | object (members : List (Key × Draft R)) (ending : Ending)
  | unreadable (u : Unreadable)

variable {R : Type}

def Ending.check : Ending → Except JsonFault Unit
  | .closed => .ok ()
  | .cut fault => .error fault

namespace Key

def read : Key → Except JsonFault String
  | .text s => .ok s
  | .unreadable u => .error u.asValue

def skip : Key → Except JsonFault Unit
  | .unreadable { skipped := some fault, .. } => .error fault
  | _ => .ok ()

end Key

namespace Draft

mutual

/-- Passes over a value of any kind. -/
def skip : Draft R → Except JsonFault Unit
  | .array items ending => do
    skipItems items
    ending.check
  | .object members ending => do
    skipMembers members
    ending.check
  | .unreadable { skipped := some fault, .. } => .error fault
  | _ => .ok ()

def skipItems : List (Draft R) → Except JsonFault Unit
  | [] => .ok ()
  | item :: rest => do
    item.skip
    skipItems rest

def skipMembers : List (Key × Draft R) → Except JsonFault Unit
  | [] => .ok ()
  | (key, value) :: rest => do
    key.skip
    value.skip
    skipMembers rest

end

/-- Lists within lists are taken in only up to this depth. -/
def depthLimit : Nat := 128

mutual

/-- Takes in a value of any kind, within `depth` lists. -/
def takeIn (depth : Nat) : Draft R → Except JsonFault Unit
  | .array items ending => do
    if depthLimit ≤ depth + 1 then .error .malformed
    else
      takeInItems (depth + 1) items
      ending.check
  | .object members ending => do
    if depthLimit ≤ depth + 1 then .error .malformed
    else
      takeInMembers (depth + 1) members
      ending.check
  | .unreadable u => .error u.asValue
  | _ => .ok ()

def takeInItems (depth : Nat) : List (Draft R) → Except JsonFault Unit
  | [] => .ok ()
  | item :: rest => do
    item.takeIn depth
    takeInItems depth rest

def takeInMembers (depth : Nat) : List (Key × Draft R) → Except JsonFault Unit
  | [] => .ok ()
  | (key, value) :: rest => do
    discard key.read
    value.takeIn depth
    takeInMembers depth rest

end

/-- What is wrong with a value that is not of the kind asked for. -/
def wrongKind : Draft R → JsonFault
  | .unreadable u => u.asValue
  | _ => .mismatch

end Draft

mutual

/-- A value as it is read back from its text. -/
def Json.draft : Json R → Draft R
  | .null => .null
  | .bool b => .bool b
  | .natural n => .natural n
  | .real x => .real x
  | .text s => .text s
  | .array items => .array (Json.draftItems items) .closed
  | .object members => .object (Json.draftMembers members) .closed

def Json.draftItems : List (Json R) → List (Draft R)
  | [] => []
  | item :: rest => item.draft :: Json.draftItems rest

def Json.draftMembers : List (String × Json R) → List (Key × Draft R)
  | [] => []
  | (key, value) :: rest => (.text key, value.draft) :: Json.draftMembers rest

end

end CenterOfMass
