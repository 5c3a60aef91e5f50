import CenterOfMass.Grid
import CenterOfMass.Image.Basic

namespace CenterOfMass

/-- The values behind a result. -/
inductive RawData (R : Type)
  | single (map : Grid R)
  /-- The two components of a vector field. -/
  | pair (x y : Grid R)

def RawData.shape {R : Type} : RawData R → Nat × Nat
  | .single map => map.shape
  | .pair x _ => x.shape

/-- A result under its name, with the image that shows it. -/
structure Entry (R : Type) where
  raw : RawData R
  image : Image
  key : String
  title : String
  description : String
  /-- Whether the values are handed out, or only the image. -/
  inDownload : Bool := true

/-- Results in order, no two of them under one key. -/
structure ResultSet (R : Type) where
  entries : List (Entry R)
  keys_nodup : (entries.map Entry.key).Nodup

/-- The first key that has been seen before its place in the list. -/
def repeatedKey? (seen : List String) : List String → Option String
  | [] => none
  | k :: ks => if k ∈ seen then some k else repeatedKey? (k :: seen) ks

theorem repeatedKey?_eq_none_iff {seen keys : List String} :
    repeatedKey? seen keys = none ↔ keys.Nodup ∧ ∀ k ∈ keys, k ∉ seen := by
  induction keys generalizing seen with
  | nil => simp [repeatedKey?]
  | cons k ks ih =>
    by_cases h : k ∈ seen
    · simp [repeatedKey?, h]
    · simp only [repeatedKey?, h, if_false, ih, List.nodup_cons, List.mem_cons]
      grind

namespace ResultSet

variable {R : Type}

/-- Takes entries together, or reports the first key that an earlier entry has. -/
def ofEntries (entries : List (Entry R)) : Except Failure (ResultSet R) :=
  match h : repeatedKey? [] (entries.map Entry.key) with
  | some key => .error (.duplicateKey key)
  | none => .ok ⟨entries, (repeatedKey?_eq_none_iff.mp h).1⟩

def get? (s : ResultSet R) (key : String) : Option (Entry R) := s.entries.find? (·.key == key)

/-- The entry at a place, which has to be one of the set's. -/
def entry (s : ResultSet R) (i : Nat) : Except Failure (Entry R) :=
  match s.entries[i]? with
  | some e => .ok e
  | none => .error .outOfRange

def size (s : ResultSet R) : Nat := s.entries.length

def isEmpty (s : ResultSet R) : Bool := s.entries.isEmpty

def keys (s : ResultSet R) : List String := s.entries.map Entry.key

def downloadable (s : ResultSet R) : List (Entry R) := s.entries.filter (·.inDownload)

end ResultSet

end CenterOfMass
