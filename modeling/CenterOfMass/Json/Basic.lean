namespace CenterOfMass

/-- The values that a JSON document can hold. Whole numbers are kept apart from other numbers. -/
inductive Json (R : Type)
  | null
  | bool (b : Bool)
  | natural (n : Nat)
  | real (x : R)
  | text (s : String)
  | array (items : List (Json R))
  | object (members : List (String × Json R))

end CenterOfMass
