import CenterOfMass.Proofs.Json.Numeral

namespace CenterOfMass.Json

mutual

/-- A value with all its numbers as they are written. -/
def spelled : Json Float → Json String
  | .null => .null
  | .bool b => .bool b
  | .natural n => .real (toString n)
  | .real x => .real (Decimal.jsonText x)
  | .text s => .text s
  | .array items => .array (spelledItems items)
  | .object members => .object (spelledMembers members)

def spelledItems : List (Json Float) → List (Json String)
  | [] => []
  | item :: items => item.spelled :: spelledItems items

def spelledMembers : List (String × Json Float) → List (String × Json String)
  | [] => []
  | (name, value) :: members => (name, value.spelled) :: spelledMembers members

end

section Text

/-- The characters of a value on one line. -/
def chars (value : Json Float) : List Char := value.compact.toList

/-- The characters of the items of a list, each behind a comma. -/
def itemsChars (items : List (Json Float)) : List Char :=
  items.flatMap fun item => ',' :: item.chars

/-- The characters of the members of an object, each behind a comma. -/
def membersChars (members : List (String × Json Float)) : List Char :=
  members.flatMap fun member => ',' :: (quoted member.1).toList ++ ':' :: member.2.chars

mutual

/-- A value is added to a text as it is written on its own. -/
theorem toList_compactOnto (out : String) : (value : Json Float) →
    (value.compactOnto out).toList = out.toList ++ value.chars
  | .null => by simp [chars, compact, compactOnto]
  | .bool _ => by simp [chars, compact, compactOnto]
  | .natural _ => by simp [chars, compact, compactOnto]
  | .real _ => by simp [chars, compact, compactOnto]
  | .text _ => by simp [chars, compact, compactOnto]
  | .array [] => by simp [chars, compact, compactOnto]
  | .array (item :: items) => by
    rw [chars, compact, compactOnto, compactOnto, String.toList_append, String.toList_append,
      toList_compactItems _ items, toList_compactItems _ items, toList_compactOnto _ item,
      toList_compactOnto _ item]
    simp
  | .object [] => by simp [chars, compact, compactOnto]
  | .object ((name, value) :: members) => by
    rw [chars, compact, compactOnto, compactOnto, String.toList_append, String.toList_append,
      toList_compactMembers _ members, toList_compactMembers _ members,
      toList_compactOnto _ value, toList_compactOnto _ value]
    simp

theorem toList_compactItems (out : String) : (items : List (Json Float)) →
    (compactItems out items).toList = out.toList ++ itemsChars items
  | [] => by simp [compactItems, itemsChars]
  | item :: items => by
    rw [compactItems, toList_compactItems _ items, toList_compactOnto _ item]
    simp [itemsChars]

theorem toList_compactMembers (out : String) : (members : List (String × Json Float)) →
    (compactMembers out members).toList = out.toList ++ membersChars members
  | [] => by simp [compactMembers, membersChars]
  | (name, value) :: members => by
    rw [compactMembers, toList_compactMembers _ members, toList_compactOnto _ value]
    simp [membersChars]

end

theorem chars_array (item : Json Float) (items : List (Json Float)) :
    (array (item :: items)).chars = '[' :: (item.chars ++ (itemsChars items ++ [']'])) := by
  rw [chars, compact, compactOnto, String.toList_append, toList_compactItems, toList_compactOnto]
  simp

theorem chars_object (name : String) (value : Json Float) (members : List (String × Json Float)) :
    (object ((name, value) :: members)).chars =
      '{' :: ((quoted name).toList ++ ':' :: (value.chars ++ (membersChars members ++ ['}']))) := by
  rw [chars, compact, compactOnto, String.toList_append, toList_compactMembers, toList_compactOnto]
  simp

theorem chars_text (s : String) : (text s : Json Float).chars = (quoted s).toList := by
  simp [chars, compact, compactOnto, scalarText]

end Text

section Words

variable {value : Json Float} {word rest : List Char} {fuel : Nat}

/-- A value that is a word or a number. -/
structure IsWord (value : Json Float) : Prop where
  isWordChar : ∀ c ∈ value.chars, isWordChar c = true
  ofWord : ofWord? value.chars = some value.spelled

theorem isWord_of_all (h : value.chars.all Json.isWordChar = true)
    (hword : ofWord? value.chars = some value.spelled) : value.IsWord where
  isWordChar := List.all_eq_true.mp h
  ofWord := hword

theorem isWord_null : IsWord .null := isWord_of_all (by decide) rfl

theorem isWord_bool (b : Bool) : IsWord (.bool b) := by
  cases b with
  | false => exact isWord_of_all (by decide) rfl
  | true => exact isWord_of_all (by decide) rfl

theorem isWord_numeral {s : String} (hs : IsNumeral s) (hne : s ≠ "")
    (hchars : value.chars = s.toList) (hspelled : value.spelled = .real s) : value.IsWord where
  isWordChar c hc := by
    rw [hchars] at hc
    exact isWordChar_of_isNumeralChar (hs c hc)
  ofWord := by
    have hword := ofWord?_numeral (mt String.toList_eq_nil_iff.mp hne) hs
    rw [hchars, hspelled, hword, String.ofList_toList]

theorem isWord_natural (n : Nat) : IsWord (.natural n) := by
  apply isWord_numeral (IsNumeral.natural n)
  · intro hempty
    have hdigits := congrArg String.toList hempty
    rw [Nat.toString_eq_ofList_toDigits, String.toList_ofList] at hdigits
    exact Nat.toDigits_ne_nil hdigits
  · simp [chars, compact, compactOnto, scalarText]
  · rfl

theorem isWord_real (x : Float) : IsWord (.real x) := by
  apply isWord_numeral (Decimal.isNumeral_jsonText x) (Decimal.jsonText_ne_empty x)
  · simp [chars, compact, compactOnto, scalarText]
  · rfl

theorem IsWord.takeValue? (h : value.IsWord) (hfuel : 0 < fuel) (hrest : EndsWord rest) :
    Json.takeValue? fuel (value.chars ++ rest) = some (value.spelled, rest) := by
  obtain ⟨fuel, rfl⟩ := Nat.exists_eq_succ_of_ne_zero (Nat.ne_of_gt hfuel)
  have hread := readWord?_append h.isWordChar hrest h.ofWord
  cases hchars : value.chars with
  | nil =>
    have hword := h.ofWord
    rw [hchars] at hword
    cases hword
  | cons c cs =>
    have hc : Json.isWordChar c = true := h.isWordChar c (hchars ▸ List.mem_cons_self)
    rw [hchars, List.cons_append] at hread
    rw [List.cons_append, takeValue?_word hc, hread]

end Words

section Parts

variable {fuel : Nat} {cs next rest : List Char} {name : String} {value : Json String}
  {items : List (Json String)} {members : List (String × Json String)}

theorem takeItems?_last (h : takeValue? fuel cs = some (value, ']' :: rest)) :
    takeItems? (fuel + 1) cs = some ([value], rest) := by simp only [takeItems?, h]

theorem takeItems?_more (h : takeValue? fuel cs = some (value, ',' :: next))
    (hnext : takeItems? fuel next = some (items, rest)) :
    takeItems? (fuel + 1) cs = some (value :: items, rest) := by
  simp only [takeItems?, h, hnext, Option.map_some]

/-- No item starts with the end of its list. -/
theorem takeItems?_bracket : takeItems? fuel (']' :: cs) = none := by
  cases fuel with
  | zero => rfl
  | succ fuel => cases fuel <;> rfl

theorem takeValue?_array (h : takeItems? fuel cs = some (items, rest)) :
    takeValue? (fuel + 1) ('[' :: cs) = some (.array items, rest) := by
  rw [takeValue?, h]
  · rfl
  · rintro cs' rfl
    rw [takeItems?_bracket] at h
    cases h

theorem takeMembers?_last
    (h : takeValue? fuel cs = some (value, '}' :: rest)) :
    takeMembers? (fuel + 1) ((quoted name).toList ++ ':' :: cs) = some ([(name, value)], rest) := by
  simp only [takeMembers?, readName?_quoted, h]

theorem takeMembers?_more (h : takeValue? fuel cs = some (value, ',' :: next))
    (hnext : takeMembers? fuel next = some (members, rest)) :
    takeMembers? (fuel + 1) ((quoted name).toList ++ ':' :: cs) =
      some ((name, value) :: members, rest) := by
  simp only [takeMembers?, readName?_quoted, h, hnext, Option.map_some]

/-- No member starts with the end of its object. -/
theorem takeMembers?_brace : takeMembers? fuel ('}' :: cs) = none := by
  cases fuel <;> rfl

theorem takeValue?_object (h : takeMembers? fuel cs = some (members, rest)) :
    takeValue? (fuel + 1) ('{' :: cs) = some (.object members, rest) := by
  rw [takeValue?, h]
  · rfl
  · rintro cs' rfl
    rw [takeMembers?_brace] at h
    cases h

end Parts

theorem endsWord_itemsChars (items : List (Json Float)) (rest : List Char) :
    EndsWord (itemsChars items ++ ']' :: rest) := by
  cases items with
  | nil => exact endsWord_cons (by decide) rest
  | cons => exact endsWord_cons (by decide) _

theorem endsWord_membersChars (members : List (String × Json Float)) (rest : List Char) :
    EndsWord (membersChars members ++ '}' :: rest) := by
  cases members with
  | nil => exact endsWord_cons (by decide) rest
  | cons => exact endsWord_cons (by decide) _

-- By the constructors of a value. A list is read item by item, so that the statement about its
-- items takes the reading of the one before them as given.
mutual

/-- A value is read as it is written, whatever follows it. -/
theorem takeValue?_chars (fuel : Nat) {rest : List Char} : (value : Json Float) →
    value.chars.length < fuel → EndsWord rest →
    takeValue? fuel (value.chars ++ rest) = some (value.spelled, rest)
  | .null, hfuel, hrest => isWord_null.takeValue? (Nat.zero_lt_of_lt hfuel) hrest
  | .bool b, hfuel, hrest => (isWord_bool b).takeValue? (Nat.zero_lt_of_lt hfuel) hrest
  | .natural n, hfuel, hrest => (isWord_natural n).takeValue? (Nat.zero_lt_of_lt hfuel) hrest
  | .real x, hfuel, hrest => (isWord_real x).takeValue? (Nat.zero_lt_of_lt hfuel) hrest
  | .text s, hfuel, _ => by
    obtain ⟨fuel, rfl⟩ := Nat.exists_eq_succ_of_ne_zero (Nat.ne_zero_of_lt hfuel)
    rw [chars_text, toList_quoted, List.append_assoc, List.cons_append, List.singleton_append,
      takeValue?, readQuoted?_flatMap_escaped]
    rfl
  | .array [], hfuel, _ => by
    obtain ⟨fuel, rfl⟩ := Nat.exists_eq_succ_of_ne_zero (Nat.ne_zero_of_lt hfuel)
    rfl
  | .array (item :: items), hfuel, _ => by
    rw [chars_array] at hfuel ⊢
    simp only [List.length_cons, List.length_append, List.length_nil] at hfuel
    obtain ⟨fuel, rfl⟩ : ∃ n, fuel = n + 2 := ⟨fuel - 2, by omega⟩
    have hitem := takeValue?_chars fuel item (by omega) (endsWord_itemsChars items rest)
    have hitems := takeItems?_chars items hitem (by omega)
    simp only [List.cons_append, List.append_assoc, List.nil_append]
    exact takeValue?_array hitems
  | .object [], hfuel, _ => by
    obtain ⟨fuel, rfl⟩ := Nat.exists_eq_succ_of_ne_zero (Nat.ne_zero_of_lt hfuel)
    rfl
  | .object ((name, value) :: members), hfuel, _ => by
    rw [chars_object] at hfuel ⊢
    simp only [List.length_cons, List.length_append, List.length_nil] at hfuel
    obtain ⟨fuel, rfl⟩ : ∃ n, fuel = n + 2 := ⟨fuel - 2, by omega⟩
    have hvalue := takeValue?_chars fuel value (by omega)
      (endsWord_membersChars members rest)
    have hmembers := takeMembers?_chars name members hvalue (by omega)
    simp only [List.cons_append, List.append_assoc, List.nil_append]
    exact takeValue?_object hmembers

theorem takeItems?_chars {fuel : Nat} {cs rest : List Char} {first : Json String} :
    (items : List (Json Float)) →
    takeValue? fuel cs = some (first, itemsChars items ++ ']' :: rest) →
    (itemsChars items).length < fuel →
    takeItems? (fuel + 1) cs = some (first :: spelledItems items, rest)
  | [], hfirst, _ => takeItems?_last hfirst
  | item :: items, hfirst, hfuel => by
    obtain ⟨fuel, rfl⟩ := Nat.exists_eq_succ_of_ne_zero (Nat.ne_zero_of_lt hfuel)
    simp only [itemsChars, List.flatMap_cons, List.length_append, List.length_cons] at hfuel
    simp only [itemsChars, List.flatMap_cons, List.cons_append, List.append_assoc] at hfirst
    have hitem := takeValue?_chars fuel item (by omega) (endsWord_itemsChars items rest)
    have hitems := takeItems?_chars items hitem (by unfold itemsChars; omega)
    exact takeItems?_more hfirst hitems

theorem takeMembers?_chars {fuel : Nat} {cs rest : List Char} {first : Json String}
    (name : String) : (members : List (String × Json Float)) →
    takeValue? fuel cs = some (first, membersChars members ++ '}' :: rest) →
    (membersChars members).length < fuel →
    takeMembers? (fuel + 1) ((quoted name).toList ++ ':' :: cs) =
      some ((name, first) :: spelledMembers members, rest)
  | [], hfirst, _ => takeMembers?_last hfirst
  | (next, value) :: members, hfirst, hfuel => by
    obtain ⟨fuel, rfl⟩ := Nat.exists_eq_succ_of_ne_zero (Nat.ne_zero_of_lt hfuel)
    simp only [membersChars, List.flatMap_cons, List.length_append, List.length_cons] at hfuel
    simp only [membersChars, List.flatMap_cons, List.cons_append, List.append_assoc] at hfirst
    have hvalue := takeValue?_chars fuel value (by omega)
      (endsWord_membersChars members rest)
    have hmembers := takeMembers?_chars next members hvalue
      (by unfold membersChars; omega)
    exact takeMembers?_more hfirst hmembers

end

/-- A document on one line is read as it was written, with its numbers as they are written. -/
theorem read?_compact (value : Json Float) : read? value.compact = some value.spelled := by
  have htake := takeValue?_chars _ value (Nat.lt_succ_self _) endsWord_nil
  rw [List.append_nil] at htake
  unfold read?
  rw [show value.compact.toList = value.chars from rfl, htake]

end CenterOfMass.Json
