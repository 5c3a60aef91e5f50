import CenterOfMass.Json.Printer
import CenterOfMass.Json.Text
import CenterOfMass.Decimal.Literal
import Mathlib.Tactic.SplitIfs

namespace CenterOfMass.Json

/-- The characters that numbers are written with. -/
def isNumeralChar (c : Char) : Bool := c.isDigit || ['-', '+', '.', 'e', 'E'].contains c

/-- The characters that words and numbers are written with. -/
def isWordChar (c : Char) : Bool := c.isAlpha || isNumeralChar c

/-- A value without parts and quotes. How a number is read is left open. -/
def ofWord? (word : List Char) : Option (Json String) :=
  if word = [] then none
  else if word.all isNumeralChar then some (.real (String.ofList word))
  else if word = "null".toList then some .null
  else if word = "true".toList then some (.bool true)
  else if word = "false".toList then some (.bool false)
  else none

def readWord? (cs : List Char) : Option (Json String × List Char) :=
  (ofWord? (cs.takeWhile isWordChar)).map fun value => (value, cs.dropWhile isWordChar)

/-- A text from behind its opening quote, and what follows it. -/
def readQuoted? (cs : List Char) : Option (String × List Char) :=
  match readText cs with
  | ⟨.ok s, .ok rest⟩ => some (s, rest)
  | _ => none

/-- A name in front of a value. -/
def readName? : List Char → Option (String × List Char)
  | '"' :: cs =>
    match readQuoted? cs with
    | some (name, ':' :: rest) => some (name, rest)
    | _ => none
  | _ => none

mutual

/-- A value without blanks and what follows it. The characters of a value, and one more, are enough
fuel for it. -/
def takeValue? : Nat → List Char → Option (Json String × List Char)
  | 0, _ => none
  | _ + 1, '"' :: cs => (readQuoted? cs).map fun (s, rest) => (.text s, rest)
  | _ + 1, '[' :: ']' :: cs => some (.array [], cs)
  | fuel + 1, '[' :: cs => (takeItems? fuel cs).map fun (items, rest) => (.array items, rest)
  | _ + 1, '{' :: '}' :: cs => some (.object [], cs)
  | fuel + 1, '{' :: cs =>
    (takeMembers? fuel cs).map fun (members, rest) => (.object members, rest)
  | _ + 1, cs => readWord? cs

/-- The items of a list from one of them on. -/
def takeItems? : Nat → List Char → Option (List (Json String) × List Char)
  | 0, _ => none
  | fuel + 1, cs =>
    match takeValue? fuel cs with
    | some (item, ']' :: rest) => some ([item], rest)
    | some (item, ',' :: rest) =>
      (takeItems? fuel rest).map fun (items, rest) => (item :: items, rest)
    | _ => none

/-- The members of an object from one of them on. -/
def takeMembers? : Nat → List Char → Option (List (String × Json String) × List Char)
  | 0, _ => none
  | fuel + 1, cs =>
    match readName? cs with
    | none => none
    | some (name, cs) =>
      match takeValue? fuel cs with
      | some (value, '}' :: rest) => some ([(name, value)], rest)
      | some (value, ',' :: rest) =>
        (takeMembers? fuel rest).map fun (members, rest) => ((name, value) :: members, rest)
      | _ => none

end

/-- Reads a document on one line, and leaves every number as it is written. -/
def read? (document : String) : Option (Json String) :=
  match takeValue? (document.toList.length + 1) document.toList with
  | some (value, []) => some value
  | _ => none

section Words

variable {word rest : List Char} {value : Json String}

/-- A word does not go on into what follows it. -/
def EndsWord (rest : List Char) : Prop := ∀ c ∈ rest.head?, isWordChar c = false

theorem endsWord_nil : EndsWord [] := by
  intro c hc
  cases hc

theorem endsWord_cons {c : Char} (h : isWordChar c = false) (cs : List Char) :
    EndsWord (c :: cs) := by
  intro d hd
  obtain rfl := Option.some.inj hd
  exact h

theorem takeWhile_isWordChar_append (hword : ∀ c ∈ word, isWordChar c = true)
    (hrest : EndsWord rest) : (word ++ rest).takeWhile isWordChar = word := by
  rw [List.takeWhile_append_of_pos hword]
  cases rest with
  | nil => exact List.append_nil word
  | cons c cs => rw [List.takeWhile_cons_of_neg (by simp [hrest c rfl]), List.append_nil]

theorem dropWhile_isWordChar_append (hword : ∀ c ∈ word, isWordChar c = true)
    (hrest : EndsWord rest) : (word ++ rest).dropWhile isWordChar = rest := by
  rw [List.dropWhile_append_of_pos hword]
  cases rest with
  | nil => rfl
  | cons c cs => rw [List.dropWhile_cons_of_neg (by simp [hrest c rfl])]

/-- A word is read to its end. -/
theorem readWord?_append (hword : ∀ c ∈ word, isWordChar c = true) (hrest : EndsWord rest)
    (hvalue : ofWord? word = some value) : readWord? (word ++ rest) = some (value, rest) := by
  unfold readWord?
  rw [takeWhile_isWordChar_append hword hrest, dropWhile_isWordChar_append hword hrest, hvalue]
  rfl

theorem isWordChar_of_isNumeralChar {c : Char} (h : isNumeralChar c = true) :
    isWordChar c = true := by
  unfold isWordChar
  rw [h, Bool.or_true]

theorem ofWord?_numeral (hne : word ≠ []) (hword : ∀ c ∈ word, isNumeralChar c = true) :
    ofWord? word = some (.real (String.ofList word)) := by
  rw [ofWord?, if_neg hne, if_pos (List.all_eq_true.mpr hword)]

/-- A value that starts with a character of a word is a word. -/
theorem takeValue?_word {c : Char} (hc : isWordChar c = true) (fuel : Nat) (cs : List Char) :
    takeValue? (fuel + 1) (c :: cs) = readWord? (c :: cs) := by
  unfold takeValue?
  split <;> simp_all [isWordChar, isNumeralChar]

end Words

section Quoted

theorem hexValue?_hexDigit : ∀ d < 16, hexValue? (hexDigit d) = some d := by decide

/-- Two hexadecimal digits are enough for the characters that have to be written as numbers. -/
theorem hexUnit_hexDigit {n : Nat} (h : n < 256) (cs : List Char) :
    hexUnit ('0' :: '0' :: hexDigit (n / 16) :: hexDigit (n % 16) :: cs) = .ok n := by
  have hzero : hexValue? '0' = some 0 := by decide
  have hhigh := hexValue?_hexDigit (n / 16) (by omega)
  have hlow := hexValue?_hexDigit (n % 16) (by omega)
  simp only [hexUnit, hzero, hhigh, hlow]
  congr 1
  omega

/-- A character within quotes is read as itself. -/
theorem scanText_escaped (c : Char) (fuel : Nat) (done cs : List Char) :
    scanText (fuel + 1) done (escaped c ++ cs) = scanText fuel (c :: done) cs := by
  by_cases hquote : c = '"'
  · subst hquote; rfl
  by_cases hslash : c = '\\'
  · subst hslash; rfl
  by_cases hletter : c = '\x08' ∨ c = '\x0c' ∨ c = '\n' ∨ c = '\r' ∨ c = '\t'
  · obtain rfl | rfl | rfl | rfl | rfl := hletter <;> rfl
  simp only [not_or] at hletter
  obtain ⟨hback, hfeed, hline, hreturn, htab⟩ := hletter
  by_cases hlow : c < ' '
  · have hnat : c.toNat < 32 := hlow
    have hunit := hexUnit_hexDigit (show c.toNat < 256 by omega) cs
    have htrailing : isTrailing c.toNat = false := by
      rw [isTrailing, decide_eq_false (by omega), Bool.false_and]
    have hleading : isLeading c.toNat = false := by
      rw [isLeading, decide_eq_false (by omega), Bool.false_and]
    simp only [escaped, if_neg hquote, if_neg hslash, if_neg hback, if_neg hfeed, if_neg hline,
      if_neg hreturn, if_neg htab, if_pos hlow, List.cons_append, List.nil_append, scanText, hunit,
      htrailing, hleading, Char.ofNat_toNat, Bool.false_eq_true, if_false, List.drop_succ_cons,
      List.drop_zero]
  · simp only [escaped, if_neg hquote, if_neg hslash, if_neg hback, if_neg hfeed, if_neg hline,
      if_neg hreturn, if_neg htab, if_neg hlow, List.cons_append, List.nil_append]
    rw [scanText.eq_def]
    split <;> simp_all [-Char.not_lt]

theorem scanText_flatMap_escaped (s : List Char) {fuel : Nat} (hfuel : s.length < fuel)
    (done rest : List Char) : scanText fuel done (s.flatMap escaped ++ '"' :: rest) =
      ⟨.ok (String.ofList (done.reverse ++ s)), .ok rest⟩ := by
  induction s generalizing fuel done with
  | nil =>
    cases fuel with
    | zero => cases hfuel
    | succ fuel => rw [List.append_nil]; rfl
  | cons c s ih =>
    cases fuel with
    | zero => cases hfuel
    | succ fuel =>
      rw [List.flatMap_cons, List.append_assoc, scanText_escaped,
        ih (Nat.lt_of_succ_lt_succ hfuel), List.reverse_cons, List.append_assoc]
      rfl

theorem length_le_flatMap_escaped (s : List Char) : s.length ≤ (s.flatMap escaped).length := by
  induction s with
  | nil => exact Nat.le_refl 0
  | cons c s ih =>
    have hc : 1 ≤ (escaped c).length := by
      unfold escaped
      split_ifs <;> simp
    rw [List.flatMap_cons, List.length_append, List.length_cons]
    omega

/-- A text in quotes is read as itself. -/
theorem readQuoted?_flatMap_escaped (s : String) (rest : List Char) :
    readQuoted? (s.toList.flatMap escaped ++ '"' :: rest) = some (s, rest) := by
  have hlength := length_le_flatMap_escaped s.toList
  have hscan : readText (s.toList.flatMap escaped ++ '"' :: rest) = ⟨.ok s, .ok rest⟩ := by
    unfold readText
    rw [scanText_flatMap_escaped]
    · simp
    · rw [List.length_append]
      omega
  rw [readQuoted?, hscan]

theorem toList_quoted (s : String) :
    (quoted s).toList = '"' :: s.toList.flatMap escaped ++ ['"'] := by
  simp [quoted]

theorem readName?_quoted (name : String) (rest : List Char) :
    readName? ((quoted name).toList ++ ':' :: rest) = some (name, rest) := by
  rw [toList_quoted, List.append_assoc, List.cons_append, List.singleton_append]
  simp only [readName?, readQuoted?_flatMap_escaped]

end Quoted

end CenterOfMass.Json
