import CenterOfMass.Decimal.Literal
import CenterOfMass.Json.Text
import CenterOfMass.Numeric.Word

namespace CenterOfMass.Json

def isBlank (c : Char) : Bool := c = ' ' || c = '\n' || c = '\t' || c = '\r'

def skipBlanks (cs : List Char) : List Char := cs.dropWhile isBlank

/-- A fault that stands in the way of every use of the place. -/
def fault (f : JsonFault) : Unreadable := ⟨f, f, some f⟩

/-- A value and what follows it, unless the value cannot be passed over. -/
abbrev Reading := Draft Float × Option (List Char)

def stuck (u : Unreadable) : Reading := (.unreadable u, none)

/-- The rest of a word that stands for a value. -/
def readWord (value : Draft Float) : List Char → List Char → Reading
  | [], cs => (value, some cs)
  | _ :: _, [] => stuck ⟨.truncated, .malformed, some .truncated⟩
  | w :: ws, c :: cs => if c = w then readWord value ws cs else stuck (fault .malformed)

/-- A number that breaks off. -/
def brokenNumber (rest : List Char) : Unreadable :=
  ⟨if rest.isEmpty then .truncated else .malformed, .malformed, some .malformed⟩

/-- A whole number that fits in a word is kept as one. Zero below zero does not count as whole. -/
def wholeNumber (minus : Bool) (digits : List Char) : Option (Draft Float) :=
  let n := Decimal.natOfDigits digits
  if minus then
    if 0 < n ∧ n ≤ Word.half then some (.negative n) else none
  else if n < Word.limit then some (.natural n)
  else none

/-- Any other number. One beyond the largest double cannot be read, but can be passed over. -/
def otherNumber (minus : Bool) (whole fraction : List Char) (exponent : Int) : Draft Float :=
  match Decimal.wordScaled? whole fraction exponent with
  | some x => .real (if minus then -x else x)
  | none => .unreadable ⟨.malformed, .malformed, none⟩

/-- The fraction behind the whole digits; what breaks off is reported with what is left. -/
def readFraction : List Char → Except (List Char) (Option (List Char) × List Char)
  | '.' :: cs =>
    let (digits, rest) := Decimal.spanDigits cs
    if digits.isEmpty then .error rest else .ok (some digits, rest)
  | cs => .ok (none, cs)

/-- The exponent behind the digits. -/
def readExponent : List Char → Except (List Char) (Option Int × List Char)
  | c :: cs =>
    if c = 'e' ∨ c = 'E' then
      let (minus, cs) := match cs with
        | '+' :: cs => (false, cs)
        | '-' :: cs => (true, cs)
        | cs => (false, cs)
      let (digits, rest) := Decimal.spanDigits cs
      let n : Int := Decimal.natOfDigits digits
      if digits.isEmpty then .error rest else .ok (some (if minus then -n else n), rest)
    else .ok (none, c :: cs)
  | [] => .ok (none, [])

/-- A number behind its sign. -/
def readNumber (minus : Bool) (cs : List Char) : Reading :=
  match Decimal.spanDigits cs with
  | ([], rest) => stuck (brokenNumber rest)
  | ('0' :: _ :: _, _) => stuck (brokenNumber ['0'])
  | (whole, rest) =>
    match readFraction rest with
    | .error rest => stuck (brokenNumber rest)
    | .ok (fraction, rest) =>
      match readExponent rest with
      | .error rest => stuck (brokenNumber rest)
      | .ok (exponent, rest) =>
        let other := otherNumber minus whole (fraction.getD []) (exponent.getD 0)
        match fraction, exponent with
        | none, none => ((wholeNumber minus whole).getD other, some rest)
        | _, _ => (other, some rest)

mutual

/-- Reads a value. Two of those that `fuel` counts are enough for each character. -/
def readValue : Nat → List Char → Reading
  | 0, _ => stuck (fault .truncated)
  | fuel + 1, cs =>
    match skipBlanks cs with
    | [] => stuck (fault .truncated)
    | 'n' :: cs => readWord .null ['u', 'l', 'l'] cs
    | 't' :: cs => readWord (.bool true) ['r', 'u', 'e'] cs
    | 'f' :: cs => readWord (.bool false) ['a', 'l', 's', 'e'] cs
    | '"' :: cs =>
      let scan := readText cs
      match scan.unreadable?, scan.contents with
      | none, .ok s => (.text s, scan.rest.toOption)
      | some u, _ => (.unreadable u, scan.rest.toOption)
      | none, .error f => stuck (fault f)
    | '[' :: cs =>
      match skipBlanks cs with
      | [] => (.array [] (.cut .truncated), none)
      | ']' :: cs => (.array [] .closed, some cs)
      | cs =>
        let (items, ending, rest) := readItems fuel [] cs
        (.array items ending, rest)
    | '{' :: cs =>
      match skipBlanks cs with
      | [] => (.object [] (.cut .truncated), none)
      | '}' :: cs => (.object [] .closed, some cs)
      | '"' :: cs =>
        let (members, ending, rest) := readMembers fuel [] cs
        (.object members ending, rest)
      | _ => (.object [] (.cut .malformed), none)
    | c :: cs =>
      if c = '-' then readNumber true cs
      else if Decimal.isDigit c then readNumber false (c :: cs)
      else stuck (fault .malformed)

/-- Reads the items of a list from one of them on, with those before it in reverse. -/
def readItems : Nat → List (Draft Float) → List Char →
    List (Draft Float) × Ending × Option (List Char)
  | 0, done, _ => (done.reverse, .cut .truncated, none)
  | fuel + 1, done, cs =>
    let (item, rest) := readValue fuel cs
    let done := item :: done
    match rest.map skipBlanks with
    | none => (done.reverse, .cut .malformed, none)
    | some [] => (done.reverse, .cut .truncated, none)
    | some (']' :: cs) => (done.reverse, .closed, some cs)
    | some (',' :: cs) => readItems fuel done cs
    | some _ => (done.reverse, .cut .malformed, none)

/-- Reads the members of an object from behind the quote that opens the name of one of them, with
those before it in reverse. -/
def readMembers : Nat → List (Key × Draft Float) → List Char →
    List (Key × Draft Float) × Ending × Option (List Char)
  | 0, done, _ => (done.reverse, .cut .truncated, none)
  | fuel + 1, done, cs =>
    let scan := readText cs
    let key : Key := match scan.unreadable?, scan.contents with
      | none, .ok s => .text s
      | some u, _ => .unreadable u
      | none, .error f => .unreadable (fault f)
    let (value, rest) := match scan.rest.toOption.map skipBlanks with
      | none => stuck (fault .malformed)
      | some [] => stuck (fault .truncated)
      | some (':' :: cs) => readValue fuel cs
      | some _ => stuck (fault .malformed)
    let done := (key, value) :: done
    match rest.map skipBlanks with
    | none => (done.reverse, .cut .malformed, none)
    | some [] => (done.reverse, .cut .truncated, none)
    | some ('}' :: cs) => (done.reverse, .closed, some cs)
    | some (',' :: cs) =>
      match skipBlanks cs with
      | '"' :: cs => readMembers fuel done cs
      | [] => (((.unreadable (fault .truncated), .null) :: done).reverse, .cut .malformed, none)
      | _ => (((.unreadable (fault .malformed), .null) :: done).reverse, .cut .malformed, none)
    | some _ => (done.reverse, .cut .malformed, none)

end

/-- Reads a text that holds one value of the kind that `take` asks for, and nothing after it. -/
def readDocument {α : Type} (take : Draft Float → Except JsonFault α) (text : String) :
    Except JsonFault α := do
  let cs := text.toList
  let (value, rest) := readValue (2 * cs.length + 2) cs
  let taken ← take value
  match rest.map skipBlanks with
  | some [] => return taken
  | _ => throw .malformed

end CenterOfMass.Json
