import CenterOfMass.Json.Draft

namespace CenterOfMass.Json

/-- A text in quotes as it was read: its characters, and where it ends. The characters may be wrong
although the end can be found. -/
structure TextScan where
  contents : Except JsonFault String
  rest : Except JsonFault (List Char)

namespace TextScan

def broken (fault : JsonFault) : TextScan := ⟨.error fault, .error fault⟩

/-- The place is at fault for a reader, who has no use for what follows. -/
def spoilt (fault : JsonFault) (s : TextScan) : TextScan := ⟨.error fault, s.rest⟩

def unreadable? (s : TextScan) : Option Unreadable :=
  match s.contents, s.rest with
  | .ok _, .ok _ => none
  | .error fault, .ok _ => some ⟨fault, fault, none⟩
  | .error fault, .error skipped => some ⟨fault, fault, some skipped⟩
  | .ok _, .error fault => some ⟨fault, fault, some fault⟩

end TextScan

def hexValue? (c : Char) : Option Nat :=
  if '0' ≤ c ∧ c ≤ '9' then some (c.toNat - '0'.toNat)
  else if 'a' ≤ c ∧ c ≤ 'f' then some (c.toNat - 'a'.toNat + 10)
  else if 'A' ≤ c ∧ c ≤ 'F' then some (c.toNat - 'A'.toNat + 10)
  else none

/-- Four hexadecimal digits. A text that has fewer than four bytes left is too short for them,
whatever the bytes are. -/
def hexUnit : List Char → Except JsonFault Nat
  | a :: b :: c :: d :: _ =>
    match hexValue? a, hexValue? b, hexValue? c, hexValue? d with
    | some a, some b, some c, some d => .ok (((a * 16 + b) * 16 + c) * 16 + d)
    | _, _, _, _ => .error .malformed
  | cs =>
    let left := cs.foldl (fun n c => n + c.utf8Size) 0
    .error (if left < 4 then .truncated else .malformed)

def isLeading (unit : Nat) : Bool := 0xd800 ≤ unit && unit ≤ 0xdbff

def isTrailing (unit : Nat) : Bool := 0xdc00 ≤ unit && unit ≤ 0xdfff

/-- The character that a leading and a trailing unit stand for together. -/
def pairedChar (leading trailing : Nat) : Char :=
  Char.ofNat (0x10000 + (leading - 0xd800) * 0x400 + (trailing - 0xdc00))

/-- The character behind a backslash, other than `u`. -/
def escapedChar? (c : Char) : Option Char :=
  if c = '"' ∨ c = '\\' ∨ c = '/' then some c
  else if c = 'b' then some '\x08'
  else if c = 'f' then some '\x0c'
  else if c = 'n' then some '\n'
  else if c = 'r' then some '\r'
  else if c = 't' then some '\t'
  else none

/-- Reads up to the closing quote, with the characters before it in reverse. Every character takes
at least one of those that `fuel` counts. -/
def scanText : Nat → List Char → List Char → TextScan
  | 0, _, _ => .broken .truncated
  | fuel + 1, done, cs =>
    match cs with
    | [] => .broken .truncated
    | '"' :: cs => ⟨.ok (String.ofList done.reverse), .ok cs⟩
    | ['\\'] => .broken .truncated
    | '\\' :: 'u' :: cs =>
      match hexUnit cs with
      | .error fault => .broken fault
      | .ok unit =>
        let after := cs.drop 4
        if isTrailing unit then (scanText fuel [] after).spoilt .malformed
        else if isLeading unit then
          match after with
          | [] | ['\\'] => .broken .truncated
          | '\\' :: 'u' :: more =>
            match hexUnit more with
            | .error fault => .broken fault
            | .ok second =>
              if isTrailing second then
                scanText fuel (pairedChar unit second :: done) (more.drop 4)
              else (scanText fuel [] (more.drop 4)).spoilt .malformed
          | _ => (scanText fuel [] after).spoilt .malformed
        else scanText fuel (Char.ofNat unit :: done) after
    | '\\' :: c :: cs =>
      match escapedChar? c with
      | some e => scanText fuel (e :: done) cs
      | none => .broken .malformed
    | c :: cs => if c < ' ' then .broken .malformed else scanText fuel (c :: done) cs

/-- Reads a text behind its opening quote. -/
def readText (cs : List Char) : TextScan := scanText (cs.length + 1) [] cs

end CenterOfMass.Json
