import CenterOfMass.Decimal.Shortest
import CenterOfMass.Json.Basic

namespace CenterOfMass.Json

def hexDigit (n : Nat) : Char := if n < 10 then Char.ofNat (48 + n) else Char.ofNat (87 + n)

/-- A character within quotes. Of the characters that a text may not hold as they are, five have a
letter, and the rest are written as numbers. -/
def escaped (c : Char) : List Char :=
  if c = '"' then ['\\', '"']
  else if c = '\\' then ['\\', '\\']
  else if c = '\x08' then ['\\', 'b']
  else if c = '\x0c' then ['\\', 'f']
  else if c = '\n' then ['\\', 'n']
  else if c = '\r' then ['\\', 'r']
  else if c = '\t' then ['\\', 't']
  else if c < ' ' then
    ['\\', 'u', '0', '0', hexDigit (c.toNat / 16), hexDigit (c.toNat % 16)]
  else [c]

def quoted (s : String) : String := "\"" ++ String.ofList (s.toList.flatMap escaped) ++ "\""

/-- A value that holds no other values. -/
def scalarText : Json Float → String
  | .null => "null"
  | .bool b => if b then "true" else "false"
  | .natural n => toString n
  | .real x => Decimal.jsonText x
  | .text s => quoted s
  | .array _ => "[]"
  | .object _ => "\x7b\x7d"

mutual

/-- Adds a value without blanks to a text. -/
def compactOnto (out : String) : Json Float → String
  | .array (item :: rest) => compactItems (item.compactOnto (out ++ "[")) rest ++ "]"
  | .object ((name, value) :: rest) =>
    compactMembers (value.compactOnto (out ++ "\x7b" ++ quoted name ++ ":")) rest ++ "\x7d"
  | value => out ++ scalarText value

def compactItems (out : String) : List (Json Float) → String
  | [] => out
  | item :: rest => compactItems (item.compactOnto (out ++ ",")) rest

def compactMembers (out : String) : List (String × Json Float) → String
  | [] => out
  | (name, value) :: rest =>
    compactMembers (value.compactOnto (out ++ "," ++ quoted name ++ ":")) rest

end

def newLine (depth : Nat) : String := "\n" ++ String.ofList (List.replicate (2 * depth) ' ')

mutual

/-- Adds a value to a text with every part of it on a line of its own, two blanks further in. -/
def prettyOnto (depth : Nat) (out : String) : Json Float → String
  | .array (item :: rest) =>
    prettyItems (depth + 1) (item.prettyOnto (depth + 1) (out ++ "[" ++ newLine (depth + 1))) rest
      ++ newLine depth ++ "]"
  | .object ((name, value) :: rest) =>
    prettyMembers (depth + 1) (value.prettyOnto (depth + 1)
      (out ++ "\x7b" ++ newLine (depth + 1) ++ quoted name ++ ": ")) rest ++ newLine depth ++ "\x7d"
  | value => out ++ scalarText value

def prettyItems (depth : Nat) (out : String) : List (Json Float) → String
  | [] => out
  | item :: rest =>
    prettyItems depth (item.prettyOnto depth (out ++ "," ++ newLine depth)) rest

def prettyMembers (depth : Nat) (out : String) : List (String × Json Float) → String
  | [] => out
  | (name, value) :: rest =>
    prettyMembers depth (value.prettyOnto depth
      (out ++ "," ++ newLine depth ++ quoted name ++ ": ")) rest

end

/-- A document on one line. -/
def compact (value : Json Float) : String := value.compactOnto ""

/-- A document on indented lines. -/
def pretty (value : Json Float) : String := value.prettyOnto 0 ""

end CenterOfMass.Json
