import Workgraph.Json.Value
/-!
# Printing JSON values

The two written forms of a value: a compact one without blanks, and an indented one with one item
per line.

## Main definitions

- `Json.escaped`: a text as a JSON string
- `Json.compact`, `Json.pretty`: the written forms of a value
- `Json.plainText`: a value as it appears inside a text
-/

namespace Workgraph

def Number.text : Number → String
  | .int n => if n < 0 then "-" ++ Nat.repr n.natAbs else Nat.repr n.natAbs
  | .float x => x.text

namespace Json

/-- The form of one character inside a JSON string: the quote, the backslash and the control
characters are escaped, the others stand for themselves. -/
def escapedChar (c : Char) : List Char :=
  let n := c.toNat
  if c == '"' then ['\\', '"']
  else if c == '\\' then ['\\', '\\']
  else if n == 0x08 then ['\\', 'b']
  else if n == 0x0C then ['\\', 'f']
  else if c == '\n' then ['\\', 'n']
  else if c == '\r' then ['\\', 'r']
  else if c == '\t' then ['\\', 't']
  else if n < 0x20 then
    ['\\', 'u', '0', '0', Nat.digitChar (n / 16), Nat.digitChar (n % 16)]
  else [c]

/-- A text as a JSON string. -/
def escaped (s : String) : String :=
  "\"" ++ String.ofList (s.toList.flatMap escapedChar) ++ "\""

mutual

/-- The written form without blanks. -/
def compact : Json → String
  | null => "null"
  | bool true => "true"
  | bool false => "false"
  | num n => n.text
  | str s => escaped s
  | arr items => "[" ++ String.intercalate "," (compactItems items) ++ "]"
  | obj fields => "\x7b" ++ String.intercalate "," (compactFields fields) ++ "\x7d"

/-- The written forms of the items of an array. -/
def compactItems : List Json → List String
  | [] => []
  | v :: rest => compact v :: compactItems rest

/-- The written forms of the fields of an object. -/
def compactFields : List (String × Json) → List String
  | [] => []
  | (k, v) :: rest => (escaped k ++ ":" ++ compact v) :: compactFields rest

end

/-- The start of a line at a given depth of nesting. -/
def newLine (depth : Nat) : String := "\n" ++ String.ofList (List.replicate (2 * depth) ' ')

/-- Lines between brackets, indented by one more level than the brackets; nothing at all is written
as the two brackets. -/
def bracketed (opening closing : String) (depth : Nat) (lines : List String) : String :=
  if lines.isEmpty then opening ++ closing
  else
    opening ++ newLine (depth + 1) ++ String.intercalate ("," ++ newLine (depth + 1)) lines ++
      newLine depth ++ closing

mutual

/-- The indented form at a given depth of nesting. -/
def prettyAt (depth : Nat) : Json → String
  | arr items => bracketed "[" "]" depth (prettyItems (depth + 1) items)
  | obj fields => bracketed "\x7b" "\x7d" depth (prettyFields (depth + 1) fields)
  | null => "null"
  | bool true => "true"
  | bool false => "false"
  | num n => n.text
  | str s => escaped s

/-- The indented forms of the items of an array. -/
def prettyItems (depth : Nat) : List Json → List String
  | [] => []
  | v :: rest => prettyAt depth v :: prettyItems depth rest

/-- The indented forms of the fields of an object. -/
def prettyFields (depth : Nat) : List (String × Json) → List String
  | [] => []
  | (k, v) :: rest => (escaped k ++ ": " ++ prettyAt depth v) :: prettyFields depth rest

end

/-- The written form with one item per line and two blanks of indentation per level. -/
def pretty (v : Json) : String := prettyAt 0 v

/-- A value as it appears inside a text: a text as it is, null as nothing, the rest in compact
form. -/
def plainText : Json → String
  | null => ""
  | str s => s
  | other => other.compact

end Json

end Workgraph
