import Workgraph.Text.Lowercase
import Workgraph.Text.VisibleTable
import Workgraph.Text.Digits
/-!
# Quoted texts

How a text is shown inside a diagnostic: between double quotes, with every character that would not
be seen as itself written as an escape.

## Main definitions

- `isVisible`: characters shown as they are
- `quoted`: a text between quotes
- `quotedList`: a bracketed list of quoted texts
-/

namespace Workgraph.Text

/-- Whether a character has a shape of its own, so that it can stand in a quoted text. -/
def isVisible (c : Char) : Bool :=
  let n := c.toNat
  if n < 0x80 then 0x20 ≤ n && n < 0x7F
  else !inRanges attachingRanges n && !inRanges hiddenRanges n

/-- The form of one character inside a quoted text. -/
def quotedChar (c : Char) : String :=
  if c == '\x00' then "\\0"
  else if c == '\t' then "\\t"
  else if c == '\r' then "\\r"
  else if c == '\n' then "\\n"
  else if c == '\\' then "\\\\"
  else if c == '"' then "\\\""
  else if isVisible c then c.toString
  else "\\u\x7b" ++ hexText c.toNat ++ "\x7d"

/-- A text between double quotes, with escapes for what would not be seen. -/
def quoted (s : String) : String :=
  "\"" ++ String.join (s.toList.map quotedChar) ++ "\""

/-- A bracketed list of quoted texts. -/
def quotedList (texts : List String) : String :=
  "[" ++ String.intercalate ", " (texts.map quoted) ++ "]"

end Workgraph.Text
