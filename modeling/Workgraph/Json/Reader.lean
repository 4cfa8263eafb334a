import Workgraph.Json.Numeral
import Workgraph.Json.Tree
/-!
# Reading JSON texts

From the characters of a text to its tree. Reading never fails: a break ends the tree at the place
where the text stops making sense.

## Main definitions

- `readTree`: the tree of a text, together with what follows the value
- `JsonDocument`, `JsonDocument.ofText`: a text as one value with nothing but blanks after it
-/

namespace Workgraph

open Text (digitValue? hexValue? digitsValue isDigit)

namespace JsonText

/-- What remains of the text behind a value; absent if the text cannot be followed any further. -/
abbrev Remainder := Option (List Char)

/-- Drops the blanks that may stand between the tokens of a JSON text. -/
def skipBlanks (cs : List Char) : List Char :=
  cs.dropWhile fun c => c == ' ' || c == '\n' || c == '\t' || c == '\r'

/-- A place that stops the text with the same flaw for readers and for those who pass over it. -/
def broken (token : Token) (flaw : Flaw) : Tree × Remainder :=
  (.unreadable token flaw (some flaw), none)

/-- The rest of one of the three names, which must follow letter by letter. -/
def readName (value : Tree) : List Char → List Char → Tree × Remainder
  | [], cs => (value, some cs)
  | _ :: _, [] => broken .word .truncated
  | e :: es, c :: cs => if c == e then readName value es cs else broken .word .malformed

/-- A numeral that ends where a digit has to stand. Whoever passes over it does not tell the end of
the text from a wrong character. -/
def digitMissing (rest : List Char) : Tree × Remainder :=
  (.unreadable .word (if rest.isEmpty then .truncated else .malformed) (some .malformed), none)

/-- The value of a complete numeral. A numeral without a value can still be passed over. -/
def finishNumeral (x : Numeral) (rest : List Char) : Tree × Remainder :=
  match x.value? with
  | some n => (.num n, some rest)
  | none => (.unreadable .word .malformed none, some rest)

/-- The exponent of a numeral, if one follows. -/
def readExponent (x : Numeral) : List Char → Tree × Remainder
  | [] => finishNumeral x []
  | c :: rest =>
    if c == 'e' || c == 'E' then
      let (negative, rest) := takeSign rest
      let (digits, rest) := takeDigits rest
      if digits.isEmpty then digitMissing rest
      else
        let e : Int := digitsValue 0 digits
        finishNumeral { x with exponent := some (if negative then -e else e) } rest
    else finishNumeral x (c :: rest)

/-- The fraction of a numeral, if one follows, and the exponent behind it. -/
def readFraction (x : Numeral) : List Char → Tree × Remainder
  | '.' :: rest =>
    let (digits, rest) := takeDigits rest
    if digits.isEmpty then digitMissing rest
    else readExponent { x with fraction := some digits } rest
  | rest => readExponent x rest

/-- A numeral behind its sign. A zero in front stands alone. -/
def readNumeral (negative : Bool) (cs : List Char) : Tree × Remainder :=
  let (digits, rest) := takeDigits cs
  match digits with
  | [] => digitMissing rest
  | 0 :: _ :: _ => broken .word .malformed
  | digits => readFraction ⟨negative, digits, none, none⟩ rest

/-- The number of bytes that a character takes. -/
def byteCount (c : Char) : Nat := c.utf8Size

/-- The code unit given by four hexadecimal digits and the text behind them. -/
def readUnit (cs : List Char) : Except Flaw (Nat × List Char) :=
  let four := cs.take 4
  let values := four.filterMap hexValue?
  if values.length == 4 then .ok (values.foldl (fun n d => n * 16 + d) 0, cs.drop 4)
  else if four.foldl (fun n c => n + byteCount c) 0 < 4 then .error .truncated
  else .error .malformed

/-- A string read so far: its characters in reverse, and the first flaw that keeps it from denoting
a text even though its end may still be found. -/
structure PartialString where
  chars : List Char
  flaw : Option Flaw

namespace PartialString

def push (s : PartialString) (c : Char) : PartialString := { s with chars := c :: s.chars }

/-- Notes a flaw, unless there was an earlier one. -/
def spoil (s : PartialString) (flaw : Flaw) : PartialString :=
  { s with flaw := s.flaw.or (some flaw) }

end PartialString

/-- How the reading of a string ends: with its closing quote, or at a break. -/
inductive StringEnd where
  | closed (s : PartialString) (rest : List Char)
  | broken (reading skipping : Flaw)

/-- The end of a string that breaks off. -/
def breakOff (s : PartialString) (flaw : Flaw) : StringEnd := .broken (s.flaw.getD flaw) flaw

/-- The character that the second unit of a pair completes, and the text behind it. -/
def readSecondUnit (first : Nat) : List Char → Except Flaw (Char × List Char)
  | [] => .error .truncated
  | '\\' :: [] => .error .truncated
  | '\\' :: 'u' :: rest => do
    let (second, rest) ← readUnit rest
    if 0xDC00 ≤ second && second ≤ 0xDFFF then
      .ok (Char.ofNat (0x10000 + (first - 0xD800) * 0x400 + (second - 0xDC00)), rest)
    else .error .malformed
  | _ => .error .malformed

/-- Reads one escape behind its backslash: the string so far and the text behind the escape. -/
def readEscape (s : PartialString) : List Char → Except Flaw (PartialString × List Char)
  | [] => .error .truncated
  | '"' :: rest => .ok (s.push '"', rest)
  | '\\' :: rest => .ok (s.push '\\', rest)
  | '/' :: rest => .ok (s.push '/', rest)
  | 'b' :: rest => .ok (s.push '\x08', rest)
  | 'f' :: rest => .ok (s.push '\x0c', rest)
  | 'n' :: rest => .ok (s.push '\n', rest)
  | 'r' :: rest => .ok (s.push '\r', rest)
  | 't' :: rest => .ok (s.push '\t', rest)
  | 'u' :: rest => do
    let (unit, rest) ← readUnit rest
    if unit < 0xD800 || 0xDFFF < unit then .ok (s.push (Char.ofNat unit), rest)
    else if 0xDC00 ≤ unit then .ok (s.spoil .malformed, rest)
    else
      match readSecondUnit unit rest with
      | .ok (c, rest) => .ok (s.push c, rest)
      | .error flaw => .ok (s.spoil flaw, rest)
  | _ :: _ => .error .malformed

/-- Reads a string behind its opening quote. -/
def readString (s : PartialString) : Nat → List Char → StringEnd
  | 0, _ => breakOff s .truncated
  | _, [] => breakOff s .truncated
  | fuel + 1, c :: rest =>
    if c == '"' then .closed s rest
    else if c == '\\' then
      match readEscape s rest with
      | .ok (s, rest) => readString s fuel rest
      | .error flaw => breakOff s flaw
    else if c.toNat < 0x20 then breakOff s .malformed
    else readString (s.push c) fuel rest

/-- The text that a closed string denotes. -/
def PartialString.text? (s : PartialString) : Option String :=
  match s.flaw with
  | none => some (String.ofList s.chars.reverse)
  | some _ => none

/-- A string as a value, behind its opening quote. -/
def readStringValue (cs : List Char) : Tree × Remainder :=
  match readString ⟨[], none⟩ (cs.length + 1) cs with
  | .closed s rest =>
    match s.text? with
    | some text => (.str text, some rest)
    | none => (.unreadable .string (s.flaw.getD .malformed) none, some rest)
  | .broken reading skipping => (.unreadable .string reading (some skipping), none)

/-- The ending of a list in which neither a comma nor the closing bracket follows. -/
def strayEnding (rest : List Char) : Ending :=
  let flaw := if rest.isEmpty then Flaw.truncated else Flaw.malformed
  .broken flaw flaw

/-- The ending of a list in which nothing usable follows a comma. -/
def commaEnding (rest : List Char) : Ending :=
  .afterComma (if rest.isEmpty then .truncated else .malformed)

mutual

/-- Reads one value; `fuel` bounds the number of tokens. -/
def readValue : Nat → List Char → Tree × Remainder
  | 0, _ => broken .nothing .malformed
  | fuel + 1, cs =>
    match skipBlanks cs with
    | [] => broken .nothing .truncated
    | '"' :: rest => readStringValue rest
    | '[' :: rest =>
      let (items, ending, rest) := readFirstItem fuel rest
      (.arr items ending, rest)
    | '\x7b' :: rest =>
      let (fields, ending, rest) := readFirstField fuel rest
      (.obj fields ending, rest)
    | 'n' :: rest => readName .null ['u', 'l', 'l'] rest
    | 't' :: rest => readName (.bool true) ['r', 'u', 'e'] rest
    | 'f' :: rest => readName (.bool false) ['a', 'l', 's', 'e'] rest
    | '-' :: rest => readNumeral true rest
    | c :: rest =>
      if isDigit c then readNumeral false (c :: rest) else broken .nothing .malformed

/-- Reads the items of an array behind its opening bracket. -/
def readFirstItem : Nat → List Char → List Tree × Ending × Remainder
  | 0, _ => ([], .broken .malformed .malformed, none)
  | fuel + 1, cs =>
    match skipBlanks cs with
    | [] => ([], .broken .truncated .truncated, none)
    | ']' :: rest => ([], .closed, some rest)
    | rest => readItem fuel rest

/-- Reads one item of an array and those behind it. -/
def readItem : Nat → List Char → List Tree × Ending × Remainder
  | 0, _ => ([], .broken .malformed .malformed, none)
  | fuel + 1, cs =>
    match readValue fuel cs with
    | (item, none) => ([item], .closed, none)
    | (item, some rest) =>
      let (items, ending, rest) := readNextItem fuel rest
      (item :: items, ending, rest)

/-- Reads what follows an item of an array. -/
def readNextItem : Nat → List Char → List Tree × Ending × Remainder
  | 0, _ => ([], .broken .malformed .malformed, none)
  | fuel + 1, cs =>
    match skipBlanks cs with
    | ']' :: rest => ([], .closed, some rest)
    | ',' :: rest =>
      match skipBlanks rest with
      | [] => ([], commaEnding [], none)
      | ']' :: rest => ([], commaEnding (']' :: rest), none)
      | rest => readItem fuel rest
    | rest => ([], strayEnding rest, none)

/-- Reads the fields of an object behind its opening brace. -/
def readFirstField : Nat → List Char → List (Option String × Tree) × Ending × Remainder
  | 0, _ => ([], .broken .malformed .malformed, none)
  | fuel + 1, cs =>
    match skipBlanks cs with
    | '\x7d' :: rest => ([], .closed, some rest)
    | '"' :: rest => readField fuel rest
    | rest => ([], strayEnding rest, none)

/-- Reads one field of an object behind the opening quote of its name, and those behind it. -/
def readField : Nat → List Char → List (Option String × Tree) × Ending × Remainder
  | 0, _ => ([], .broken .malformed .malformed, none)
  | fuel + 1, cs =>
    match readString ⟨[], none⟩ (cs.length + 1) cs with
    | .broken reading skipping => ([], .broken reading skipping, none)
    | .closed name rest =>
      match skipBlanks rest with
      | ':' :: rest =>
        match readValue fuel rest with
        | (value, none) => ([(name.text?, value)], .closed, none)
        | (value, some rest) =>
          let (fields, ending, rest) := readNextField fuel rest
          ((name.text?, value) :: fields, ending, rest)
      | [] => ([(name.text?, (broken .nothing .truncated).1)], .closed, none)
      | _ => ([(name.text?, (broken .nothing .malformed).1)], .closed, none)

/-- Reads what follows a field of an object. -/
def readNextField : Nat → List Char → List (Option String × Tree) × Ending × Remainder
  | 0, _ => ([], .broken .malformed .malformed, none)
  | fuel + 1, cs =>
    match skipBlanks cs with
    | '\x7d' :: rest => ([], .closed, some rest)
    | ',' :: rest =>
      match skipBlanks rest with
      | '"' :: rest => readField fuel rest
      | rest => ([], commaEnding rest, none)
    | rest => ([], strayEnding rest, none)

end

end JsonText

/-- The tree of a text and what follows the value. -/
def readTree (s : String) : Tree × JsonText.Remainder :=
  let cs := s.toList
  JsonText.readValue (4 * cs.length + 4) cs

/-- A text as one value. Anything but blanks behind the value is trailing text. -/
structure JsonDocument where
  tree : Tree
  trailing : Bool

/-- Reads a text as one value. -/
def JsonDocument.ofText (s : String) : JsonDocument :=
  match readTree s with
  | (tree, none) => ⟨tree, false⟩
  | (tree, some rest) => ⟨tree, !(JsonText.skipBlanks rest).isEmpty⟩

end Workgraph
