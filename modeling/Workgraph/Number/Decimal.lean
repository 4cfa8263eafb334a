import Workgraph.Number.Shortest
import Workgraph.Text.Blank
import Workgraph.Text.Lowercase
/-!
# Numbers in texts

A text that is compared with a number is read as one: a decimal numeral with optional sign, point
and exponent, or one of the names of the infinities and of the value that is no number.

## Main definitions

- `Decimal`: a decimal numeral taken apart
- `Decimal.nearest`: the nearest floating point number
- `readNumber?`: the number a text stands for
-/

namespace Workgraph

open Text (isDigit digitValue? digitsValue numeral)

/-- The numeral `digits * 10 ^ exponent` with a sign. -/
structure Decimal where
  negative : Bool
  digits : Nat
  exponent : Int
deriving DecidableEq

/-- The nearest floating point number. Numerals beyond `10 ^ 400` or below `10 ^ -400` are decided
by their size alone. -/
def Decimal.nearest (d : Decimal) : Extended :=
  if d.digits == 0 then .finite (.zero d.negative)
  else
    let size := (numeral d.digits).length + d.exponent
    if 400 < size then .infinite d.negative
    else if size < -400 then .finite (.zero d.negative)
    else
      let q := decimalQuotient d.digits d.exponent
      Extended.ofQuotient d.negative q.1 q.2

/-- The values of the decimal digits at the start of a text, and the rest of it. -/
def takeDigits (cs : List Char) : List Nat × List Char :=
  ((cs.takeWhile isDigit).filterMap digitValue?, cs.dropWhile isDigit)

/-- A sign at the start of a text, true for minus, and the rest of it. -/
def takeSign : List Char → Bool × List Char
  | '-' :: rest => (true, rest)
  | '+' :: rest => (false, rest)
  | cs => (false, cs)

/-- The exponent that the end of a numeral states; nothing at all states zero. -/
def readExponent? : List Char → Option Int
  | [] => some 0
  | c :: rest =>
    if c == 'e' || c == 'E' then
      let (negative, rest) := takeSign rest
      let (digits, rest) := takeDigits rest
      if digits.isEmpty || !rest.isEmpty then none
      else
        let n : Int := digitsValue 0 digits
        some (if negative then -n else n)
    else none

/-- The digits after a point, if there is one, and the rest of the text. -/
def takeFraction : List Char → List Nat × List Char
  | '.' :: rest => takeDigits rest
  | cs => ([], cs)

/-- Reads a numeral without its sign: digits with an optional point, at least one of them, and an
optional exponent. -/
def readDecimal? (negative : Bool) (cs : List Char) : Option Decimal :=
  let (whole, rest) := takeDigits cs
  let (fraction, rest) := takeFraction rest
  if whole.isEmpty && fraction.isEmpty then none
  else
    (readExponent? rest).map fun e =>
      ⟨negative, digitsValue 0 (whole ++ fraction), e - fraction.length⟩

/-- The number that a text stands for, blanks at its ends aside. -/
def readNumber? (s : String) : Option Extended :=
  let (negative, rest) := takeSign (Text.trimChars s.toList)
  let name := rest.map fun c => if 'A' ≤ c && c ≤ 'Z' then Char.ofNat (c.toNat + 32) else c
  if name == "inf".toList || name == "infinity".toList then some (.infinite negative)
  else if name == "nan".toList then some .nan
  else (readDecimal? negative rest).map Decimal.nearest

end Workgraph
