/-!
# Digits

Numerals written out digit by digit.

## Main definitions

- `digitValue?`: the value of a decimal digit
- `hexValue?`: the value of a hexadecimal digit of either case
- `hexText`: the hexadecimal numeral of a number, without leading zeros
- `padded`: a decimal numeral widened with leading zeros
-/

namespace Workgraph.Text

def digitValue? (c : Char) : Option Nat :=
  if '0' ≤ c && c ≤ '9' then some (c.toNat - 48) else none

/-- Whether a character is a decimal digit. -/
def isDigit (c : Char) : Bool := '0' ≤ c && c ≤ '9'

/-- The value of a hexadecimal digit of either case. -/
def hexValue? (c : Char) : Option Nat :=
  if '0' ≤ c && c ≤ '9' then some (c.toNat - 48)
  else if 'a' ≤ c && c ≤ 'f' then some (c.toNat - 87)
  else if 'A' ≤ c && c ≤ 'F' then some (c.toNat - 55)
  else none

/-- The number that a sequence of decimal digits stands for, continuing from `n`. -/
def digitsValue (n : Nat) (digits : List Nat) : Nat :=
  digits.foldl (fun total d => total * 10 + d) n

/-- The decimal numeral of a number as characters. -/
def numeral (n : Nat) : List Char := (Nat.repr n).toList

/-- The hexadecimal numeral of a number with lower-case digits and without leading zeros. -/
def hexText (n : Nat) : String := String.ofList (Nat.toDigits 16 n)

/-- A text widened to `width` characters by leading zeros. -/
def zeroPadded (width : Nat) (cs : List Char) : String :=
  String.ofList (List.replicate (width - cs.length) '0' ++ cs)

/-- The decimal numeral of a number, widened to `width` digits by leading zeros. -/
def padded (width n : Nat) : String := zeroPadded width (numeral n)

end Workgraph.Text
