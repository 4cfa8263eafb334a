import Workgraph.Number.Binary64
import Workgraph.Text.Digits
/-!
# Shortest decimal form

The decimal numeral of a floating point number with the fewest digits that read back as the same
number, and the layout in which it is written.

## Main definitions

- `shortestDigits`: digits and decimal exponent of the shortest numeral
- `Binary64.text`: positional between `10 ^ -5` and `10 ^ 16`, scientific elsewhere
-/

namespace Workgraph

open Text (numeral)

/-- The quotient `digits * 10 ^ exponent` as numerator and denominator. -/
def decimalQuotient (digits : Nat) (exponent : Int) : Nat × Nat :=
  if 0 ≤ exponent then (digits * Nat.pow 10 exponent.toNat, 1)
  else (digits, Nat.pow 10 (-exponent).toNat)

/-- The distance between the quotients `a` and `b` times the product of their denominators. -/
def crossDistance (a b : Nat × Nat) : Nat :=
  let left := a.1 * b.2
  let right := b.1 * a.2
  if left ≤ right then right - left else left - right

/-- The multiple of `10 ^ exponent` next to a quotient that rounds to `rank`: the nearer of the two
neighbours if both do, the even one of equally near ones. -/
def gridDigits? (rank : Nat) (value : Nat × Nat) (exponent : Int) : Option Nat :=
  let unit := decimalQuotient 1 exponent
  let below := value.1 * unit.2 / (value.2 * unit.1)
  let reads (digits : Nat) : Bool :=
    let q := decimalQuotient digits exponent
    digits != 0 && roundRank q.1 q.2 == rank
  match reads below, reads (below + 1) with
  | false, false => none
  | true, false => some below
  | false, true => some (below + 1)
  | true, true =>
    let beneath := crossDistance value (decimalQuotient below exponent)
    let above := crossDistance value (decimalQuotient (below + 1) exponent)
    if beneath < above then some below
    else if above < beneath then some (below + 1)
    else if below % 2 == 0 then some below else some (below + 1)

/-- Searches the decimal grids from `10 ^ exponent` downwards for one with a point that reads back;
`fuel` more grids are tried. -/
def searchGrids (rank : Nat) (value : Nat × Nat) (exponent : Int) : Nat → Nat × Int
  | 0 => (0, 0)
  | fuel + 1 =>
    match gridDigits? rank value exponent with
    | some digits => (digits, exponent)
    | none => searchGrids rank value (exponent - 1) fuel

/-- The number of decimal digits of the integer part of a quotient, or minus the number of zeros
after the point where there is no integer part; at most one too large. -/
def magnitudeGuess (value : Nat × Nat) : Int :=
  if value.2 ≤ value.1 then (numeral (value.1 / value.2)).length
  else 1 - ((numeral (value.2 / value.1)).length : Int) + 1

/-- Digits and decimal exponent of the shortest numeral of a magnitude other than zero. -/
def shortestDigits (rank : Nat) : Nat × Int :=
  let value := scaled (rankSignificand rank) 1 (rankExponent rank)
  searchGrids rank value (magnitudeGuess value) 24

/-- Drops the zeros at the end of a numeral, raising the exponent instead. -/
def dropZeros (digits : Nat) (exponent : Int) : Nat → Nat × Int
  | 0 => (digits, exponent)
  | fuel + 1 =>
    if digits != 0 && digits % 10 == 0 then dropZeros (digits / 10) (exponent + 1) fuel
    else (digits, exponent)

/-- The positional form of `digits * 10 ^ exponent`, with at least one digit on either side of the
point. -/
def positional (digits : Nat) (exponent : Int) : List Char :=
  let ds := numeral digits
  if 0 ≤ exponent then ds ++ List.replicate exponent.toNat '0' ++ ['.', '0']
  else
    let places := (-exponent).toNat
    if places < ds.length then ds.take (ds.length - places) ++ ['.'] ++ ds.drop (ds.length - places)
    else ['0', '.'] ++ List.replicate (places - ds.length) '0' ++ ds

/-- The scientific form of `digits * 10 ^ exponent`: one digit before the point, no point after a
single digit, and the sign of the exponent always shown. -/
def scientific (digits : Nat) (exponent : Int) : List Char :=
  let ds := numeral digits
  let power := exponent + ds.length - 1
  let head := ds.take 1
  let tail := ds.drop 1
  let fraction := if tail.isEmpty then [] else '.' :: tail
  let sign := if power < 0 then '-' else '+'
  head ++ fraction ++ ['e', sign] ++ numeral power.natAbs

namespace Binary64

/-- The written form of a number: positional if zero or from `10 ^ -5` up to below `10 ^ 16` in
magnitude, otherwise scientific. -/
def chars (x : Binary64) : List Char :=
  let body :=
    if x.rank == 0 then ['0', '.', '0']
    else
      let (ds, e) := shortestDigits x.rank
      let (ds, e) := dropZeros ds e 400
      let power := e + (numeral ds).length - 1
      if -5 ≤ power && power < 16 then positional ds e else scientific ds e
  if x.negative then '-' :: body else body

def text (x : Binary64) : String := String.ofList x.chars

end Binary64

end Workgraph
