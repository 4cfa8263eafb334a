import Workgraph.Json.Value
/-!
# JSON numerals

The value of a JSON numeral. A numeral without point and exponent that fits 64 bits is an integer;
any other is a floating point number, computed from as many leading digits as fit an unsigned 64-bit
integer and one power of ten, each step rounded to nearest. A numeral that overflows has no value.

## Main definitions

- `Numeral`: a numeral taken apart
- `Numeral.value?`: the number it stands for
-/

namespace Workgraph

open Text (digitsValue)

namespace Binary64

/-- The product of two numbers, rounded to nearest, unless it overflows. -/
def times? (x y : Binary64) : Option Binary64 :=
  let a := x.quotient
  let b := y.quotient
  ofQuotient? (x.negative != y.negative) (a.1 * b.1) (a.2 * b.2)

/-- The quotient of two numbers, rounded to nearest, unless it overflows; the divisor is not
zero. -/
def dividedBy? (x y : Binary64) : Option Binary64 :=
  let a := x.quotient
  let b := y.quotient
  ofQuotient? (x.negative != y.negative) (a.1 * b.2) (a.2 * b.1)

end Binary64

/-- The parts of a numeral: sign, digits before and after the point, and exponent. A point or an
exponent that is not written is absent. -/
structure Numeral where
  negative : Bool
  whole : List Nat
  fraction : Option (List Nat)
  exponent : Option Int
deriving DecidableEq

/-- Appends digits to a number while the result fits 64 bits: the number reached and the digits
left over. -/
def appendDigits (n : Nat) : List Nat → Nat × List Nat
  | [] => (n, [])
  | d :: rest =>
    if n * 10 + d ≤ maxUnsigned64 then appendDigits (n * 10 + d) rest else (n, d :: rest)

/-- The power of ten nearest to `10 ^ n`, for `n` at most 308. -/
def powerOfTen? (n : Nat) : Option Binary64 := Binary64.ofQuotient? false (Nat.pow 10 n) 1

/-- Scales a number by a power of ten in steps of at most `10 ^ 308`. Scaling down below the least
number gives zero; scaling up beyond the greatest gives no value. -/
def scaleByTen? (x : Binary64) (exponent : Int) : Nat → Option Binary64
  | 0 => some (.zero x.negative)
  | fuel + 1 =>
    if -308 ≤ exponent && exponent ≤ 308 then
      (powerOfTen? exponent.natAbs).bind fun p =>
        if 0 ≤ exponent then x.times? p else x.dividedBy? p
    else if x.isZero then some x
    else if 0 ≤ exponent then none
    else
      ((powerOfTen? 308).bind x.dividedBy?).bind fun y => scaleByTen? y (exponent + 308) fuel

/-- The greatest exponent that is taken at face value. -/
def maxExponent : Int := 2147483647

namespace Numeral

/-- The floating point number for a significand and a decimal shift. An exponent too large to be
taken at face value decides on its own: zero stays zero, other numerals vanish or overflow. -/
def floatValue? (x : Numeral) (significand : Nat) (shift : Int) : Option Number :=
  let e := x.exponent.getD 0
  let zero : Number := .float (.zero x.negative)
  if maxExponent < e.natAbs then
    if significand != 0 && 0 < e then none else some zero
  else
    (Binary64.ofQuotient? x.negative significand 1).bind fun s =>
      (scaleByTen? s (shift + e) 4).map .float

/-- The number that a numeral stands for. -/
def value? (x : Numeral) : Option Number :=
  let (n, dropped) := appendDigits 0 x.whole
  match x.fraction, x.exponent with
  | none, none =>
    if !dropped.isEmpty then x.floatValue? n dropped.length
    else if !x.negative then some (.int n)
    else if n == 0 || maxSigned64 + 1 < n then x.floatValue? n 0
    else some (.int (-(n : Int)))
  | fraction, _ =>
    let digits := fraction.getD []
    let (n, unused) := appendDigits n digits
    x.floatValue? n ((dropped.length : Int) - ((digits.length - unused.length : Nat) : Int))

end Numeral

end Workgraph
