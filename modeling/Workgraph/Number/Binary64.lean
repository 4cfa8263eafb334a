/-!
# Binary floating point numbers

The finite 64-bit floating point numbers, as their position among the numbers of one sign. Counted
from zero upwards, the magnitudes have the ranks `0, 1, 2, …`; the rank after the last finite one is
where infinity would stand. Order and equality are then those of integers, and rounding is the one
place where a number is computed.

## Main definitions

- `Binary64`: sign and rank of a finite number
- `Binary64.significand`, `Binary64.exponent`: the number as `significand * 2 ^ exponent`
- `Binary64.key`: the place of a number on the number line
- `roundRank`: the rank of the magnitude nearest to a quotient
- `Binary64.ofQuotient?`: the number nearest to a signed quotient
- `Binary64.ofInt`: the number nearest to an integer
- `Extended`: a finite number, an infinity, or no number at all
-/

namespace Workgraph

/-- The rank at which infinity stands: one more than that of the greatest finite magnitude. -/
def infinityRank : Nat := 2047 * Nat.pow 2 52

/-- A finite 64-bit floating point number: its sign and the rank of its magnitude. Zero has both
signs. -/
structure Binary64 where
  negative : Bool
  rank : Nat
  finite : rank < infinityRank
deriving DecidableEq

/-- The least significand of the binades above the lowest one. -/
def leadingBit : Nat := Nat.pow 2 52

/-- The binary exponent of the lowest binade. -/
def lowestExponent : Int := -1074

/-- The significand of the magnitude with a given rank. -/
def rankSignificand (rank : Nat) : Nat :=
  if rank < leadingBit then rank else leadingBit + rank % leadingBit

/-- The exponent of the magnitude with a given rank. -/
def rankExponent (rank : Nat) : Int :=
  if rank < leadingBit then lowestExponent else lowestExponent + (rank / leadingBit : Nat) - 1

/-- A quotient of naturals, rounded to the nearest integer; a tie goes to the even neighbour. -/
def roundHalfEven (num den : Nat) : Nat :=
  let q := num / den
  let r := num % den
  if 2 * r < den then q
  else if den < 2 * r then q + 1
  else if q % 2 == 0 then q else q + 1

/-- The quotient of `num` and `den` scaled by `2 ^ shift`, as numerator and denominator. -/
def scaled (num den : Nat) (shift : Int) : Nat × Nat :=
  if 0 ≤ shift then (num * Nat.pow 2 shift.toNat, den) else (num, den * Nat.pow 2 (-shift).toNat)

/-- The exponent of the binade that a positive quotient lies in. -/
def binade (num den : Nat) : Int :=
  let guess : Int := (Nat.log2 num : Int) - (Nat.log2 den : Int) - 52
  let (n, d) := scaled num den (-guess)
  let exact := if n < leadingBit * d then guess - 1 else guess
  max exact lowestExponent

/-- The rank of the magnitude nearest to a quotient; a tie goes to the even significand. Overflow
shows as a rank of at least `infinityRank`. -/
def roundRank (num den : Nat) : Nat :=
  if num == 0 then 0
  else
    let e := binade num den
    let (n, d) := scaled num den (-e)
    (e - lowestExponent).toNat * leadingBit + roundHalfEven n d

namespace Binary64

/-- The number with a given sign and rank, unless the rank is that of an infinity. -/
def ofRank? (negative : Bool) (rank : Nat) : Option Binary64 :=
  if h : rank < infinityRank then some ⟨negative, rank, h⟩ else none

def zero (negative : Bool) : Binary64 := ⟨negative, 0, by decide⟩

/-- The integer part of the representation `significand * 2 ^ exponent`. -/
def significand (x : Binary64) : Nat := rankSignificand x.rank

/-- The exponent of the representation `significand * 2 ^ exponent`. -/
def exponent (x : Binary64) : Int := rankExponent x.rank

/-- The place of a number on the number line; both zeros have the same place. -/
def key (x : Binary64) : Int := if x.negative then -(x.rank : Int) else x.rank

/-- Whether two numbers are equal as numbers. -/
def same (x y : Binary64) : Bool := x.key == y.key

/-- Whether a number is zero. -/
def isZero (x : Binary64) : Bool := x.rank == 0

/-- The magnitude as a quotient. -/
def quotient (x : Binary64) : Nat × Nat := scaled x.significand 1 x.exponent

/-- The number nearest to a signed quotient, unless it overflows. -/
def ofQuotient? (negative : Bool) (num den : Nat) : Option Binary64 :=
  ofRank? negative (roundRank num den)

end Binary64

/-- A finite number, an infinity, or no number at all. -/
inductive Extended where
  | finite (x : Binary64)
  | infinite (negative : Bool)
  | nan
deriving DecidableEq

namespace Extended

/-- The number nearest to a signed quotient, which may be an infinity. -/
def ofQuotient (negative : Bool) (num den : Nat) : Extended :=
  match Binary64.ofQuotient? negative num den with
  | some x => .finite x
  | none => .infinite negative

/-- The number nearest to an integer. -/
def ofInt (n : Int) : Extended := ofQuotient (n < 0) n.natAbs 1

/-- The place of a number on the number line with both infinities; no number has none. -/
def key? : Extended → Option Int
  | .finite x => some x.key
  | .infinite negative => some (if negative then -(infinityRank : Int) else infinityRank)
  | .nan => none

/-- Whether a relation of places holds; what is no number has no place, so nothing holds of it. -/
def compareBy (related : Int → Int → Bool) (x y : Extended) : Bool :=
  match x.key?, y.key? with
  | some a, some b => related a b
  | _, _ => false

/-- Equality as numbers. -/
def eq (x y : Extended) : Bool := compareBy (· == ·) x y

/-- The order of numbers. -/
def lt (x y : Extended) : Bool := compareBy (· < ·) x y

/-- The order of numbers, with equality. -/
def le (x y : Extended) : Bool := compareBy (· ≤ ·) x y

end Extended

end Workgraph
