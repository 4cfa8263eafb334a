import Workgraph.Number.Decimal
import Workgraph.Text.Blank
import Workgraph.Time.Timestamp
/-!
# Reading timestamps

Two forms of a date with a time of day and an offset from universal time: a strict one with a fixed
number of digits, and a tolerant one that allows blanks, short numbers and signed years.

## Main definitions

- `TimeFlaw`: what can be wrong with a written time
- `Timestamp.ofText`: the strict form
- `Timestamp.ofTolerantText`: the tolerant form
-/

namespace Workgraph

open Text (isDigit digitValue? digitsValue)

/-- What is wrong with a written time. -/
inductive TimeFlaw where
  | tooShort
  | tooLong
  | invalid
  | outOfRange
  | impossible
deriving DecidableEq

def TimeFlaw.message : TimeFlaw → String
  | tooShort => "premature end of input"
  | tooLong => "trailing input"
  | invalid => "input contains invalid characters"
  | outOfRange => "input is out of range"
  | impossible => "no possible date and time matching input"

/-- Reads part of a written time: a value and the rest of the text. -/
abbrev TimeReader (α : Type) := List Char → Except TimeFlaw (α × List Char)

namespace TimeReader

/-- The flaw of a text that does not begin with `count` digits: it is too short if it has fewer
bytes. -/
def missingDigits (count : Nat) (cs : List Char) : TimeFlaw :=
  if (String.ofList cs).utf8ByteSize < count then .tooShort else .invalid

/-- A number of at least `least` and at most `most` digits. -/
def number (least most : Nat) : TimeReader Nat := fun cs =>
  let digits := (cs.take most).takeWhile isDigit
  if digits.length < least then .error (missingDigits least cs)
  else .ok (digitsValue 0 (digits.filterMap digitValue?), cs.drop digits.length)

def char (c : Char) : TimeReader Unit
  | [] => .error .tooShort
  | d :: rest => if d == c then .ok ((), rest) else .error .invalid

/-- The character between date and time of day. -/
def separator : TimeReader Unit
  | [] => .error .tooShort
  | c :: rest => if c == 'T' || c == 't' || c == ' ' then .ok ((), rest) else .error .invalid

def ranged (least greatest : Nat) (r : TimeReader Nat) : TimeReader Nat := fun cs => do
  let (n, rest) ← r cs
  if n < least || greatest < n then .error .outOfRange
  .ok (n, rest)

/-- The fraction of a second in nanoseconds, if there is one. Digits beyond the ninth are
dropped. -/
def fraction : TimeReader Nat
  | '.' :: cs =>
    let digits := cs.takeWhile isDigit
    let kept := (digits.take 9).filterMap digitValue?
    if digits.isEmpty then .error (if cs.isEmpty then .tooShort else .invalid)
    else .ok (digitsValue 0 kept * Nat.pow 10 (9 - kept.length), cs.dropWhile isDigit)
  | cs => .ok (0, cs)

/-- The sign of an offset; the typographic minus sign counts. -/
def offsetSign : TimeReader Bool
  | [] => .error .tooShort
  | c :: rest =>
    if c == '+' then .ok (false, rest)
    else if c == '-' || c.toNat == 0x2212 then .ok (true, rest)
    else .error .invalid

/-- The offset from universal time in seconds: a letter for none, or hours and minutes with what
`between` reads between them. -/
def offset (between : TimeReader Unit) : TimeReader Int
  | 'Z' :: rest => .ok (0, rest)
  | 'z' :: rest => .ok (0, rest)
  | cs => do
    let (negative, cs) ← offsetSign cs
    let (hours, cs) ← number 2 2 cs
    let ((), cs) ← between cs
    let (minutes, cs) ← number 2 2 cs
    if 59 < minutes then .error .outOfRange
    let seconds : Int := hours * 3600 + minutes * 60
    .ok (if negative then -seconds else seconds, cs)

def blanks : TimeReader Unit := fun cs => .ok ((), cs.dropWhile Text.isBlank)

/-- A number in the tolerant form: blanks, then at most two digits. -/
def shortNumber : TimeReader Nat := fun cs => number 1 2 (cs.dropWhile Text.isBlank)

/-- A character in the tolerant form, with blanks before it. -/
def spacedChar (c : Char) : TimeReader Unit := fun cs => char c (cs.dropWhile Text.isBlank)

/-- A year of any number of digits. One that takes more than 32 bits with its sign is out of range
whatever follows it. -/
def signedYear (negative : Bool) : TimeReader Int := fun cs => do
  let (n, rest) ← number 1 cs.length cs
  let year : Int := if negative then -n else n
  if year < -2147483648 || 2147483647 < year then .error .outOfRange
  .ok (year, rest)

/-- A year in the tolerant form: up to four digits, or any number of them behind a sign. -/
def tolerantYear : TimeReader Int := fun cs =>
  match cs.dropWhile Text.isBlank with
  | '-' :: rest => signedYear true rest
  | '+' :: rest => signedYear false rest
  | cs => do
    let (n, rest) ← number 1 4 cs
    .ok ((n : Int), rest)

/-- What may stand between hours and minutes of a tolerant offset: colons and blanks. -/
def colonsOrBlanks : TimeReader Unit := fun cs =>
  .ok ((), cs.dropWhile fun c => c == ':' || Text.isBlank c)

/-- An offset in the tolerant form, where universal time may be named. -/
def tolerantOffset : TimeReader Int := fun cs =>
  match cs.dropWhile Text.isBlank with
  | a :: b :: c :: rest =>
    if (a == 'U' || a == 'u') && (b == 'T' || b == 't') && (c == 'C' || c == 'c') then
      .ok (0, rest)
    else offset colonsOrBlanks (a :: b :: c :: rest)
  | cs => offset colonsOrBlanks cs

end TimeReader

/-- A date, a time of day and an offset as they are written. -/
structure WrittenTime where
  date : Date
  hour : Nat
  minute : Nat
  second : Nat
  nanos : Nat
  offset : Int

/-- The first year that the calendar covers. -/
def firstYear : Int := -262143

/-- The last year that the calendar covers. -/
def lastYear : Int := 262142

namespace WrittenTime

/-- Whether the written date is one of the calendar. -/
def hasDate (w : WrittenTime) : Bool :=
  w.date.isValid && firstYear ≤ w.date.year && w.date.year ≤ lastYear

/-- The seconds since the beginning of 1970. The second 60 counts as the one before it. -/
def seconds (w : WrittenTime) : Int :=
  dayNumber w.date * 86400 + w.hour * 3600 + w.minute * 60 + min w.second 59 - w.offset

/-- The point in time. The second 60 is a leap second. Dates outside the calendar and offsets of a
day or more are out of range, and no point in time is there if the offset leads out of the
calendar. -/
def toTimestamp (w : WrittenTime) : Except TimeFlaw Timestamp :=
  if !w.hasDate || 86400 ≤ w.offset.natAbs then .error .outOfRange
  else
    let day := Int.fdiv w.seconds 86400
    if day < dayNumber ⟨firstYear, 1, 1⟩ || dayNumber ⟨lastYear, 12, 31⟩ < day then
      .error .impossible
    else .ok ⟨w.seconds, if w.second == 60 then w.nanos + nanosPerSecond else w.nanos⟩

end WrittenTime

namespace Timestamp

open TimeReader in
/-- Reads the strict form. -/
def ofText (s : String) : Except TimeFlaw Timestamp := do
  let (year, cs) ← number 4 4 s.toList
  let ((), cs) ← char '-' cs
  let (month, cs) ← ranged 1 12 (number 2 2) cs
  let ((), cs) ← char '-' cs
  let (day, cs) ← ranged 1 31 (number 2 2) cs
  let ((), cs) ← separator cs
  let (hour, cs) ← ranged 0 23 (number 2 2) cs
  let ((), cs) ← char ':' cs
  let (minute, cs) ← ranged 0 59 (number 2 2) cs
  let ((), cs) ← char ':' cs
  let (second, cs) ← ranged 0 60 (number 2 2) cs
  let (nanos, cs) ← fraction cs
  let (offset, cs) ← offset (char ':') cs
  if !cs.isEmpty then .error .tooLong
  WrittenTime.toTimestamp ⟨⟨year, month, day⟩, hour, minute, second, nanos, offset⟩

open TimeReader in
/-- Reads the tolerant form. -/
def ofTolerantText (s : String) : Except TimeFlaw Timestamp := do
  let (year, cs) ← tolerantYear s.toList
  let ((), cs) ← spacedChar '-' cs
  let (month, cs) ← ranged 1 12 shortNumber cs
  let ((), cs) ← spacedChar '-' cs
  let (day, cs) ← ranged 1 31 shortNumber cs
  let ((), cs) ← separator cs
  let (hour, cs) ← ranged 0 23 shortNumber cs
  let ((), cs) ← spacedChar ':' cs
  let (minute, cs) ← ranged 0 59 shortNumber cs
  let ((), cs) ← spacedChar ':' cs
  let (second, cs) ← ranged 0 60 shortNumber cs
  let (nanos, cs) ← fraction cs
  let ((), cs) ← blanks cs
  let (offset, cs) ← tolerantOffset cs
  let ((), cs) ← blanks cs
  if !cs.isEmpty then .error .tooLong
  WrittenTime.toTimestamp ⟨⟨year, month, day⟩, hour, minute, second, nanos, offset⟩

end Timestamp

end Workgraph
