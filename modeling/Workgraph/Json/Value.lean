import Workgraph.Number.Decimal
import Workgraph.Table
/-!
# JSON values

The dynamic values that flow through a workflow: configuration, channel contents, messages between
nodes. Integers and floating point numbers are told apart, and objects are tables.

## Main definitions

- `Number`, `Json`: numbers and values
- `Json.same`: equality of values, where floating point numbers are compared as numbers
- `Json.isEmpty`, `Json.isTruthy`: the tests that conditions make on values of any kind
-/

namespace Workgraph

def maxUnsigned64 : Nat := Nat.pow 2 64 - 1

def maxSigned64 : Nat := Nat.pow 2 63 - 1

/-- A number: an integer, or a floating point number. The two are never equal. -/
inductive Number where
  | int (n : Int)
  | float (x : Binary64)
deriving DecidableEq

namespace Number

/-- Equality of numbers of the same kind; both floating point zeros are equal. -/
def same : Number → Number → Bool
  | int a, int b => a == b
  | float a, float b => a.same b
  | _, _ => false

/-- The number as a floating point number, which is how numbers are compared with each other. -/
def toExtended : Number → Extended
  | int n => .ofInt n
  | float x => .finite x

/-- Whether a number is zero. -/
def isZero : Number → Bool
  | int n => n == 0
  | float x => x.isZero

end Number

/-- A JSON value. The fields of an object are in increasing order of keys. -/
inductive Json where
  | null
  | bool (b : Bool)
  | num (n : Number)
  | str (s : String)
  | arr (items : List Json)
  | obj (fields : List (String × Json))
deriving Inhabited

namespace Json

mutual

/-- Equality of values. -/
def same : Json → Json → Bool
  | null, null => true
  | bool a, bool b => a == b
  | num a, num b => a.same b
  | str a, str b => a == b
  | arr a, arr b => sameItems a b
  | obj a, obj b => sameFields a b
  | _, _ => false

def sameItems : List Json → List Json → Bool
  | [], [] => true
  | a :: as, b :: bs => same a b && sameItems as bs
  | _, _ => false

def sameFields : List (String × Json) → List (String × Json) → Bool
  | [], [] => true
  | (k, a) :: as, (l, b) :: bs => k == l && same a b && sameFields as bs
  | _, _ => false

end

instance : BEq Json := ⟨same⟩

def int (n : Int) : Json := num (.int n)

def nat (n : Nat) : Json := num (.int n)

/-- An object from fields in any order. -/
def object (fields : List (String × Json)) : Json := obj (Table.ofList fields)

/-- A list of texts as a value. -/
def texts (ss : List String) : Json := arr (ss.map str)

/-- A text that may be absent, which null stands for. -/
def text? : Option String → Json
  | some s => str s
  | none => null

def isNull : Json → Bool
  | null => true
  | _ => false

/-- The field of an object; other values have no fields. -/
def field? : Json → String → Option Json
  | obj fields, key => Table.get? fields key
  | _, _ => none

def asText? : Json → Option String
  | str s => some s
  | _ => none

def asItems? : Json → Option (List Json)
  | arr items => some items
  | _ => none

/-- Null, the empty text, the empty array and the empty object are empty; booleans and numbers never
are. -/
def isEmpty : Json → Bool
  | null => true
  | str s => s.isEmpty
  | arr items => items.isEmpty
  | obj fields => fields.isEmpty
  | bool _ => false
  | num _ => false

/-- Whether a value counts as true: true itself, a number other than zero, or a value of another
kind that is not empty. -/
def isTruthy : Json → Bool
  | bool b => b
  | num n => !n.isZero
  | other => !other.isEmpty

end Json

end Workgraph
