import Workgraph.Json.Value
/-!
# Trees of JSON texts

What a JSON text says, in the order in which it says it, up to the place where it stops making
sense. A typed reader of a tree meets the first problem of the text first, whether that is a value
of the wrong kind or a broken piece of text, because a break is part of the tree.

## Main definitions

- `Flaw`: what can be wrong with a piece of text
- `Tree`: values, fields in writing order with repetitions, and breaks
- `Tree.skip`: passing over a part that nobody asks for
- `Json.toTree`: the tree of a value
-/

namespace Workgraph

/-- What is wrong with a text: it ends too early, or it is not well formed. -/
inductive Flaw where
  | truncated
  | malformed
deriving DecidableEq, Repr

/-- What stands at a place where no value can be read: nothing at all, a string, or something
else. -/
inductive Token where
  | nothing
  | string
  | word
deriving DecidableEq

/-- How a list of items or fields ends: with its closing bracket, at a break, or at a comma that
nothing follows. A break is seen differently when the list is read and when it is passed over. -/
inductive Ending where
  | closed
  | broken (reading skipping : Flaw)
  | afterComma (flaw : Flaw)
deriving DecidableEq

/-- The tree of a JSON text. A field without a name is one whose name denotes no text. A place
that is unreadable has a flaw for whoever asks for its value, and possibly another for whoever
passes over it; if it has none, the text continues behind it. -/
inductive Tree where
  | null
  | bool (b : Bool)
  | num (n : Number)
  | str (s : String)
  | arr (items : List Tree) (ending : Ending)
  | obj (fields : List (Option String × Tree)) (ending : Ending)
  | unreadable (token : Token) (reading : Flaw) (skipping : Option Flaw)

/-- What is met at the end of a list that is read to its end. -/
def Ending.flaw? : Ending → Option Flaw
  | closed => none
  | broken reading _ => some reading
  | afterComma flaw => some flaw

/-- What is met at the end of a list that is passed over. -/
def Ending.skippingFlaw? : Ending → Option Flaw
  | closed => none
  | broken _ skipping => some skipping
  | afterComma flaw => some flaw

namespace Tree

mutual

/-- The flaw met when a part of a text is passed over, if any. -/
def skip : Tree → Option Flaw
  | arr items ending => (skipItems items).or ending.skippingFlaw?
  | obj fields ending => (skipFields fields).or ending.skippingFlaw?
  | unreadable _ _ skipping => skipping
  | null => none
  | bool _ => none
  | num _ => none
  | str _ => none

/-- The first flaw met in a list of items. -/
def skipItems : List Tree → Option Flaw
  | [] => none
  | t :: rest => (skip t).or (skipItems rest)

/-- The first flaw met in a list of fields. -/
def skipFields : List (Option String × Tree) → Option Flaw
  | [] => none
  | (_, t) :: rest => (skip t).or (skipFields rest)

end

end Tree

namespace Json

mutual

/-- The tree of a value. -/
def toTree : Json → Tree
  | null => .null
  | bool b => .bool b
  | num n => .num n
  | str s => .str s
  | arr items => .arr (toTrees items) .closed
  | obj fields => .obj (toFieldTrees fields) .closed

/-- The trees of the items of an array. -/
def toTrees : List Json → List Tree
  | [] => []
  | v :: rest => toTree v :: toTrees rest

/-- The trees of the fields of an object. -/
def toFieldTrees : List (String × Json) → List (Option String × Tree)
  | [] => []
  | (k, v) :: rest => (some k, toTree v) :: toFieldTrees rest

end

end Json

end Workgraph
