import Workgraph.Condition
import Workgraph.Node.Plan
/-!
# List queries

A node that filters a list, picks one item, sorts and truncates, in this order and each only where
asked for.

## Main definitions

- `Filter`, `Pick`, `Sorting`, `Limit`, `ListQuery`: the stages and what they are part of
- `pick`, `Sorting.precedes`: the item at a position; the order of two items
- `ListQuery.apply`: the items that come out
- `listQueryMaker`: makes the nodes
-/

namespace Workgraph

/-- The stage that keeps the items on which conditions hold. -/
structure Filter where
  enabled : Bool
  conditions : List Condition
  connective : Connective

namespace Filter

def decoder : Decoder Filter :=
  Record.decoder "FilterBy" <|
    Filter.mk
      <$> Record.defaulted "enabled" Decoder.bool false
      <*> Record.defaulted "conditions" (Decoder.list Condition.decoder) []
      <*> Record.defaulted "logicalOperator" (Decoder.enumeration Connective.names) .all
        ["logical_operator"]

/-- Whether an item is kept. -/
def keeps (f : Filter) (item : Json) : Bool := evaluateAll f.conditions f.connective item

end Filter

/-- The stage that picks one item by its position. -/
structure Pick where
  enabled : Bool
  position : Int

def Pick.decoder : Decoder Pick :=
  Record.decoder "ExtractBy" <|
    Pick.mk
      <$> Record.defaulted "enabled" Decoder.bool false
      <*> Record.defaulted "index" Decoder.signed64 0

/-- The item at a position, which counts from one, or from minus one at the end. -/
def pick {α : Type} (items : List α) (position : Int) : List α :=
  if position = 0 then []
  else if 0 < position then (items[(position - 1).toNat]?).toList
  else if -(items.length : Int) ≤ position then
    (items[((items.length : Int) + position).toNat]?).toList
  else []

/-- The stage that sorts. -/
structure Sorting where
  enabled : Bool
  selector : String
  descending : Bool

namespace Sorting

def decoder : Decoder Sorting :=
  Record.decoder "SortBy" <|
    Sorting.mk
      <$> Record.defaulted "enabled" Decoder.bool false
      <*> Record.defaulted "variable" Decoder.text ""
      <*> Record.defaulted "descending" Decoder.bool false

/-- Whether a value may stand before another, in increasing order. Values of different kinds may
stand in any order. -/
def ascends : Json → Json → Bool
  | .num a, .num b => !b.toExtended.lt a.toExtended
  | .str a, .str b => !(b < a)
  | .bool a, .bool b => !a || b
  | _, _ => true

/-- The value that an item is sorted by. An item without it, or with null, has none. -/
def key? (s : Sorting) (item : Json) : Option Json :=
  (item.select? s.selector).filter fun v => !v.isNull

/-- Whether an item may stand before another. Items that have no value to be sorted by stand last in
both directions. -/
def precedes (s : Sorting) (a b : Json) : Bool :=
  match s.key? a, s.key? b with
  | _, none => true
  | none, some _ => false
  | some x, some y => if s.descending then ascends y x else ascends x y

end Sorting

/-- The stage that keeps the first few items. -/
structure Limit where
  enabled : Bool
  count : Nat

namespace Limit

def decoder : Decoder Limit :=
  Record.decoder "TopN" <|
    Limit.mk
      <$> Record.defaulted "enabled" Decoder.bool false
      <*> Record.defaulted "count" Decoder.size 0

/-- The items that are kept; a limit of zero keeps them all. -/
def keep {α : Type} (l : Limit) (items : List α) : List α :=
  if l.count = 0 then items else items.take l.count

end Limit

/-- What becomes of a list. -/
structure ListQuery where
  input : String
  filterBy : Option Filter
  extractBy : Option Pick
  sortBy : Option Sorting
  top : Option Limit

namespace ListQuery

def decoder : Decoder ListQuery :=
  Record.decoder "ListOperatorEntity" <|
    ListQuery.mk
      <$> Record.defaulted "input" Decoder.text ""
      <*> Record.defaulted "filterBy" (Decoder.optional Filter.decoder) none ["filter_by"]
      <*> Record.defaulted "extractBy" (Decoder.optional Pick.decoder) none ["extract_by"]
      <*> Record.defaulted "sortBy" (Decoder.optional Sorting.decoder) none ["sort_by"]
      <*> Record.defaulted "topN" (Decoder.optional Limit.decoder) none ["top_n"]

/-- A stage, if there is one and it is enabled. -/
def stage {α β : Type} (enabled : α → Bool) (s : Option α) (f : α → List β → List β)
    (items : List β) : List β :=
  match s.filter enabled with
  | some a => f a items
  | none => items

/-- The items that come out. -/
def apply (q : ListQuery) (items : List Json) : List Json :=
  let items := stage Filter.enabled q.filterBy (fun f => List.filter f.keeps) items
  let items := stage Pick.enabled q.extractBy (fun p items => pick items p.position) items
  let items := stage Sorting.enabled q.sortBy (fun s items => items.mergeSort s.precedes) items
  stage Limit.enabled q.top (fun l => l.keep) items

/-- What is written for the items that came out. -/
def report (items : List Json) : Json :=
  .object [("result", .arr items), ("first_record", items.head?.getD .null),
    ("last_record", items.getLast?.getD .null), (Channel.errorField, .null)]

/-- What is reported if there is no list. -/
def notAList : String := "The input value of List Operator must be an array."

end ListQuery

variable {σ : Type}

/-- Queries a list. -/
def listQueryNode (q : ListQuery) : Node σ := fun ctx s => do
  match (s.resolve? q.input).bind Json.asItems? with
  | some items => return .ok (.write (ListQuery.report (q.apply items)))
  | none =>
    ctx.say ListQuery.notAList
    return .ok (.failure ListQuery.notAList)

/-- Makes nodes that query lists. -/
def listQueryMaker : Maker σ := fun ctx => do
  let q ← ctx.configuration ListQuery.decoder ⟨"", none, none, none, none⟩
  if Text.isBlankText q.input then throw (ctx.invalid "list operator needs an input selector")
  let key := ctx.node.key
  return .routing (listQueryNode q) (.shallowMerge (channelName key)) (.ofErrors ctx.graph key)

end Workgraph
