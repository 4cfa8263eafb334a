import Workgraph.Json.Printer
import Workgraph.Json.Reader
import Workgraph.Text.Quoted
/-!
# Typed reading of JSON

From trees to typed values. Problems are reported in the order in which they stand in the tree, so
the first one wins; what is missing is noticed when everything present has been read.

## Main definitions

- `DecodeError`: what is wrong, with `DecodeError.message` for its wording
- `Decoder`: a reader of trees
- `Record`: the declared fields of a structure, an applicative functor
- `Record.decoder`: a structure written as an object by names or as an array by positions
- `decodeText`, `decodeValue`: reading a text or a value
-/

namespace Workgraph

/-- What was found where something else was expected. -/
inductive Found where
  | null
  | bool (b : Bool)
  | int (n : Int)
  | float (x : Binary64)
  | string (s : String)
  | sequence
  | map
  | unitVariant
deriving DecidableEq

/-- How a found thing is named. -/
def Found.text : Found → String
  | null => "null"
  | bool b => "boolean `" ++ (if b then "true" else "false") ++ "`"
  | int n => "integer `" ++ Number.text (.int n) ++ "`"
  | float x => "floating point `" ++ x.text ++ "`"
  | string s => "string " ++ Text.quoted s
  | sequence => "sequence"
  | map => "map"
  | unitVariant => "unit variant"

/-- Why a tree is not the form of a typed value. -/
inductive DecodeError where
  | missingField (name : String)
  | duplicateField (name : String)
  | unknownVariant (found : String) (expected : List String)
  | invalidType (found : Found) (expected : String)
  | invalidValue (found : Found) (expected : String)
  | invalidLength (found : Nat) (expected : String)
  | invalidTime (reason : String)
  | flawed (flaw : Flaw)
deriving DecidableEq

namespace DecodeError

def ticked (s : String) : String := "`" ++ s ++ "`"

/-- The choice between the variants of an enumeration. -/
def choice : List String → String
  | [] => "nothing"
  | [a] => ticked a
  | [a, b] => ticked a ++ " or " ++ ticked b
  | names => "one of " ++ String.intercalate ", " (names.map ticked)

def message : DecodeError → String
  | missingField name => "missing field " ++ ticked name
  | duplicateField name => "duplicate field " ++ ticked name
  | unknownVariant found expected =>
    "unknown variant " ++ ticked found ++ ", expected " ++ choice expected
  | invalidType found expected => "invalid type: " ++ found.text ++ ", expected " ++ expected
  | invalidValue found expected => "invalid value: " ++ found.text ++ ", expected " ++ expected
  | invalidLength found expected =>
    "invalid length " ++ Nat.repr found ++ ", expected " ++ expected
  | invalidTime reason => reason
  | flawed .truncated => "the text ends too early"
  | flawed .malformed => "the text is not well formed"

end DecodeError

/-- The circumstances of reading: a value that is at hand, or a text in which a limited number of
brackets may still be opened. -/
inductive Medium where
  | value
  | text (levels : Nat)
deriving DecidableEq

/-- The number of brackets that may be open at once in a text. -/
def maxDepth : Nat := 127

/-- The circumstances behind one more opening bracket. -/
def Medium.enter : Medium → Except DecodeError Medium
  | value => .ok .value
  | text 0 => .error (.flawed .malformed)
  | text (levels + 1) => .ok (.text levels)

/-- A reader of trees. -/
abbrev Decoder (α : Type) := Medium → Tree → Except DecodeError α

namespace Decoder

/-- The error of meeting a tree where something else is expected. A place that cannot be read is
its own problem. -/
def mismatch (expected : String) : Tree → DecodeError
  | .null => .invalidType .null expected
  | .bool b => .invalidType (.bool b) expected
  | .num (.int n) => .invalidType (.int n) expected
  | .num (.float x) => .invalidType (.float x) expected
  | .str s => .invalidType (.string s) expected
  | .arr _ _ => .invalidType .sequence expected
  | .obj _ _ => .invalidType .map expected
  | .unreadable _ reading _ => .flawed reading

/-- Fails if a list that is read to its end ends in a flaw. -/
def finish (ending : Ending) : Except DecodeError Unit :=
  match ending.flaw? with
  | none => .ok ()
  | some flaw => .error (.flawed flaw)

def text : Decoder String
  | _, .str s => .ok s
  | _, t => .error (mismatch "a string" t)

def bool : Decoder Bool
  | _, .bool b => .ok b
  | _, t => .error (mismatch "a boolean" t)

/-- An integer between bounds; `kind` names the range. -/
def integer (kind : String) (least greatest : Int) : Decoder Int
  | _, .num (.int n) =>
    if least ≤ n && n ≤ greatest then .ok n else .error (.invalidValue (.int n) kind)
  | _, t => .error (mismatch kind t)

/-- A natural number up to a bound; `kind` names the range. -/
def natural (kind : String) (greatest : Nat) : Decoder Nat :=
  fun m t => (integer kind 0 greatest m t).map Int.toNat

def unsigned32 : Decoder Nat := natural "u32" (Nat.pow 2 32 - 1)

def unsigned64 : Decoder Nat := natural "u64" maxUnsigned64

/-- A count or an index. -/
def size : Decoder Nat := natural "usize" maxUnsigned64

def signed64 : Decoder Int := integer "i64" (-(maxSigned64 : Int) - 1) maxSigned64

/-- Null for nothing. -/
def optional {α : Type} (d : Decoder α) : Decoder (Option α)
  | _, .null => .ok none
  | m, t => (d m t).map some

/-- The items of a list, one after the other. -/
def items {α : Type} (d : Decoder α) (m : Medium) : List Tree → Except DecodeError (List α)
  | [] => .ok []
  | t :: rest => do
    let a ← d m t
    let as ← items d m rest
    .ok (a :: as)

def list {α : Type} (d : Decoder α) : Decoder (List α)
  | m, .arr ts ending => do
    let m ← m.enter
    let as ← items d m ts
    finish ending
    .ok as
  | _, t => .error (mismatch "a sequence" t)

/-- The entries of an object, one after the other. -/
def entries {α : Type} (d : Decoder α) (m : Medium) :
    List (Option String × Tree) → Except DecodeError (List (String × α))
  | [] => .ok []
  | (none, _) :: _ => .error (.flawed .malformed)
  | (some k, t) :: rest => do
    let a ← d m t
    let as ← entries d m rest
    .ok ((k, a) :: as)

/-- An object as a table; the last entry of a key counts. -/
def table {α : Type} (d : Decoder α) : Decoder (Table α)
  | m, .obj fields ending => do
    let m ← m.enter
    let as ← entries d m fields
    finish ending
    .ok (Table.ofList as)
  | _, t => .error (mismatch "a map" t)

mutual

/-- Any value. -/
def json (m : Medium) : Tree → Except DecodeError Json
  | .null => .ok .null
  | .bool b => .ok (.bool b)
  | .num n => .ok (.num n)
  | .str s => .ok (.str s)
  | .arr ts ending => do
    let m ← m.enter
    let vs ← jsonItems m ts
    finish ending
    .ok (.arr vs)
  | .obj fields ending => do
    let m ← m.enter
    let vs ← jsonFields m fields
    finish ending
    .ok (.object vs)
  | .unreadable _ reading _ => .error (.flawed reading)

/-- The items of an array of any values. -/
def jsonItems (m : Medium) : List Tree → Except DecodeError (List Json)
  | [] => .ok []
  | t :: rest => do
    let v ← json m t
    let vs ← jsonItems m rest
    .ok (v :: vs)

/-- The fields of an object of any values. -/
def jsonFields (m : Medium) :
    List (Option String × Tree) → Except DecodeError (List (String × Json))
  | [] => .ok []
  | (none, _) :: _ => .error (.flawed .malformed)
  | (some k, t) :: rest => do
    let v ← json m t
    let vs ← jsonFields m rest
    .ok ((k, v) :: vs)

end

/-- What may be left of an array after all of its expected items: nothing. -/
def finishItems (m : Medium) (count : Nat) (left : List Tree) (ending : Ending) :
    Except DecodeError Unit :=
  match m with
  | .value =>
    if left.isEmpty then .ok () else .error (.invalidLength count "fewer elements in array")
  | .text _ =>
    match left, ending with
    | _ :: _, _ => .error (.flawed .malformed)
    | [], .closed => .ok ()
    | [], .broken reading _ => .error (.flawed reading)
    | [], .afterComma _ => .error (.flawed .malformed)

/-- An array of two items. -/
def pair {α β : Type} (da : Decoder α) (db : Decoder β) : Decoder (α × β)
  | m, .arr ts ending => do
    let inner ← m.enter
    match ts with
    | [] => do
      finish ending
      .error (.invalidLength 0 "a tuple of size 2")
    | [t] => do
      let _ ← da inner t
      finish ending
      .error (.invalidLength 1 "a tuple of size 2")
    | t :: u :: left => do
      let a ← da inner t
      let b ← db inner u
      finishItems m ts.length left ending
      .ok (a, b)
  | _, t => .error (mismatch "a tuple of size 2" t)

/-- Looks up the variant of an enumeration. -/
def variant {α : Type} (variants : List (String × α)) (name : String) : Except DecodeError α :=
  match variants.find? (·.1 == name) with
  | some (_, a) => .ok a
  | none => .error (.unknownVariant name (variants.map (·.1)))

/-- What must follow the single field of a variant written as an object. -/
def finishVariant (m : Medium) (more : List (Option String × Tree)) (ending : Ending) :
    Except DecodeError Unit :=
  match m, more, ending with
  | .value, [], _ => .ok ()
  | .text _, [], .closed => .ok ()
  | .text _, [], .broken reading _ => .error (.flawed reading)
  | _, _, _ => .error (.flawed .malformed)

/-- The name of a variant and its content, if it is written as an object with one field. -/
def variantParts {α β : Type} (variants : List (String × α))
    (plain : α → Except DecodeError β) (content : α → Decoder β) : Decoder β
  | _, .str s => do
    let a ← variant variants s
    plain a
  | m, .obj fields ending => do
    let inner ← m.enter
    match m, fields with
    | .value, [(some k, t)] => do
      let a ← variant variants k
      content a inner t
    | .value, _ => .error (.invalidValue .map "map with a single key")
    | .text _, (some k, t) :: more => do
      let a ← variant variants k
      let b ← content a inner t
      finishVariant m more ending
      .ok b
    | .text _, (none, _) :: _ => .error (.flawed .malformed)
    | .text _, [] =>
      match ending with
      | .broken reading _ => .error (.flawed reading)
      | _ => .error (.flawed .malformed)
  | .value, t => .error (mismatch "string or map" t)
  | .text _, .unreadable .word _ _ => .error (.flawed .malformed)
  | .text _, .unreadable _ reading _ => .error (.flawed reading)
  | .text _, _ => .error (.flawed .malformed)

/-- An enumeration: the name of a variant, or an object with null under that name. -/
def enumeration {α : Type} (variants : List (String × α)) : Decoder α :=
  variantParts variants .ok fun a _ t =>
    match t with
    | .null => .ok a
    | t => .error (mismatch "unit" t)

/-- A choice between contents, written as an object with one field that names the kind of the
content. -/
def tagged {α : Type} (variants : List (String × Decoder α)) : Decoder α :=
  variantParts variants (fun _ => .error (.invalidType .unitVariant "newtype variant")) id

end Decoder

/-- A declared field: its names, the check of its value, and whether it may be left out of an
array. -/
structure FieldRule where
  name : String
  aliases : List String
  check : Medium → Tree → Except DecodeError Unit
  omissible : Bool

/-- Whether a written name is one of the names of the field. -/
def FieldRule.named (r : FieldRule) (written : String) : Bool :=
  r.name == written || r.aliases.contains written

/-- The declared fields of a structure together with the way in which the structure is made from the
trees found for them. -/
structure Record (α : Type) where
  rules : List FieldRule
  build : Medium → (String → Option Tree) → Except DecodeError α

namespace Record

variable {α β : Type}

/-- The rule of a field whose value a decoder reads. -/
def rule (name : String) (aliases : List String) (d : Decoder α) (omissible : Bool) : FieldRule :=
  ⟨name, aliases, fun m t => (d m t).map fun _ => (), omissible⟩

/-- A field that must be present. -/
def required (name : String) (d : Decoder α) (aliases : List String := []) : Record α where
  rules := [rule name aliases d false]
  build := fun m found =>
    match found name with
    | some t => d m t
    | none => .error (.missingField name)

/-- A field with a default. -/
def defaulted (name : String) (d : Decoder α) (default : α) (aliases : List String := []) :
    Record α where
  rules := [rule name aliases d true]
  build := fun m found =>
    match found name with
    | some t => d m t
    | none => .ok default

/-- A field that an object may lack or give as null, but an array has to give. -/
def nullable (name : String) (d : Decoder α) : Record (Option α) where
  rules := [rule name [] (Decoder.optional d) false]
  build := fun m found =>
    match found name with
    | some t => Decoder.optional d m t
    | none => .ok none

instance : Applicative Record where
  pure a := ⟨[], fun _ _ => .ok a⟩
  seq f a :=
    let a := a ()
    ⟨f.rules ++ a.rules, fun m found => do
      let g ← f.build m found
      let b ← a.build m found
      .ok (g b)⟩

/-- The fields found so far: the tree of each, under the main name. -/
abbrev FoundFields := List (String × Tree)

/-- The tree found for a field. -/
def FoundFields.tree? (found : FoundFields) (name : String) : Option Tree :=
  (found.find? (·.1 == name)).map (·.2)

/-- Reads the fields of an object in writing order. Fields that are not declared are passed over. -/
def readFields (rules : List FieldRule) (m : Medium) (found : FoundFields) :
    List (Option String × Tree) → Except DecodeError FoundFields
  | [] => .ok found
  | (none, _) :: _ => .error (.flawed .malformed)
  | (some k, t) :: rest =>
    match rules.find? (·.named k) with
    | some r => do
      if (found.tree? r.name).isSome then .error (.duplicateField r.name)
      r.check m t
      readFields rules m (found ++ [(r.name, t)]) rest
    | none =>
      match t.skip with
      | some flaw => .error (.flawed flaw)
      | none => readFields rules m found rest

/-- Reads the fields of an array by position. `index` fields have been read. -/
def readPositions (m : Medium) (expected : String) (ending : Ending) (index : Nat) :
    List FieldRule → List Tree → Except DecodeError (FoundFields × List Tree)
  | [], left => .ok ([], left)
  | r :: rules, t :: rest => do
    r.check m t
    let (found, left) ← readPositions m expected ending (index + 1) rules rest
    .ok ((r.name, t) :: found, left)
  | r :: rules, [] => do
    Decoder.finish ending
    if r.omissible then readPositions m expected ending (index + 1) rules []
    else .error (.invalidLength index expected)

/-- How a structure with a number of fields is called when it is given as an array. -/
def arity (name : String) (count : Nat) : String :=
  "struct " ++ name ++ " with " ++ Nat.repr count ++
    (if count == 1 then " element" else " elements")

/-- A structure, as an object with the fields by name or as an array with the fields by position. -/
def decoder (name : String) (r : Record α) : Decoder α
  | m, .obj fields ending => do
    let inner ← m.enter
    let found ← readFields r.rules inner [] fields
    Decoder.finish ending
    r.build inner found.tree?
  | m, .arr items ending => do
    let inner ← m.enter
    let (found, left) ← readPositions inner (arity name r.rules.length) ending 0 r.rules items
    Decoder.finishItems m items.length left ending
    r.build inner found.tree?
  | _, t => .error (Decoder.mismatch ("struct " ++ name) t)

end Record

/-- Reads a typed value from a value. -/
def decodeValue {α : Type} (d : Decoder α) (v : Json) : Except DecodeError α :=
  d .value v.toTree

/-- Reads a typed value from a text, which must hold nothing else. -/
def decodeText {α : Type} (d : Decoder α) (s : String) : Except DecodeError α := do
  let document := JsonDocument.ofText s
  let a ← d (.text maxDepth) document.tree
  if document.trailing then .error (.flawed .malformed)
  .ok a

end Workgraph
