import Workgraph.Json.Value
/-!
# Faults

How an error is shown to whoever has to deal with it: the kind of the error, a sentence, and where
there are any, a code to look up and advice.

## Main definitions

- `Fault`: an error as it is shown
- `Fault.toJson`: the written form
-/

namespace Workgraph

/-- An error as it is shown. -/
structure Fault where
  kind : String
  message : String
  code : Option String
  help : Option String
deriving DecidableEq

namespace Fault

/-- A fault with a code and advice. -/
def advised (kind message code help : String) : Fault := ⟨kind, message, some code, some help⟩

def coded (kind message code : String) : Fault := ⟨kind, message, some code, none⟩

def fields (f : Fault) : List (String × Json) :=
  [("error", .str f.kind), ("message", .str f.message), ("code", .text? f.code),
    ("help", .text? f.help)]

def toJson (f : Fault) : Json := .object f.fields

end Fault

end Workgraph
