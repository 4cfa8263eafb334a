import Workgraph.Text.Blank
import Workgraph.Text.Lowercase
/-!
# Names of agents

The form of an agent's name that tools are named after and that names are compared in.

## Main definitions

- `normalizeName`: lower case words with underscores between them
-/

namespace Workgraph

/-- The words of a name in lower case with underscores between them. -/
def normalizeName (name : String) : String :=
  String.intercalate "_" ((Text.words name).map Text.lowercase)

end Workgraph
