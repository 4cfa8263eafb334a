/-!
# Searching texts

Where one text occurs in another.

## Main definitions

- `contains`: whether a text occurs in another
- `startsWith`, `endsWith`: whether it occurs at one of the ends
- `splitAtFirst?`: the parts around the first occurrence
- `splitOn`: the pieces between the occurrences of one character
-/

namespace Workgraph.Text

/-- The parts of a sequence before and after the first occurrence of another. -/
def splitAtFirst? (needle : List Char) : List Char → Option (List Char × List Char)
  | [] => if needle.isEmpty then some ([], []) else none
  | c :: rest =>
    if needle.isPrefixOf (c :: rest) then some ([], (c :: rest).drop needle.length)
    else (splitAtFirst? needle rest).map fun (before, after) => (c :: before, after)

def contains (s needle : String) : Bool :=
  (splitAtFirst? needle.toList s.toList).isSome

def startsWith (s start : String) : Bool :=
  start.toList.isPrefixOf s.toList

def endsWith (s tail : String) : Bool :=
  tail.toList.reverse.isPrefixOf s.toList.reverse

/-- The pieces of a sequence between the occurrences of one character; there is one more piece than
there are occurrences. -/
def splitChars (sep : Char) : List Char → List (List Char)
  | [] => [[]]
  | c :: rest =>
    if c == sep then [] :: splitChars sep rest
    else
      match splitChars sep rest with
      | [] => [[c]]
      | piece :: pieces => (c :: piece) :: pieces

/-- The pieces of a text between the occurrences of one character. -/
def splitOn (sep : Char) (s : String) : List String :=
  (splitChars sep s.toList).map String.ofList

/-- The parts before and after the first occurrence of one character. -/
def cut? (sep : Char) (s : String) : Option (String × String) :=
  (splitAtFirst? [sep] s.toList).map fun (before, after) =>
    (String.ofList before, String.ofList after)

end Workgraph.Text
