import Workgraph.Json.Printer
import Workgraph.Selector
import Workgraph.Text.Blank
/-!
# Templates

A text with placeholders, each a selector between two pairs of braces. It is filled in from its
beginning to its end: what stands ahead of the next placeholder is copied, the text of the value
that the selector resolves to is put in the place of the placeholder, and the work goes on behind
it. The text that has been put there is never looked at again.

## Main definitions

- `placeholderText`: what is put in the place of a placeholder
- `renderRest`: the rest of a template filled in behind what is there already
- `renderTemplate`: the template filled in from a value
-/

namespace Workgraph

def openingBraces : List Char := ['\x7b', '\x7b']

def closingBraces : List Char := ['\x7d', '\x7d']

/-- The remainder behind the first occurrence of a non-empty sequence is shorter. -/
theorem splitAtFirst?_length {needle cs before after : List Char}
    (h : Text.splitAtFirst? needle cs = some (before, after)) :
    before.length + needle.length + after.length = cs.length := by
  induction cs generalizing before after with
  | nil =>
    cases needle with
    | nil => simp_all [Text.splitAtFirst?]
    | cons c cs => simp [Text.splitAtFirst?] at h
  | cons c rest ih =>
    by_cases hp : needle.isPrefixOf (c :: rest) = true
    · have hle : needle.length ≤ (c :: rest).length :=
        (List.isPrefixOf_iff_prefix.1 hp).length_le
      simp only [Text.splitAtFirst?, hp, if_true, Option.some.injEq, Prod.mk.injEq] at h
      obtain ⟨rfl, rfl⟩ := h
      simp only [List.length_nil, List.length_drop]
      omega
    · simp only [Text.splitAtFirst?, hp, Bool.false_eq_true, if_false, Option.map_eq_some_iff,
        Prod.mk.injEq, Prod.exists] at h
      obtain ⟨b, a, hba, rfl, rfl⟩ := h
      have := ih hba
      simp only [List.length_cons]
      omega

/-- What is put in the place of a placeholder: the text of the value that its selector resolves to,
not counting the blanks at its ends, or nothing. -/
def placeholderText (scope : Json) (inside : List Char) : List Char :=
  match scope.select? (String.ofList (Text.trimChars inside)) with
  | some v => v.plainText.toList
  | none => []

/-- The rest of a template filled in behind what is there already. Each earliest opening is paired
with the earliest closing behind it; an opening without a closing is copied with everything behind
it. -/
def renderRest (scope : Json) (out rest : List Char) : List Char :=
  match _h : Text.splitAtFirst? openingBraces rest with
  | none => out ++ rest
  | some (before, after) =>
    match _h' : Text.splitAtFirst? closingBraces after with
    | none => out ++ before ++ (openingBraces ++ after)
    | some (inside, rest) => renderRest scope (out ++ before ++ placeholderText scope inside) rest
termination_by rest.length
decreasing_by
  have h1 := splitAtFirst?_length _h
  have h2 := splitAtFirst?_length _h'
  simp only [openingBraces, closingBraces, List.length_cons, List.length_nil] at h1 h2
  omega

/-- A template filled in from a value. -/
def renderTemplate (template : String) (scope : Json) : String :=
  String.ofList (renderRest scope [] template.toList)

end Workgraph
