import Workgraph.Proofs.Json.Numerals
import Workgraph.Proofs.Json.Strings
import Workgraph.Proofs.Json.Values
/-!
# Values read back

The compact form of a value is read as the tree of this value, provided that its numbers are. A
value that stands inside another one is read in front of a comma or a closing bracket, so it is
read there for any text that may follow.

## Main definitions

- `JsonText.Reads`: the compact form of a value is read wherever it stands

## Main statements

- `JsonText.reads_of_numbers`: every value is read wherever it stands
- `JsonDocument.ofText_compact`: the compact form of a value holds this value and nothing else
-/

namespace Workgraph

namespace JsonText

open Json (toTree toTrees toFieldTrees escapedChar)

/-- The characters of the compact form of a value. -/
def chars (v : Json) : List Char := v.compact.toList

/-- The characters of a field behind the opening quote of its name. -/
def fieldBody (e : String × Json) : List Char :=
  e.1.toList.flatMap escapedChar ++ '"' :: ':' :: chars e.2

/-- The characters of a field. -/
def fieldChars (e : String × Json) : List Char := '"' :: fieldBody e

theorem length_chars_lt (e : String × Json) : (chars e.2).length < (fieldChars e).length := by
  simp only [fieldChars, fieldBody, List.length_cons, List.length_append]
  omega

/-- The compact form of a value is read as the tree of the value wherever it stands. -/
def Reads (v : Json) : Prop :=
  ∀ fuel rest, Delimited rest → 4 * (chars v).length < fuel →
    readValue fuel (chars v ++ rest) = (v.toTree, some rest)

section Lists

variable {α : Type} (f : α → List Char)

/-- The characters of further parts, each behind a comma. -/
def further (xs : List α) : List Char := xs.flatMap fun x => ',' :: f x

theorem further_cons (x : α) (xs : List α) : further f (x :: xs) = ',' :: (f x ++ further f xs) :=
  List.flatMap_cons

theorem intercalate_cons (x : α) (xs : List α) :
    [','].intercalate ((x :: xs).map f) = f x ++ further f xs := by
  induction xs generalizing x with
  | nil => simp [further]
  | cons y ys ih =>
    rw [List.map_cons, List.map_cons, List.intercalate_cons_cons, ← List.map_cons, ih, further_cons,
      List.append_assoc]
    rfl

theorem delimited_further {rest : List Char} (h : Delimited rest) (xs : List α) :
    Delimited (further f xs ++ rest) := by
  cases xs with
  | nil => exact h
  | cons x xs => exact delimited_comma _

end Lists

theorem chars_arr (items : List Json) :
    chars (.arr items) = '[' :: [','].intercalate (items.map chars) ++ [']'] := by
  simp only [chars, Json.compact, Json.compactItems_eq_map, String.toList_append,
    String.toList_intercalate, List.map_map]
  rfl

theorem chars_obj (fields : List (String × Json)) :
    chars (.obj fields) =
      '\x7b' :: [','].intercalate (fields.map fieldChars) ++ ['\x7d'] := by
  have hfield : (String.toList ∘ fun e : String × Json => Json.escaped e.1 ++ ":" ++ e.2.compact) =
      fieldChars := by
    funext e
    simp [toList_escaped, fieldChars, fieldBody, chars]
  simp only [chars, Json.compact, Json.compactFields_eq_map, String.toList_append,
    String.toList_intercalate, List.map_map]
  rw [hfield]
  rfl

/-- A value that can be followed does not start with a closing bracket. -/
theorem exists_start {fuel : Nat} {cs rest : List Char} {t : Tree}
    (h : readValue fuel cs = (t, some rest)) :
    ∃ c more, skipBlanks cs = c :: more ∧ c ≠ ']' := by
  cases fuel with
  | zero => cases h
  | succ fuel =>
    cases hcs : skipBlanks cs with
    | nil =>
      unfold readValue at h
      rw [hcs] at h
      cases h
    | cons c more =>
      refine ⟨c, more, rfl, ?_⟩
      rintro rfl
      unfold readValue at h
      rw [hcs] at h
      cases h

section Arrays

variable {fuel fuel' : Nat} {cs rest tail : List Char} {t : Tree} {ts : List Tree} {ending : Ending}
  {after : Remainder}

theorem readItem_eq (hvalue : readValue fuel cs = (t, some tail))
    (hnext : readNextItem fuel tail = (ts, ending, after)) :
    readItem (fuel + 1) cs = (t :: ts, ending, after) := by
  unfold readItem
  rw [hvalue]
  dsimp only
  rw [hnext]

theorem readItem_skipBlanks (fuel : Nat) (cs : List Char) :
    readItem fuel (skipBlanks cs) = readItem fuel cs := by
  cases fuel with
  | zero => rfl
  | succ fuel =>
    unfold readItem
    rw [readValue_skipBlanks]

/-- The first item of an array in which a value follows the bracket. -/
theorem readFirstItem_eq (h : readValue fuel' cs = (t, some rest)) :
    readFirstItem (fuel + 1) cs = readItem fuel cs := by
  obtain ⟨c, more, hcs, hc⟩ := exists_start h
  unfold readFirstItem
  rw [← readItem_skipBlanks, hcs]
  simp [hc]

/-- The item behind a comma that a value follows. -/
theorem readNextItem_eq (h : readValue fuel' cs = (t, some rest)) :
    readNextItem (fuel + 1) (',' :: cs) = readItem fuel cs := by
  obtain ⟨c, more, hcs, hc⟩ := exists_start h
  have hcomma : skipBlanks (',' :: cs) = ',' :: cs := rfl
  unfold readNextItem
  rw [← readItem_skipBlanks, hcomma]
  simp [hcs, hc]

/-- An array is what is read behind its opening bracket. -/
theorem readValue_bracket (h : readFirstItem fuel cs = (ts, ending, after)) :
    readValue (fuel + 1) ('[' :: cs) = (.arr ts ending, after) := by
  have hbracket : skipBlanks ('[' :: cs) = '[' :: cs := rfl
  unfold readValue
  rw [hbracket]
  simp [h]

/-- The items behind the first one are read up to the closing bracket. -/
theorem readNextItem_further {items : List Json} (hitems : ∀ v ∈ items, Reads v) (rest : List Char)
    (hfuel : 4 * (further chars items).length < fuel) :
    readNextItem fuel (further chars items ++ ']' :: rest) =
      (toTrees items, .closed, some rest) := by
  induction items generalizing fuel with
  | nil =>
    obtain ⟨fuel, rfl⟩ := Nat.exists_eq_add_one.mpr hfuel
    rfl
  | cons v items ih =>
    obtain ⟨hv, hitems⟩ := List.forall_mem_cons.mp hitems
    rw [further_cons] at hfuel ⊢
    rw [List.length_cons, List.length_append] at hfuel
    obtain ⟨fuel, rfl⟩ : ∃ k, fuel = k + 2 := ⟨fuel - 2, by omega⟩
    have hvalue := hv fuel _ (delimited_further chars (delimited_bracket rest) items) (by omega)
    rw [List.cons_append, List.append_assoc, readNextItem_eq hvalue,
      readItem_eq hvalue (ih hitems (by omega))]
    rfl

theorem reads_arr {items : List Json} (hitems : ∀ v ∈ items, Reads v) : Reads (.arr items) := by
  intro fuel rest _ hfuel
  rw [chars_arr] at hfuel ⊢
  cases items with
  | nil =>
    obtain ⟨fuel, rfl⟩ : ∃ k, fuel = k + 2 := ⟨fuel - 2, by simp at hfuel; omega⟩
    rfl
  | cons v items =>
    obtain ⟨hv, hitems⟩ := List.forall_mem_cons.mp hitems
    rw [intercalate_cons] at hfuel ⊢
    simp only [List.length_append, List.length_cons, List.length_nil] at hfuel
    obtain ⟨fuel, rfl⟩ : ∃ k, fuel = k + 3 := ⟨fuel - 3, by omega⟩
    have hvalue := hv fuel _ (delimited_further chars (delimited_bracket rest) items) (by omega)
    have hread : readFirstItem (fuel + 2) (chars v ++ (further chars items ++ ']' :: rest)) =
        (toTrees (v :: items), .closed, some rest) := by
      rw [readFirstItem_eq hvalue,
        readItem_eq hvalue (readNextItem_further hitems rest (by omega))]
      rfl
    simpa [toTree] using readValue_bracket hread

end Arrays

section Objects

variable {fuel : Nat} {cs tail : List Char} {e : String × Json}
  {ts : List (Option String × Tree)} {ending : Ending} {after : Remainder}

theorem readField_eq (hvalue : readValue fuel (chars e.2 ++ tail) = (e.2.toTree, some tail))
    (hnext : readNextField fuel tail = (ts, ending, after)) :
    readField (fuel + 1) (fieldBody e ++ tail) =
      ((some e.1, e.2.toTree) :: ts, ending, after) := by
  have hcolon : skipBlanks (':' :: (chars e.2 ++ tail)) = ':' :: (chars e.2 ++ tail) := rfl
  have hfield : fieldBody e ++ tail =
      e.1.toList.flatMap escapedChar ++ '"' :: ':' :: (chars e.2 ++ tail) := by
    simp [fieldBody]
  unfold readField
  rw [hfield, readString_escaped]
  dsimp only
  rw [hcolon]
  simp [hvalue, hnext, PartialString.text?, String.ofList_toList]

/-- An object is what is read behind the opening quote of its first field. -/
theorem readValue_brace (h : readField fuel cs = (ts, ending, after)) :
    readValue (fuel + 2) ('\x7b' :: '"' :: cs) = (.obj ts ending, after) := by
  have hbrace : skipBlanks ('\x7b' :: '"' :: cs) = '\x7b' :: '"' :: cs := rfl
  have hquote : readFirstField (fuel + 1) ('"' :: cs) = readField fuel cs := rfl
  unfold readValue
  rw [hbrace]
  simp [hquote, h]

/-- The fields behind the first one are read up to the closing brace. -/
theorem readNextField_further {fields : List (String × Json)}
    (hfields : ∀ e ∈ fields, Reads e.2) (rest : List Char)
    (hfuel : 4 * (further fieldChars fields).length < fuel) :
    readNextField fuel (further fieldChars fields ++ '\x7d' :: rest) =
      (toFieldTrees fields, .closed, some rest) := by
  induction fields generalizing fuel with
  | nil =>
    obtain ⟨fuel, rfl⟩ := Nat.exists_eq_add_one.mpr hfuel
    rfl
  | cons e fields ih =>
    obtain ⟨he, hfields⟩ := List.forall_mem_cons.mp hfields
    have hlength := length_chars_lt e
    rw [further_cons] at hfuel ⊢
    rw [List.length_cons, List.length_append] at hfuel
    obtain ⟨fuel, rfl⟩ : ∃ k, fuel = k + 2 := ⟨fuel - 2, by omega⟩
    have hvalue :=
      he fuel _ (delimited_further fieldChars (delimited_brace rest) fields) (by omega)
    rw [List.cons_append, List.append_assoc]
    change readField (fuel + 1) (fieldBody e ++ _) = _
    rw [readField_eq hvalue (ih hfields (by omega))]
    rfl

theorem reads_obj {fields : List (String × Json)} (hfields : ∀ e ∈ fields, Reads e.2) :
    Reads (.obj fields) := by
  intro fuel rest _ hfuel
  rw [chars_obj] at hfuel ⊢
  cases fields with
  | nil =>
    obtain ⟨fuel, rfl⟩ : ∃ k, fuel = k + 2 := ⟨fuel - 2, by simp at hfuel; omega⟩
    rfl
  | cons e fields =>
    obtain ⟨he, hfields⟩ := List.forall_mem_cons.mp hfields
    have hlength := length_chars_lt e
    rw [intercalate_cons] at hfuel ⊢
    simp only [List.length_append, List.length_cons, List.length_nil] at hfuel
    obtain ⟨fuel, rfl⟩ : ∃ k, fuel = k + 3 := ⟨fuel - 3, by omega⟩
    have hvalue :=
      he fuel _ (delimited_further fieldChars (delimited_brace rest) fields) (by omega)
    have hread := readField_eq hvalue (readNextField_further hfields rest (by omega))
    simpa [toTree, toFieldTrees, fieldChars] using readValue_brace hread

end Objects

/-- Every value is read wherever it stands, provided that its numbers are. -/
theorem reads_of_numbers {v : Json} (h : v.Numbers Number.ReadsBack) : Reads v := by
  induction h with
  | null =>
    intro fuel rest _ hfuel
    obtain ⟨fuel, rfl⟩ := Nat.exists_eq_add_one.mpr (Nat.zero_lt_of_lt hfuel)
    rfl
  | bool b =>
    intro fuel rest _ hfuel
    obtain ⟨fuel, rfl⟩ := Nat.exists_eq_add_one.mpr (Nat.zero_lt_of_lt hfuel)
    cases b <;> rfl
  | num hn =>
    intro fuel rest hrest hfuel
    obtain ⟨fuel, rfl⟩ := Nat.exists_eq_add_one.mpr (Nat.zero_lt_of_lt hfuel)
    exact hn.followed fuel hrest
  | str s =>
    intro fuel rest _ hfuel
    obtain ⟨fuel, rfl⟩ := Nat.exists_eq_add_one.mpr (Nat.zero_lt_of_lt hfuel)
    have hchars :
        chars (.str s) ++ rest = '"' :: (s.toList.flatMap escapedChar ++ '"' :: rest) := by
      simp [chars, Json.compact, toList_escaped]
    rw [hchars]
    exact readStringValue_escaped s rest
  | arr _ ih => exact reads_arr ih
  | obj _ ih => exact reads_obj ih

end JsonText

/-- The compact form of a value holds this value and nothing else. -/
theorem JsonDocument.ofText_compact {v : Json} (h : v.Numbers Number.ReadsBack) :
    JsonDocument.ofText v.compact = ⟨v.toTree, false⟩ := by
  have hread : readTree v.compact = (v.toTree, some []) := by
    have hreads := JsonText.reads_of_numbers h (4 * v.compact.toList.length + 4) []
      JsonText.delimited_nil (by unfold JsonText.chars; omega)
    simpa [readTree, JsonText.chars] using hreads
  unfold JsonDocument.ofText
  rw [hread]
  rfl

end Workgraph
