import Mathlib.Tactic.IntervalCases
import Workgraph.Json.Printer
import Workgraph.Json.Reader
/-!
# Strings read back

A text written as a JSON string is read back as it was, whatever follows it.

## Main statements

- `JsonText.readString_escapedChar`: the written form of a character is read as this character
- `JsonText.readString_escaped`: a written text is read as this text
-/

namespace Workgraph

namespace JsonText

open Json (escapedChar)

/-- Four hexadecimal digits that stand for a control character. -/
theorem readUnit_control {n : Nat} (h : n < 0x20) (rest : List Char) :
    readUnit ('0' :: '0' :: Nat.digitChar (n / 16) :: Nat.digitChar (n % 16) :: rest) =
      .ok (n, rest) := by
  interval_cases n <;> rfl

/-- A control character that is written by number. -/
theorem readEscape_control {c : Char} (h : c.toNat < 0x20) (s : PartialString) (rest : List Char) :
    readEscape s ('u' :: '0' :: '0' :: Nat.digitChar (c.toNat / 16) ::
      Nat.digitChar (c.toNat % 16) :: rest) = .ok (s.push c, rest) := by
  have hlow : c.toNat < 0xD800 := by omega
  simp only [readEscape]
  rw [readUnit_control h]
  simp [bind, Except.bind, hlow, Char.ofNat_toNat]

/-- The written form of a character is read as this character. -/
theorem readString_escapedChar (s : PartialString) (c : Char) (fuel : Nat) (rest : List Char) :
    readString s (fuel + 1) (escapedChar c ++ rest) = readString (s.push c) fuel rest := by
  have hbackslash : ∀ more s' rest', readEscape s more = .ok (s', rest') →
      readString s (fuel + 1) ('\\' :: more) = readString s' fuel rest' := by
    intro more s' rest' h
    simp [readString, h]
  have hof : ∀ d : Char, c.toNat = d.toNat → c = d := fun d h => Char.toNat_inj.mp h
  unfold escapedChar
  by_cases hquote : c = '"'
  · subst hquote
    exact hbackslash _ _ _ rfl
  by_cases hslash : c = '\\'
  · subst hslash
    exact hbackslash _ _ _ rfl
  by_cases hb : c.toNat = 0x08
  · obtain rfl := hof '\x08' hb
    exact hbackslash _ _ _ rfl
  by_cases hf : c.toNat = 0x0C
  · obtain rfl := hof '\x0c' hf
    exact hbackslash _ _ _ rfl
  by_cases hn : c = '\n'
  · subst hn
    exact hbackslash _ _ _ rfl
  by_cases hr : c = '\r'
  · subst hr
    exact hbackslash _ _ _ rfl
  by_cases ht : c = '\t'
  · subst ht
    exact hbackslash _ _ _ rfl
  simp only [beq_iff_eq, hquote, hslash, hb, hf, hn, hr, ht, if_false]
  by_cases hcontrol : c.toNat < 0x20
  · rw [if_pos hcontrol]
    exact hbackslash _ _ _ (readEscape_control hcontrol s rest)
  · rw [if_neg hcontrol]
    simp [readString, hquote, hslash, hcontrol]

/-- The written form of a text is read up to the closing quote. -/
theorem readString_flatMap (s : PartialString) (cs rest : List Char) {fuel : Nat}
    (hfuel : cs.length < fuel) :
    readString s fuel (cs.flatMap escapedChar ++ '"' :: rest) =
      .closed { s with chars := cs.reverse ++ s.chars } rest := by
  induction cs generalizing s fuel with
  | nil =>
    obtain ⟨fuel, rfl⟩ := Nat.exists_eq_add_one.mpr hfuel
    rfl
  | cons c cs ih =>
    obtain ⟨fuel, rfl⟩ := Nat.exists_eq_add_one.mpr (Nat.zero_lt_of_lt hfuel)
    rw [List.flatMap_cons, List.append_assoc, readString_escapedChar,
      ih _ (by simpa using hfuel), List.reverse_cons, List.append_assoc]
    rfl

theorem length_le_flatMap_escapedChar (cs : List Char) :
    cs.length ≤ (cs.flatMap escapedChar).length := by
  induction cs with
  | nil => rfl
  | cons c cs ih =>
    have hchar : 1 ≤ (escapedChar c).length := by
      unfold escapedChar
      grind
    rw [List.flatMap_cons, List.length_append, List.length_cons]
    omega

theorem toList_escaped (text : String) :
    (Json.escaped text).toList = '"' :: text.toList.flatMap escapedChar ++ ['"'] := by
  simp [Json.escaped]

/-- A written text is read as this text, behind its opening quote. -/
theorem readString_escaped (text : String) (rest : List Char) :
    readString ⟨[], none⟩ ((text.toList.flatMap escapedChar ++ '"' :: rest).length + 1)
        (text.toList.flatMap escapedChar ++ '"' :: rest) =
      .closed ⟨text.toList.reverse, none⟩ rest := by
  have hlength := length_le_flatMap_escapedChar text.toList
  rw [readString_flatMap _ _ _ (by rw [List.length_append]; omega), List.append_nil]

theorem readStringValue_escaped (text : String) (rest : List Char) :
    readStringValue (text.toList.flatMap escapedChar ++ '"' :: rest) = (.str text, some rest) := by
  unfold readStringValue
  rw [readString_escaped]
  simp [PartialString.text?, String.ofList_toList]

end JsonText

end Workgraph
