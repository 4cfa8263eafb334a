import Mathlib.Data.List.DropRight
import Mathlib.Tactic.IntervalCases
import Workgraph.Json.Printer
import Workgraph.Json.Reader
/-!
# Numerals read back

A numeral ends in front of a comma or a closing bracket, so it is read there as it is read alone.
The numerals of integers that fit 64 bits are read as these integers.

## Main definitions

- `JsonText.Delimited`: a text in front of which a numeral ends
- `Number.ReadsBack`: the numeral of a number is read as this number
- `Number.Integral`: a number is an integer that fits 64 bits

## Main statements

- `Number.ReadsBack.followed`: a numeral is read in front of other text as it is read alone
- `Number.Integral.readsBack`: numerals of integers are read as these integers
-/

namespace Workgraph

open Text (digitValue? isDigit numeral)

namespace JsonText

/-- A text in front of which a value ends: there is none, or it starts with a comma or a closing
bracket. -/
def Delimited (rest : List Char) : Prop := ∀ c ∈ rest.head?, c = ',' ∨ c = ']' ∨ c = '\x7d'

theorem delimited_nil : Delimited [] := by simp [Delimited]

theorem delimited_comma (rest : List Char) : Delimited (',' :: rest) := by simp [Delimited]

theorem delimited_bracket (rest : List Char) : Delimited (']' :: rest) := by simp [Delimited]

theorem delimited_brace (rest : List Char) : Delimited ('\x7d' :: rest) := by simp [Delimited]

section Append

variable {rest : List Char}

theorem Delimited.cases (h : Delimited rest) :
    rest = [] ∨ ∃ c more, rest = c :: more ∧ (c = ',' ∨ c = ']' ∨ c = '\x7d') := by
  cases rest with
  | nil => exact .inl rfl
  | cons c more => exact .inr ⟨c, more, rfl, h c rfl⟩

theorem takeDigits_append (h : Delimited rest) (cs : List Char) :
    takeDigits (cs ++ rest) = ((takeDigits cs).1, (takeDigits cs).2 ++ rest) := by
  unfold takeDigits
  induction cs with
  | nil =>
    obtain rfl | ⟨c, more, rfl, rfl | rfl | rfl⟩ := h.cases <;> rfl
  | cons c cs ih =>
    by_cases hc : isDigit c
    · simp only [List.cons_append, List.takeWhile_cons_of_pos hc, List.dropWhile_cons_of_pos hc,
        List.filterMap_cons, Prod.mk.injEq] at ih ⊢
      rw [ih.1, ih.2]
      exact ⟨rfl, rfl⟩
    · rw [List.cons_append, List.takeWhile_cons_of_neg hc, List.takeWhile_cons_of_neg hc,
        List.dropWhile_cons_of_neg hc, List.dropWhile_cons_of_neg hc]
      rfl

theorem takeSign_append (h : Delimited rest) (cs : List Char) :
    takeSign (cs ++ rest) = ((takeSign cs).1, (takeSign cs).2 ++ rest) := by
  cases cs with
  | nil => obtain rfl | ⟨c, more, rfl, rfl | rfl | rfl⟩ := h.cases <;> rfl
  | cons c cs =>
    by_cases hminus : c = '-'
    · subst hminus
      rfl
    · by_cases hplus : c = '+'
      · subst hplus
        rfl
      · simp [takeSign, hminus, hplus]

variable {x : Numeral} {n : Number} {cs left : List Char}

theorem finishNumeral_append (h : finishNumeral x cs = (.num n, some left)) (rest : List Char) :
    finishNumeral x (cs ++ rest) = (.num n, some (left ++ rest)) := by
  unfold finishNumeral at h ⊢
  split at h
  · cases h
    rfl
  · cases h

theorem readExponent_append (hrest : Delimited rest)
    (h : readExponent x cs = (.num n, some left)) :
    readExponent x (cs ++ rest) = (.num n, some (left ++ rest)) := by
  cases cs with
  | nil =>
    have happend := finishNumeral_append h rest
    obtain rfl | ⟨c, more, rfl, rfl | rfl | rfl⟩ := hrest.cases <;> exact happend
  | cons c cs =>
    unfold readExponent at h ⊢
    rw [List.cons_append]
    dsimp only at h ⊢
    split at h
    · rename_i hc
      rw [if_pos hc, takeSign_append hrest, takeDigits_append hrest]
      dsimp only at h ⊢
      split at h
      · cases h
      · rename_i hdigits
        rw [if_neg hdigits]
        exact finishNumeral_append h rest
    · rename_i hc
      rw [if_neg hc]
      exact finishNumeral_append h rest

theorem readFraction_of_ne {c : Char} (hc : c ≠ '.') (x : Numeral) (cs : List Char) :
    readFraction x (c :: cs) = readExponent x (c :: cs) := by
  unfold readFraction
  split
  · rename_i heq
    exact absurd (List.cons.inj heq).1 hc
  · rfl

theorem readFraction_append (hrest : Delimited rest)
    (h : readFraction x cs = (.num n, some left)) :
    readFraction x (cs ++ rest) = (.num n, some (left ++ rest)) := by
  cases cs with
  | nil =>
    have hnil : readExponent x [] = (.num n, some left) := h
    have happend := readExponent_append hrest hnil
    obtain rfl | ⟨c, more, rfl, rfl | rfl | rfl⟩ := hrest.cases <;> exact happend
  | cons c cs =>
    by_cases hpoint : c = '.'
    · subst hpoint
      simp only [readFraction, List.cons_append, takeDigits_append hrest] at h ⊢
      split at h
      · cases h
      · rename_i hdigits
        rw [if_neg hdigits]
        exact readExponent_append hrest h
    · rw [readFraction_of_ne hpoint] at h
      rw [List.cons_append, readFraction_of_ne hpoint]
      exact readExponent_append hrest h

/-- A numeral ends in front of a delimiter as it ends at the end of the text. -/
theorem readNumeral_append {negative : Bool} (hrest : Delimited rest)
    (h : readNumeral negative cs = (.num n, some left)) :
    readNumeral negative (cs ++ rest) = (.num n, some (left ++ rest)) := by
  unfold readNumeral at h ⊢
  rw [takeDigits_append hrest]
  dsimp only at h ⊢
  split at h
  · cases h
  · cases h
  · exact readFraction_append hrest h

end Append

theorem skipBlanks_append {cs : List Char} (h : skipBlanks cs ≠ []) (rest : List Char) :
    skipBlanks (cs ++ rest) = skipBlanks cs ++ rest := by
  unfold skipBlanks at h ⊢
  rw [List.dropWhile_append, if_neg (by simpa using h)]

theorem skipBlanks_skipBlanks (cs : List Char) : skipBlanks (skipBlanks cs) = skipBlanks cs :=
  List.dropWhile_idempotent _ cs

/-- Blanks in front of a value do not matter. -/
theorem readValue_skipBlanks (fuel : Nat) (cs : List Char) :
    readValue fuel (skipBlanks cs) = readValue fuel cs := by
  cases fuel with
  | zero => rfl
  | succ fuel =>
    unfold readValue
    rw [skipBlanks_skipBlanks]

theorem readValue_digit {c : Char} (hc : isDigit c) (fuel : Nat) (rest : List Char) :
    readValue (fuel + 1) (c :: rest) = readNumeral false (c :: rest) := by
  have hne : ∀ d : Char, isDigit d = false → c ≠ d := by
    rintro d hd rfl
    exact absurd hc (by simp [hd])
  have hblanks : skipBlanks (c :: rest) = c :: rest := by
    simp [skipBlanks, hne ' ' rfl, hne '\n' rfl, hne '\t' rfl, hne '\r' rfl]
  unfold readValue
  rw [hblanks]
  simp [hc, hne '"' rfl, hne '[' rfl, hne '\x7b' rfl, hne 'n' rfl, hne 't' rfl, hne 'f' rfl,
    hne '-' rfl]

theorem readStringValue_ne_num (n : Number) (cs : List Char) (after : Remainder) :
    readStringValue cs ≠ (.num n, after) := by
  intro h
  unfold readStringValue at h
  split at h
  · split at h <;> cases h
  · cases h

theorem readName_ne_num {value : Tree} {n : Number} (hvalue : value ≠ .num n)
    (letters cs : List Char) (after : Remainder) : readName value letters cs ≠ (.num n, after) := by
  intro h
  induction letters generalizing cs with
  | nil => exact hvalue (Prod.mk.inj h).1
  | cons e letters ih =>
    cases cs with
    | nil => cases h
    | cons c cs =>
      unfold readName at h
      split at h
      · exact ih cs h
      · cases h

/-- A value that is a number is read as a numeral. -/
theorem eq_num_of_readValue {n : Number} {fuel : Nat} {cs left : List Char}
    (h : readValue (fuel + 1) cs = (.num n, some left)) :
    ∃ c rest, skipBlanks cs = c :: rest ∧
      (c = '-' ∧ readNumeral true rest = (.num n, some left) ∨
        isDigit c ∧ readNumeral false (c :: rest) = (.num n, some left)) := by
  unfold readValue at h
  split at h
  · cases h
  · exact absurd h (readStringValue_ne_num n _ _)
  · cases h
  · cases h
  · exact absurd h (readName_ne_num (by simp) _ _ _)
  · exact absurd h (readName_ne_num (by simp) _ _ _)
  · exact absurd h (readName_ne_num (by simp) _ _ _)
  · rename_i rest heq
    exact ⟨_, _, heq, .inl ⟨rfl, h⟩⟩
  · rename_i c rest _ _ _ _ _ _ _ heq
    split at h
    · rename_i hc
      exact ⟨_, _, heq, .inr ⟨hc, h⟩⟩
    · cases h

/-- The values of the decimal digits of a number. -/
def decimalDigits (n : Nat) : List Nat := (numeral n).filterMap digitValue?

theorem digitValue?_digitChar {d : Nat} (h : d < 10) : digitValue? (Nat.digitChar d) = some d := by
  interval_cases d <;> rfl

theorem decimalDigits_of_lt {n : Nat} (h : n < 10) : decimalDigits n = [n] := by
  simp [decimalDigits, numeral, Nat.repr_eq_ofList_toDigits, Nat.toDigits_of_lt_base h,
    digitValue?_digitChar h]

theorem decimalDigits_of_le {n : Nat} (h : 10 ≤ n) :
    decimalDigits n = decimalDigits (n / 10) ++ [n % 10] := by
  have hmod : n % 10 < 10 := Nat.mod_lt n (by decide)
  simp only [decimalDigits, numeral, Nat.repr_eq_ofList_toDigits, String.toList_ofList]
  rw [Nat.toDigits_eq_if (by decide), if_neg (by omega), List.filterMap_append]
  simp [digitValue?_digitChar hmod]

/-- Only the numeral of zero starts with a zero. -/
theorem decimalDigits_head (n : Nat) :
    decimalDigits n = [n] ∨ ∃ d rest, decimalDigits n = (d + 1) :: rest := by
  induction n using Nat.strong_induction_on with
  | _ n ih =>
    by_cases h : n < 10
    · exact .inl (decimalDigits_of_lt h)
    · have hle : 10 ≤ n := by omega
      rw [decimalDigits_of_le hle]
      obtain hdigits | ⟨d, rest, hdigits⟩ := ih (n / 10) (by omega)
      · obtain ⟨d, hd⟩ : ∃ d, n / 10 = d + 1 := ⟨n / 10 - 1, by omega⟩
        exact .inr ⟨d, [n % 10], by rw [hdigits, hd]; rfl⟩
      · exact .inr ⟨d, rest ++ [n % 10], by rw [hdigits]; rfl⟩

theorem isDigit_of_mem_numeral {n : Nat} {c : Char} (hc : c ∈ numeral n) : isDigit c := by
  have hdigit : c.isDigit := by
    rw [numeral, Nat.repr_eq_ofList_toDigits, String.toList_ofList] at hc
    exact Nat.isDigit_of_mem_toDigits (by decide) (by decide) hc
  simpa [isDigit, Char.isDigit, Char.le_def] using hdigit

theorem exists_numeral_eq_cons (n : Nat) : ∃ c rest, numeral n = c :: rest ∧ isDigit c := by
  cases hn : numeral n with
  | nil =>
    have hdigits : decimalDigits n = [] := by rw [decimalDigits, hn, List.filterMap_nil]
    obtain h | ⟨d, rest, h⟩ := decimalDigits_head n <;> rw [hdigits] at h <;> cases h
  | cons c rest =>
    have hc : c ∈ numeral n := by rw [hn]; exact List.mem_cons_self
    exact ⟨c, rest, rfl, isDigit_of_mem_numeral hc⟩

theorem takeDigits_numeral (n : Nat) : takeDigits (numeral n) = (decimalDigits n, []) := by
  have hdigits : ∀ c ∈ numeral n, isDigit c := fun c hc => isDigit_of_mem_numeral hc
  unfold takeDigits decimalDigits
  rw [List.takeWhile_eq_self_iff.mpr hdigits, List.dropWhile_eq_nil_iff.mpr hdigits]

theorem appendDigits_concat {n m d : Nat} {digits : List Nat}
    (h : appendDigits n digits = (m, [])) (hfits : m * 10 + d ≤ maxUnsigned64) :
    appendDigits n (digits ++ [d]) = (m * 10 + d, []) := by
  induction digits generalizing n with
  | nil =>
    obtain ⟨rfl, -⟩ := Prod.mk.inj h
    simp [appendDigits, hfits]
  | cons e digits ih =>
    unfold appendDigits at h
    split at h
    · rename_i he
      rw [List.cons_append, appendDigits, if_pos he, ih h]
    · cases h

/-- The digits of a number that fits 64 bits make up this number. -/
theorem appendDigits_decimalDigits {n : Nat} (h : n ≤ maxUnsigned64) :
    appendDigits 0 (decimalDigits n) = (n, []) := by
  induction n using Nat.strong_induction_on with
  | _ n ih =>
    by_cases hlt : n < 10
    · rw [decimalDigits_of_lt hlt, appendDigits, if_pos (by omega), Nat.zero_mul, Nat.zero_add]
      rfl
    · have hn : n / 10 * 10 + n % 10 = n := by omega
      rw [decimalDigits_of_le (by omega),
        appendDigits_concat (ih (n / 10) (by omega) (by omega)) (by omega), hn]

/-- The numeral of a number that fits 64 bits, behind its sign. -/
theorem readNumeral_numeral (negative : Bool) (n : Nat) :
    readNumeral negative (numeral n) =
      finishNumeral ⟨negative, decimalDigits n, none, none⟩ [] := by
  unfold readNumeral
  rw [takeDigits_numeral]
  obtain hdigits | ⟨d, rest, hdigits⟩ := decimalDigits_head n
  · rw [hdigits]
    cases n <;> rfl
  · rw [hdigits]
    rfl

theorem value?_natural {n : Nat} (h : n ≤ maxUnsigned64) :
    (⟨false, decimalDigits n, none, none⟩ : Numeral).value? = some (.int n) := by
  simp [Numeral.value?, appendDigits_decimalDigits h]

theorem value?_negative {n : Nat} (hpos : 0 < n) (h : n ≤ maxSigned64 + 1) :
    (⟨true, decimalDigits n, none, none⟩ : Numeral).value? = some (.int (-(n : Int))) := by
  have hfits : n ≤ maxUnsigned64 := le_trans h (by decide)
  have hn : n ≠ 0 := by omega
  simp [Numeral.value?, appendDigits_decimalDigits hfits, hn, h]

end JsonText

namespace Number

open JsonText

/-- The numeral of a number is read as this number. -/
def ReadsBack (n : Number) : Prop := readTree n.text = (.num n, some [])

/-- A number is an integer that fits 64 bits, with or without a sign. -/
def Integral : Number → Prop
  | .int i => -(maxSigned64 : Int) - 1 ≤ i ∧ i ≤ maxUnsigned64
  | .float _ => False

instance : DecidablePred Integral := fun n =>
  match n with
  | .int _ => inferInstanceAs (Decidable (_ ∧ _))
  | .float _ => inferInstanceAs (Decidable False)

theorem integral_nat {n : Nat} (h : n ≤ maxUnsigned64) : Integral (.int n) :=
  ⟨by omega, by exact_mod_cast h⟩

/-- A numeral is read in front of other text as it is read alone. -/
theorem ReadsBack.followed {n : Number} (h : n.ReadsBack) (fuel : Nat) {rest : List Char}
    (hrest : Delimited rest) :
    readValue (fuel + 1) (n.text.toList ++ rest) = (.num n, some rest) := by
  have halone : readValue (4 * n.text.toList.length + 3 + 1) n.text.toList = (.num n, some []) := h
  obtain ⟨c, more, hblanks, hread⟩ := eq_num_of_readValue halone
  have happend : skipBlanks (n.text.toList ++ rest) = c :: (more ++ rest) := by
    rw [skipBlanks_append (by simp [hblanks]), hblanks]
    rfl
  rw [← readValue_skipBlanks, happend]
  obtain ⟨rfl, hread⟩ | ⟨hc, hread⟩ := hread
  · exact readNumeral_append hrest hread
  · rw [readValue_digit hc]
    exact readNumeral_append hrest hread

/-- The numerals of integers are read as these integers. -/
theorem Integral.readsBack {n : Number} (h : n.Integral) : n.ReadsBack := by
  cases n with
  | float x => exact h.elim
  | int i =>
    obtain ⟨hleast, hgreatest⟩ := h
    unfold ReadsBack readTree
    by_cases hi : i < 0
    · have htext : (int i).text.toList = '-' :: numeral i.natAbs := by simp [text, hi, numeral]
      have hvalue : -(i.natAbs : Int) = i := by omega
      rw [htext]
      change readNumeral true (numeral i.natAbs) = _
      rw [readNumeral_numeral, finishNumeral, value?_negative (by omega) (by omega), hvalue]
    · have htext : (int i).text.toList = numeral i.natAbs := by simp [text, hi, numeral]
      have hvalue : (i.natAbs : Int) = i := by omega
      obtain ⟨c, rest, hcons, hc⟩ := exists_numeral_eq_cons i.natAbs
      dsimp only
      rw [htext, hcons, readValue_digit hc, ← hcons, readNumeral_numeral, finishNumeral,
        value?_natural (by omega), hvalue]

end Number

end Workgraph
