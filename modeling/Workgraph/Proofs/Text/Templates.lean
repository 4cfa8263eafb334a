import Mathlib.Data.List.Infix
import Workgraph.Template
/-!
# What filling in a template reads

A template can be cut into pieces before any value is looked at: the first opening braces belong to
the first closing braces behind them, and what comes after these is cut in the same way. There is
one way of doing so for each template. Filling in goes through the template once, and what it leaves
is what one gets from the pieces: it puts texts in the places of the selectors and looks at nothing
that it has put there, so braces in a value, or on both sides of one, mean nothing.

## Main definitions

- `Text.FirstIn`: the first occurrence of a sequence in another one
- `TemplatePiece`: a part of a template
- `Segmented`: how a template is cut into pieces

## Main statements

- `Text.splitAtFirst?_eq_some_iff`, `Text.splitAtFirst?_eq_none_iff`: what searching finds
- `exists_segmented`, `Segmented.unique`: a template is cut in exactly one way
- `renderRest_eq`: going through a template once fills in its pieces
- `template_filled_in`: a template is filled in piece by piece
-/

namespace Workgraph

namespace Text

variable {needle cs before after : List Char}

/-- The first occurrence of a sequence in another one, between what stands before and after it. -/
structure FirstIn (needle cs before after : List Char) : Prop where
  eq : cs = before ++ needle ++ after
  first : ∀ b a, cs = b ++ needle ++ a → before.length ≤ b.length

namespace FirstIn

theorem isInfix (h : FirstIn needle cs before after) : needle <:+: cs :=
  ⟨before, after, h.eq.symm⟩

theorem unique {before' after' : List Char} (h : FirstIn needle cs before after)
    (h' : FirstIn needle cs before' after') : before = before' ∧ after = after' := by
  have hlength : before.length = before'.length :=
    Nat.le_antisymm (h.first _ _ h'.eq) (h'.first _ _ h.eq)
  have heq : before ++ (needle ++ after) = before' ++ (needle ++ after') := by
    rw [← List.append_assoc, ← List.append_assoc, ← h.eq, ← h'.eq]
  obtain ⟨hbefore, hrest⟩ := List.append_inj heq hlength
  exact ⟨hbefore, List.append_cancel_left hrest⟩

/-- A sequence that does not start with another one has its first occurrence where the rest of the
sequence has it. -/
theorem cons {c : Char} (hstart : ¬needle <+: c :: cs) (h : FirstIn needle cs before after) :
    FirstIn needle (c :: cs) (c :: before) after where
  eq := by rw [h.eq, List.cons_append, List.cons_append]
  first := by
    intro b a heq
    cases b with
    | nil => exact absurd ⟨a, heq.symm⟩ hstart
    | cons d b =>
      have hrest := h.first b a (List.cons.inj heq).2
      exact Nat.succ_le_succ hrest

end FirstIn

theorem firstIn_of_splitAtFirst? (h : splitAtFirst? needle cs = some (before, after)) :
    FirstIn needle cs before after := by
  induction cs generalizing before after with
  | nil =>
    obtain rfl : needle = [] := by
      cases needle with
      | nil => rfl
      | cons c rest => cases h
    cases h
    exact ⟨rfl, fun _ _ _ => Nat.zero_le _⟩
  | cons c rest ih =>
    rw [splitAtFirst?] at h
    by_cases hstart : needle.isPrefixOf (c :: rest) = true
    · rw [if_pos hstart] at h
      cases h
      refine ⟨?_, fun _ _ _ => Nat.zero_le _⟩
      exact (List.prefix_append_drop (List.isPrefixOf_iff_prefix.mp hstart)).trans (by simp)
    · rw [if_neg hstart] at h
      obtain ⟨⟨b, a⟩, hrest, hcons⟩ := Option.map_eq_some_iff.mp h
      cases hcons
      exact (ih hrest).cons fun hprefix => hstart (List.isPrefixOf_iff_prefix.mpr hprefix)

theorem splitAtFirst?_eq_none_iff : splitAtFirst? needle cs = none ↔ ¬needle <:+: cs := by
  induction cs with
  | nil =>
    cases needle with
    | nil => simp [splitAtFirst?]
    | cons c rest => simp [splitAtFirst?]
  | cons c rest ih =>
    rw [splitAtFirst?, List.infix_cons_iff, ← List.isPrefixOf_iff_prefix]
    by_cases hstart : needle.isPrefixOf (c :: rest) = true
    · simp [hstart]
    · rw [if_neg hstart, Option.map_eq_none_iff, ih]
      simp [hstart]

/-- Searching finds the first occurrence. -/
theorem splitAtFirst?_eq_some_iff :
    splitAtFirst? needle cs = some (before, after) ↔ FirstIn needle cs before after := by
  refine ⟨firstIn_of_splitAtFirst?, fun h => ?_⟩
  cases hfound : splitAtFirst? needle cs with
  | none => exact absurd h.isInfix (splitAtFirst?_eq_none_iff.mp hfound)
  | some found =>
    obtain ⟨rfl, rfl⟩ := (firstIn_of_splitAtFirst? hfound).unique h
    rfl

end Text

open Text

/-- A part of a template: a text that stands for itself, or a placeholder. -/
inductive TemplatePiece where
  | literal (cs : List Char)
  | placeholder (selector : String)

/-- How a template is cut into pieces. The first opening belongs to the first closing behind it,
with a selector between them that does not count the blanks at its ends; an opening without a
closing stands for itself, with everything behind it. -/
inductive Segmented : List Char → List TemplatePiece → Prop where
  | plain {cs : List Char} (hopen : ¬openingBraces <:+: cs) : Segmented cs [.literal cs]
  | unclosed {cs before inside : List Char} (hopen : FirstIn openingBraces cs before inside)
      (hclose : ¬closingBraces <:+: inside) :
      Segmented cs [.literal before, .literal (openingBraces ++ inside)]
  | placeholder {cs before inside selector rest : List Char} {pieces : List TemplatePiece}
      (hopen : FirstIn openingBraces cs before inside)
      (hclose : FirstIn closingBraces inside selector rest) (hrest : Segmented rest pieces) :
      Segmented cs
        (.literal before :: .placeholder (String.ofList (trimChars selector)) :: pieces)

namespace Segmented

variable {cs : List Char} {pieces : List TemplatePiece}

/-- A template is cut in one way only. -/
theorem unique {pieces' : List TemplatePiece} (h : Segmented cs pieces)
    (h' : Segmented cs pieces') : pieces = pieces' := by
  induction h generalizing pieces' with
  | plain hnone =>
    cases h' with
    | plain => rfl
    | unclosed hopen => exact absurd hopen.isInfix hnone
    | placeholder hopen => exact absurd hopen.isInfix hnone
  | unclosed hopen hnone =>
    cases h' with
    | plain hnone' => exact absurd hopen.isInfix hnone'
    | unclosed hopen' =>
      obtain ⟨rfl, rfl⟩ := hopen.unique hopen'
      rfl
    | placeholder hopen' hclose =>
      obtain ⟨rfl, rfl⟩ := hopen.unique hopen'
      exact absurd hclose.isInfix hnone
  | placeholder hopen hclose _ ih =>
    cases h' with
    | plain hnone => exact absurd hopen.isInfix hnone
    | unclosed hopen' hnone =>
      obtain ⟨rfl, rfl⟩ := hopen.unique hopen'
      exact absurd hclose.isInfix hnone
    | placeholder hopen' hclose' hrest =>
      obtain ⟨rfl, rfl⟩ := hopen.unique hopen'
      obtain ⟨rfl, rfl⟩ := hclose.unique hclose'
      rw [ih hrest]

end Segmented

/-- Every template can be cut. -/
theorem exists_segmented (cs : List Char) : ∃ pieces, Segmented cs pieces := by
  match hopen : splitAtFirst? openingBraces cs with
  | none => exact ⟨_, .plain (splitAtFirst?_eq_none_iff.mp hopen)⟩
  | some (before, inside) =>
    have hfirst := splitAtFirst?_eq_some_iff.mp hopen
    match hclose : splitAtFirst? closingBraces inside with
    | none => exact ⟨_, .unclosed hfirst (splitAtFirst?_eq_none_iff.mp hclose)⟩
    | some (selector, rest) =>
      obtain ⟨pieces, hrest⟩ := exists_segmented rest
      exact ⟨_, .placeholder hfirst (splitAtFirst?_eq_some_iff.mp hclose) hrest⟩
termination_by cs.length
decreasing_by
  have hopening := splitAtFirst?_length hopen
  have hclosing := splitAtFirst?_length hclose
  simp only [openingBraces, closingBraces, List.length_cons, List.length_nil] at hopening hclosing
  omega

theorem placeholderText_eq (scope : Json) (inside : List Char) : placeholderText scope inside =
    (scope.select? (String.ofList (trimChars inside))).elim [] (·.plainText.toList) := by
  unfold placeholderText
  cases scope.select? (String.ofList (trimChars inside)) <;> rfl

/-- Going through the rest of a template once fills in its pieces, one after the other, behind what
is there already. -/
theorem renderRest_eq {scope : Json} {out rest : List Char} {pieces : List TemplatePiece}
    (h : Segmented rest pieces) : renderRest scope out rest = out ++ pieces.flatMap fun
      | .literal cs => cs
      | .placeholder selector => (scope.select? selector).elim [] (·.plainText.toList) := by
  -- A template is cut in one way only, so its pieces are told by what the loop finds.
  fun_induction renderRest scope out rest generalizing pieces with
  | case1 out rest hopen =>
    obtain rfl := h.unique (.plain (splitAtFirst?_eq_none_iff.mp hopen))
    simp
  | case2 out rest before after hopen hclose =>
    obtain rfl := h.unique
      (.unclosed (splitAtFirst?_eq_some_iff.mp hopen) (splitAtFirst?_eq_none_iff.mp hclose))
    simp
  | case3 out rest before after hopen inside rest' hclose ih =>
    obtain ⟨pieces', hrest⟩ := exists_segmented rest'
    obtain rfl := h.unique (.placeholder (splitAtFirst?_eq_some_iff.mp hopen)
      (splitAtFirst?_eq_some_iff.mp hclose) hrest)
    rw [ih hrest, placeholderText_eq]
    simp

/-- A template is cut into pieces in exactly one way, whatever it is filled in from, and filled in
piece by piece: the literals as they are, and in the place of each selector the text of the value
that it resolves to, or nothing. -/
theorem template_filled_in (template : String) :
    ∃ pieces, Segmented template.toList pieces ∧
      (∀ pieces', Segmented template.toList pieces' → pieces' = pieces) ∧
      ∀ scope : Json, renderTemplate template scope = String.ofList (pieces.flatMap fun
        | .literal cs => cs
        | .placeholder selector => (scope.select? selector).elim [] (·.plainText.toList)) := by
  obtain ⟨pieces, hpieces⟩ := exists_segmented template.toList
  refine ⟨pieces, hpieces, fun _ h => h.unique hpieces, fun scope => ?_⟩
  rw [renderTemplate, renderRest_eq hpieces, List.nil_append]

/-- Braces of a value stay as they are, also where they complete those behind the placeholder. -/
example : renderTemplate "\x7b\x7b\x7ba\x7d\x7d\x7d" (.obj [("\x7ba", .str "\x7b\x7bb\x7d")]) =
    "\x7b\x7bb\x7d\x7d" := by cbv

end Workgraph
