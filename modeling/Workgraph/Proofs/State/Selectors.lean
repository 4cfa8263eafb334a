import Workgraph.Proofs.Graph.Endpoint
import Workgraph.Proofs.Json.Values
import Workgraph.State.Snapshot
/-!
# Selectors in a state

A selector is resolved in a state in two ways. Nodes cut off its first part, look that up by itself,
and resolve the rest in the value; conditions and templates resolve the whole selector in the
parameters of the state. Both come to the same, unless there is nothing behind the first part: the
rest is then empty, and an empty selector stands for the whole value.

## Main statements

- `Snapshot.step?_parameters`: the first part of a selector in the parameters
- `Snapshot.resolve?_dotted`, `Json.select?_dotted`: both ways past the first part
- `Json.step?_ne_self`: no value is a part of itself
- `selectors_agree_iff`: the selectors that resolve to the same in both ways
-/

namespace Workgraph

namespace Text

variable {sep : Char}

theorem splitChars_of_not_mem {cs : List Char} (h : sep ∉ cs) : splitChars sep cs = [cs] := by
  induction cs with
  | nil => rfl
  | cons c rest ih =>
    obtain ⟨hc, hrest⟩ := List.ne_and_not_mem_of_not_mem_cons h
    simp [splitChars, Ne.symm hc, ih hrest]

theorem splitChars_append {before : List Char} (after : List Char) (h : sep ∉ before) :
    splitChars sep (before ++ sep :: after) = before :: splitChars sep after := by
  induction before with
  | nil => simp [splitChars]
  | cons c rest ih =>
    obtain ⟨hc, hrest⟩ := List.ne_and_not_mem_of_not_mem_cons h
    simp [splitChars, Ne.symm hc, ih hrest]

/-- Nothing but the first part stands in front of a separator at the end. -/
theorem eq_of_append_eq {name other rest : String} (hname : sep ∉ name.toList)
    (hother : sep ∉ other.toList)
    (h : name ++ sep.toString ++ rest = other ++ sep.toString) : other = name ∧ rest = "" := by
  have hcut := cut?_append "" hother
  rw [String.append_empty, ← h, cut?_append rest hname] at hcut
  cases hcut
  exact ⟨rfl, rfl⟩

/-- A text without a separator, or cut at the first one. -/
theorem cut_cases (sep : Char) (s : String) :
    sep ∉ s.toList ∨
      ∃ name rest : String, sep ∉ name.toList ∧ s = name ++ sep.toString ++ rest := by
  by_cases h : sep ∈ s.toList
  · obtain ⟨before, after, hs, hbefore⟩ := List.eq_append_cons_of_mem h
    refine .inr ⟨String.ofList before, String.ofList after, by simpa using hbefore, ?_⟩
    apply String.toList_inj.mp
    simpa [Char.toString] using hs
  · exact .inl h

end Text

open Text

theorem selectorParts_of_not_mem {name : String} (h : '.' ∉ name.toList) :
    selectorParts name = [name] := by
  rw [selectorParts, splitOn, splitChars_of_not_mem h]
  simp

theorem selectorParts_append {name : String} (rest : String) (h : '.' ∉ name.toList) :
    selectorParts (name ++ '.'.toString ++ rest) = name :: selectorParts rest := by
  have hchars : (name ++ '.'.toString ++ rest).toList = name.toList ++ '.' :: rest.toList := by
    simp [Char.toString]
  rw [selectorParts, splitOn, hchars, splitChars_append _ h]
  simp [selectorParts, splitOn]

namespace Json

/-- The whole value, as the empty selector stands for it. -/
theorem select?_empty (v : Json) : v.select? "" = some v := rfl

theorem select?_of_ne {selector : String} (v : Json) (h : selector ≠ "") :
    v.select? selector = v.follow? (selectorParts selector) := by
  unfold select?
  rw [if_neg (by simpa using h)]

/-- A selector of a single part. -/
theorem select?_part {name : String} (v : Json) (h : '.' ∉ name.toList) (hname : name ≠ "") :
    v.select? name = v.step? name := by
  rw [select?_of_ne v hname, selectorParts_of_not_mem h, follow?]
  exact Option.bind_fun_some _

/-- A selector with a first part that something stands behind. -/
theorem select?_dotted {name : String} (v : Json) (rest : String) (h : '.' ∉ name.toList) :
    v.select? (name ++ '.'.toString ++ rest) =
      (v.step? name).bind fun w => w.follow? (selectorParts rest) := by
  have hne : name ++ '.'.toString ++ rest ≠ "" := by simp [Char.toString]
  rw [select?_of_ne v hne, selectorParts_append rest h, follow?]

/-- A separator at the end leads to the field with the empty name. -/
theorem select?_trailing {name : String} (v : Json) (h : '.' ∉ name.toList) :
    v.select? (name ++ '.'.toString) = (v.step? name).bind fun w => w.step? "" := by
  have hparts : selectorParts "" = [""] := selectorParts_of_not_mem (by simp)
  have hlast : (fun w : Json => w.follow? (selectorParts "")) = fun w => w.step? "" := by
    funext w
    rw [hparts, follow?]
    exact Option.bind_fun_some _
  rw [← hlast, ← select?_dotted v "" h, String.append_empty]

/-- A field or an item is nested less deep than the value that it is part of. -/
theorem depth_lt_of_step? {v w : Json} {part : String} (h : v.step? part = some w) :
    w.depth < v.depth := by
  cases v with
  | arr items =>
    obtain ⟨i, -, hi⟩ := Option.bind_eq_some_iff.mp h
    exact Nat.lt_succ_of_le (depthItems_le.mp le_rfl w (List.mem_of_getElem? hi))
  | obj fields =>
    obtain ⟨e, he, rfl⟩ := Option.map_eq_some_iff.mp h
    exact Nat.lt_succ_of_le (depthFields_le.mp le_rfl e (List.mem_of_find?_eq_some he))
  | null => cases h
  | bool b => cases h
  | num n => cases h
  | str s => cases h

/-- No value is a part of itself. -/
theorem step?_ne_self (v : Json) (part : String) : v.step? part ≠ some v :=
  fun h => lt_irrefl _ (depth_lt_of_step? h)

end Json

namespace Snapshot

variable (s : Snapshot)

/-- The input and the environment hide channels of their names in the parameters too. -/
theorem step?_parameters (name : String) : s.parameters.step? name = s.root? name := by
  change Table.get? ((s.channels.insert inputName s.input).insert environmentName s.environment)
    name = s.root? name
  unfold root?
  rw [Table.get?_insert, Table.get?_insert]
  by_cases henv : name = environmentName
  · have hne : ¬ name = inputName := by
      rw [henv]
      decide
    simp [henv, show ¬ environmentName = inputName from henv ▸ hne]
  · by_cases hinput : name = inputName
    · simp [hinput, show ¬ inputName = environmentName from hinput ▸ henv]
    · simp [henv, hinput, channel?]

variable {name : String}

theorem resolve?_part (h : '.' ∉ name.toList) : s.resolve? name = s.root? name := by
  unfold resolve?
  rw [cut?_of_not_mem h]
  exact Option.bind_fun_some _

theorem resolve?_dotted (rest : String) (h : '.' ∉ name.toList) :
    s.resolve? (name ++ '.'.toString ++ rest) = (s.root? name).bind fun v => v.select? rest := by
  unfold resolve?
  rw [cut?_append rest h]
  rfl

/-- The state takes no notice of a separator at the end. -/
theorem resolve?_trailing (h : '.' ∉ name.toList) :
    s.resolve? (name ++ '.'.toString) = s.root? name := by
  have hwhole : (fun v : Json => v.select? "") = some := by
    funext v
    exact v.select?_empty
  rw [← String.append_empty (s := name ++ '.'.toString), resolve?_dotted s "" h, hwhole,
    Option.bind_fun_some]

/-- A separator at the end makes no difference only to what is not there, since no value is its own
field. -/
theorem trailing_agree_iff (h : '.' ∉ name.toList) :
    s.resolve? (name ++ '.'.toString) = s.parameters.select? (name ++ '.'.toString) ↔
      s.root? name = none := by
  rw [s.resolve?_trailing h, Json.select?_trailing _ h, s.step?_parameters]
  cases s.root? name with
  | none => exact iff_of_true rfl rfl
  | some v => exact iff_of_false (fun heq => v.step?_ne_self "" heq.symm) nofun

/-- Something behind the first part is resolved in the same way. -/
theorem resolve?_eq_of_rest_ne {rest : String} (h : '.' ∉ name.toList) (hrest : rest ≠ "") :
    s.resolve? (name ++ '.'.toString ++ rest) =
      s.parameters.select? (name ++ '.'.toString ++ rest) := by
  have hfollow : (fun v : Json => v.select? rest) = fun v => v.follow? (selectorParts rest) := by
    funext v
    exact v.select?_of_ne hrest
  rw [resolve?_dotted s rest h, hfollow, ← step?_parameters, Json.select?_dotted _ rest h]

end Snapshot

/-- A selector resolves to the same in a state and in its parameters, unless it is empty or it names
something that is there and then ends in a separator. The empty selector stands for all parameters,
but the state takes it for the name of a channel. A separator at the end leads to the field with the
empty name, but the state takes no notice of it. -/
theorem selectors_agree_iff (s : Snapshot) (selector : String) :
    (s.resolve? selector = s.parameters.select? selector ↔
      selector ≠ "" ∧ ∀ name, '.' ∉ name.toList → selector = name ++ "." → s.root? name = none) ∧
      s.resolve? "" = s.channel? "" ∧ s.parameters.select? "" = some s.parameters ∧
      ∀ name, '.' ∉ name.toList → s.resolve? (name ++ ".") = s.root? name ∧
        s.parameters.select? (name ++ ".") = (s.root? name).bind fun v => v.step? "" := by
  rw [show "." = '.'.toString from rfl]
  refine ⟨?_, s.resolve?_part (by simp), s.parameters.select?_empty, fun name hname =>
    ⟨s.resolve?_trailing hname, ?_⟩⟩
  · obtain hbare | ⟨name, rest, hname, rfl⟩ := cut_cases '.' selector
    · -- Only the empty selector stands for the whole value and not for a part.
      rw [s.resolve?_part hbare, ← s.step?_parameters]
      by_cases hempty : selector = ""
      · rw [hempty, s.parameters.select?_empty]
        exact ⟨fun h => absurd h (s.parameters.step?_ne_self ""), fun h => absurd rfl h.1⟩
      · refine ⟨fun _ => ⟨hempty, ?_⟩, fun _ => (s.parameters.select?_part hbare hempty).symm⟩
        rintro name - rfl
        exact absurd (by simp [Char.toString]) hbare
    · by_cases hrest : rest = ""
      · subst hrest
        rw [String.append_empty, s.trailing_agree_iff hname]
        refine ⟨fun hroot => ⟨by simp [Char.toString], ?_⟩, fun h => h.2 name hname rfl⟩
        intro other hother heq
        rw [← String.append_empty (s := name ++ '.'.toString)] at heq
        rw [(eq_of_append_eq hname hother heq).1]
        exact hroot
      · refine iff_of_true (s.resolve?_eq_of_rest_ne hname hrest) ⟨by simp [Char.toString], ?_⟩
        intro other hother heq
        exact absurd (eq_of_append_eq hname hother heq).2 hrest
  · rw [Json.select?_trailing _ hname, s.step?_parameters]

/-- With a separator at the end, the name of the input still resolves to the input in a state, but
to nothing in the parameters, unless the input has a field with the empty name. -/
theorem input_with_separator_differs :
    let s : Snapshot := { Snapshot.empty with input := .obj [("q", .int 1)] }
    s.resolve? "input." = some (.obj [("q", .int 1)]) ∧ s.parameters.select? "input." = none :=
  ⟨rfl, rfl⟩

end Workgraph
