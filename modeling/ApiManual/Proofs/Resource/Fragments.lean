import ApiManual.Proofs.Param.Grammar
import ApiManual.Proofs.Text.Search
import ApiManual.Resource.Comment

/-!
# Fragments of a description

A comment is read in three steps: its parts, the example, and the choices in what is left of the description
(`ofComment_unexampled`, `ofComment_cast`).

* `exampleFragment?_append`, `dropFragment_append`: an example ends with the description.
* `beforeLastBracket?_append`, `beforeLastBracket?_over`: choices go on up to the last bracket of the line.
* `infix_of_takeChoices`: each choice stands in the description.
-/

namespace ApiManual

open Text

variable {cs rest value inner : List Char}

/-! ## Examples -/

theorem exampleFragment?_eq_none (h : ¬ exampleMark <:+: cs) : exampleFragment? cs = none := by
  unfold exampleFragment?
  rw [splitAtFirst?_eq_none_iff.mpr h]
  rfl

theorem takeWhile_onLine (h : '\n' ∉ cs) : cs.takeWhile onLine = cs := by
  refine List.takeWhile_eq_self_iff.mpr fun c hc => ?_
  have hne : c ≠ '\n' := fun heq => h (heq ▸ hc)
  simpa [onLine] using hne

/-- The example goes on from the first mark to the end of a single line. -/
theorem exampleFragment?_append (h : Clear exampleMark cs (exampleMark ++ value)) (hline : '\n' ∉ value) :
    exampleFragment? (cs ++ (exampleMark ++ value)) =
      some { whole := exampleMark ++ value, inner := value.dropWhile isBlank } := by
  have hinner : '\n' ∉ value.dropWhile isBlank := fun hmem => hline ((List.dropWhile_suffix isBlank).subset hmem)
  unfold exampleFragment?
  rw [splitAtFirst?_append h, splitAtFirst?_self]
  simp only [Option.map_some, takeWhile_onLine hinner, List.append_assoc, List.takeWhile_append_dropWhile]

theorem dropFragment_append (h : Clear exampleMark cs (exampleMark ++ value)) (inner : List Char) :
    dropFragment { whole := exampleMark ++ value, inner } (cs ++ (exampleMark ++ value)) = trim cs := by
  have hne : exampleMark ++ value ≠ [] := fun hnil => exampleMark_token.nonempty (List.append_eq_nil_iff.mp hnil).1
  have hself := replaceFrom_self hne [] []
  rw [List.append_nil] at hself
  unfold dropFragment replaceAll
  rw [if_neg (by simpa using hne), replaceFrom_append (h.of_prefix (List.prefix_append exampleMark value)), hself]
  simp [replaceFrom]

/-! ## Choices -/

theorem beforeLastBracket?_append (hcs : '\n' ∉ cs) (hrest : '\n' ∉ rest) (hlast : ']' ∉ rest) :
    beforeLastBracket? (cs ++ ']' :: rest) = some cs := by
  have hline : '\n' ∉ cs ++ ']' :: rest := by simp [hcs, hrest]
  have hbracket : ∀ c ∈ (']' :: cs.reverse).head?, (c != ']') = false := by simp
  have hbehind : rest.reverse.dropWhile (· != ']') = [] := by
    refine List.dropWhile_eq_nil_iff.mpr fun c hc => ?_
    have hne : c ≠ ']' := fun heq => hlast (heq ▸ List.mem_reverse.mp hc)
    simpa using hne
  have hreverse : (cs ++ ']' :: rest).reverse = rest.reverse ++ ']' :: cs.reverse := by simp
  unfold beforeLastBracket?
  rw [takeWhile_onLine hline, hreverse, dropWhile_append_of_head hbracket, hbehind]
  simp

/-- A bracket is passed over where another one follows on the line. -/
theorem beforeLastBracket?_over (hcs : '\n' ∉ cs) (hrest : '\n' ∉ rest) (h : ']' ∈ rest) :
    ∃ more, beforeLastBracket? (cs ++ ']' :: rest) = some (cs ++ ']' :: more) := by
  obtain ⟨behind, more, hreverse, hlast⟩ := List.eq_append_cons_of_mem (List.mem_reverse.mpr h)
  obtain rfl : rest = more.reverse ++ ']' :: behind.reverse := by
    rw [← List.reverse_reverse rest, hreverse]
    simp
  have hfront : '\n' ∉ cs ++ ']' :: more.reverse := by
    rw [List.mem_append, not_or] at hrest
    simp [hcs, hrest.1]
  have hbehind : '\n' ∉ behind.reverse := fun hmem => hrest (by simp [hmem])
  refine ⟨more.reverse, ?_⟩
  rw [← beforeLastBracket?_append hfront hbehind (by simpa using hlast)]
  simp

theorem prefix_of_beforeLastBracket? (h : beforeLastBracket? cs = some inner) : inner <+: cs := by
  unfold beforeLastBracket? at h
  split at h
  · cases h
  · rename_i c before hbefore
    obtain rfl := Option.some.inj h
    have hsuffix : before <:+ (cs.takeWhile onLine).reverse :=
      (List.suffix_cons c before).trans (hbefore ▸ List.dropWhile_suffix _)
    rw [← List.reverse_prefix, List.reverse_reverse] at hsuffix
    exact hsuffix.trans (List.takeWhile_prefix _)

theorem choicesHere?_self (h : beforeLastBracket? rest = some inner) :
    choicesHere? (choicesMark ++ ' ' :: '[' :: rest) =
      some { whole := choicesMark ++ [' '] ++ '[' :: inner ++ [']'], inner } := by
  have hblank : isBlank ' ' = true := by decide
  have hbracket : isBlank '[' = false := by decide
  have hdrop : (choicesMark ++ ' ' :: '[' :: rest).drop choicesMark.length = ' ' :: '[' :: rest := List.drop_left
  unfold choicesHere?
  rw [if_pos (List.isPrefixOf_iff_prefix.mpr (List.prefix_append ..)), hdrop]
  simp [hblank, hbracket, h]

theorem choicesHere?_eq_none (h : ¬ choicesMark <+: cs) : choicesHere? cs = none := by
  unfold choicesHere?
  rw [if_neg (by rwa [List.isPrefixOf_iff_prefix])]

theorem infix_of_choicesHere? {fragment : Fragment} (h : choicesHere? cs = some fragment) : fragment.inner <:+: cs := by
  unfold choicesHere? at h
  split at h
  · dsimp only at h
    split at h
    · rename_i after hafter
      obtain ⟨inner, hinner, rfl⟩ := Option.map_eq_some_iff.mp h
      have hsuffix : after <:+ cs := (List.suffix_cons '[' after).trans
        ((hafter ▸ List.dropWhile_suffix isBlank).trans (List.drop_suffix ..))
      exact (prefix_of_beforeLastBracket? hinner).isInfix.trans hsuffix.isInfix
    · cases h
  · cases h

theorem choicesFragment?_append {fragment : Fragment} (h : Clear choicesMark cs rest)
    (hhere : choicesHere? rest = some fragment) : choicesFragment? (cs ++ rest) = some fragment := by
  induction cs with
  | nil =>
    cases rest with
    | nil => cases hhere
    | cons c rest => simp [choicesFragment?, hhere]
  | cons c cs ih =>
    obtain ⟨hfirst, hcs⟩ := clear_cons.mp h
    simp [choicesFragment?, choicesHere?_eq_none hfirst, ih hcs]

/-- The text of the choices stands in the description. -/
theorem infix_of_choicesFragment? {fragment : Fragment} (h : choicesFragment? cs = some fragment) :
    fragment.inner <:+: cs := by
  induction cs with
  | nil => cases h
  | cons c cs ih =>
    rw [choicesFragment?] at h
    cases hhere : choicesHere? (c :: cs) with
    | some found =>
      rw [hhere] at h
      obtain rfl := Option.some.inj h
      exact infix_of_choicesHere? hhere
    | none =>
      rw [hhere] at h
      exact (ih h).trans (List.suffix_cons c cs).isInfix

/-! ## What a comment declares -/

/-- The choices of a description, and what is left of it. -/
def takeChoices (description : List Char) : Option (List String) × List Char :=
  match choicesFragment? description with
  | none => (none, description)
  | some fragment =>
    (some ((splitOn ',' fragment.inner).map fun c => String.ofList (trim c)), dropFragment fragment description)

theorem choicesFragment?_eq_none (h : ¬ choicesMark <:+: cs) : choicesFragment? cs = none := by
  induction cs with
  | nil => rfl
  | cons c cs ih =>
    rw [List.infix_cons_iff, not_or] at h
    rw [choicesFragment?, choicesHere?_eq_none h.1, ih h.2]
    rfl

theorem takeChoices_eq_self (h : ¬ choicesMark <:+: cs) : takeChoices cs = (none, cs) := by
  unfold takeChoices
  rw [choicesFragment?_eq_none h]

/-- A choice stands in the description. -/
theorem infix_of_takeChoices {choices : List String} (h : (takeChoices cs).1 = some choices) :
    ∀ choice ∈ choices, choice.toList <:+: cs := by
  intro choice hchoice
  unfold takeChoices at h
  split at h
  · cases h
  · rename_i fragment hfragment
    obtain rfl := Option.some.inj h
    obtain ⟨part, hpart, rfl⟩ := List.mem_map.mp hchoice
    rw [String.toList_ofList]
    exact (infix_trim part).trans ((infix_of_mem_splitOn hpart).trans (infix_of_choicesFragment? hfragment))

section Comments

variable {content : String} {parts : TagParts} {description : List Char}
  (hparts : TagParts.ofContent content = .ok parts)
  (hdescription : trimBy isFraming parts.description.toList = description)

include hparts hdescription

theorem ofComment_unexampled (hexample : exampleFragment? description = none) :
    Field.ofComment content = .ok (parts.name,
      { type := .normalize parts.type, description := String.ofList (takeChoices description).2,
        required := parts.required, choices := (takeChoices description).1 }) := by
  unfold Field.ofComment
  simp only [hparts, hdescription, hexample, bind, Except.bind, pure, Except.pure]
  rfl

theorem ofComment_cast {fragment : Fragment} (hexample : exampleFragment? description = some fragment) :
    Field.ofComment content =
      ((ValueType.normalize parts.type).cast (String.ofList (trim fragment.inner))).map fun v => (parts.name,
        { type := .normalize parts.type,
          description := String.ofList (takeChoices (dropFragment fragment description)).2,
          required := parts.required, exampleValue := some v,
          choices := (takeChoices (dropFragment fragment description)).1 }) := by
  unfold Field.ofComment
  simp only [hparts, hdescription, hexample, bind, Except.bind, pure, Except.pure]
  cases (ValueType.normalize parts.type).cast (String.ofList (trim fragment.inner)) with
  | error d => rfl
  | ok v => rfl

end Comments

end ApiManual
