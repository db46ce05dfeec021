import ApiManual.Proofs.Resource.Fragments

/-!
# Fields with choices

The comment of a field may list its choices between two texts. Choices go on up to the last bracket of the line, and
an example, which is cut out first, goes on up to its end: `ofComment_choices_iff` says when the field has the choices
that are listed.

* `ChoicesText`: a name, the listed choices, and the texts around them.
* `takeRequired_around`, `exists_description`: the list stays whole in the description.
* `Remains.takeChoices_exact`, `Remains.takeChoices_bracket`: what is read of the list there, without an example.
* `Remains.exists_cut`: with an example in a choice the list does not stay whole.
-/

namespace ApiManual

open Text

variable {front back mid : List Char}

/-! ## Descriptions around a text -/

/-- The flag is taken off what stands in front of a text that begins with a character the flag does not have. -/
theorem takeRequired_around {x : Char} (hx : mid.head? = some x) (hflag : x ∉ requiredWord) (hblank : isBlank x = false)
    (front back : List Char) : ∃ required rest, rest <:+ front ∧
      takeRequired (front ++ (mid ++ back)) = (required, rest ++ (mid ++ back)) := by
  obtain ⟨tail, rfl⟩ : ∃ tail, mid = x :: tail := by
    cases mid with
    | nil => cases hx
    | cons c tail => exact ⟨tail, by rw [Option.some.inj hx]⟩
  unfold takeRequired
  split
  · rename_i hword
    have hparts := firstToken_append_afterToken (front ++ (x :: tail ++ back))
    rw [hword] at hparts
    obtain ⟨rest, rfl⟩ := prefix_of_stop hflag (⟨_, hparts⟩ : requiredWord <+: front ++ x :: (tail ++ back))
    rw [List.append_assoc] at hparts
    rw [List.append_assoc, List.append_cancel_left hparts]
    refine ⟨true, trimLeft rest, (List.dropWhile_suffix _).trans (List.suffix_append ..), ?_⟩
    rw [trimLeft, trimLeftBy, dropWhile_append_of_head (by simpa using hblank)]
    rfl
  · exact ⟨false, front, List.suffix_refl front, rfl⟩

/-! ## Listed choices -/

/-- A field whose choices are listed in its comment, between two texts. -/
structure ChoicesText where
  name : List Char
  values : List (List Char)
  before : List Char
  after : List Char
  name_token : Token name
  values_nonempty : values ≠ []
  values_bare : ∀ value ∈ values, Bare isBlank value
  values_apart : ∀ value ∈ values, ',' ∉ value
  values_unbracketed : ∀ value ∈ values, ']' ∉ value
  values_oneLine : ∀ value ∈ values, '\n' ∉ value
  before_no_example : ¬ exampleMark <:+: before
  before_no_choices : ¬ choicesMark <:+: before
  before_oneLine : '\n' ∉ before
  after_no_example : ¬ exampleMark <:+: after
  after_oneLine : '\n' ∉ after

/-- What is left of the texts in front of the list and behind it, in a description. -/
structure ChoicesText.Remains (t : ChoicesText) (front back : List Char) : Prop where
  front_part : front <:+ ' ' :: (t.before ++ [' '])
  back_part : back <+: ' ' :: t.after
  bracket : ']' ∈ t.after → ']' ∈ back

namespace ChoicesText

variable (t : ChoicesText)

/-- The text between the brackets. -/
def inner : List Char := joinWith [',', ' '] t.values

def list : List Char := choicesMark ++ ' ' :: '[' :: (t.inner ++ [']'])

/-- What stands behind the type: the list between the two texts. -/
def text : List Char := ' ' :: (t.before ++ ' ' :: (t.list ++ ' ' :: t.after))

/-- The comment. -/
def content : List Char := t.name ++ ' ' :: ("string".toList ++ t.text)

theorem list_bare {p : Char → Bool} (hopen : p 'E' = false) (hclose : p ']' = false) : Bare p t.list := by
  have hend : t.list = (choicesMark ++ ' ' :: '[' :: t.inner) ++ [']'] := by simp [list]
  constructor
  · intro c hc
    obtain rfl : 'E' = c := Option.some.inj hc
    exact hopen
  · rw [hend, List.getLast?_concat]
    simpa using hclose

/-- The list stays whole in the description. -/
theorem exists_description : ∃ parts front back, TagParts.ofContent (String.ofList t.content) = .ok parts ∧
    parts.name = String.ofList t.name ∧ parts.type = "string" ∧
    trimBy isFraming parts.description.toList = front ++ (t.list ++ back) ∧ t.Remains front back := by
  have hnone : Blanks [] := by simp [Blanks]
  have hspace : Blanks [' '] := by decide
  have htype : Token "string".toList := ⟨by decide, by simp; decide⟩
  have hhead : ∀ c ∈ t.text.head?, isBlank c = true := by
    simp [text]
    decide
  have hblank : Bare isBlank t.list := t.list_bare (by decide) (by decide)
  have hframing : Bare isFraming t.list := t.list_bare (by decide) (by decide)
  have hne : t.list ≠ [] := by simp [list]
  have hparts := ofContent_layout hnone t.name_token hspace (by simp) htype hhead
  have htail : trim t.text = trimLeft (' ' :: (t.before ++ [' '])) ++ (t.list ++ trimRight (' ' :: t.after)) := by
    rw [trimLeft, trimRight, ← trimBy_around hblank hne, trim]
    simp [text]
  have hfirst : t.list.head? = some 'E' := rfl
  obtain ⟨required, front, hfront, htaken⟩ := takeRequired_around hfirst (by decide) (by decide)
    (trimLeft (' ' :: (t.before ++ [' ']))) (trimRight (' ' :: t.after))
  rw [htail, htaken] at hparts
  refine ⟨_, trimLeftBy isFraming front, trimRightBy isFraming (trimRight (' ' :: t.after)), hparts, rfl,
    String.ofList_toList, ?_, ?_⟩
  · rw [String.toList_ofList, trimBy_around hframing hne]
  · refine ⟨?_, ?_, fun hmem => ?_⟩
    · exact (List.dropWhile_suffix _).trans (hfront.trans (List.dropWhile_suffix _))
    · exact (prefix_trimRightBy _ _).trans (prefix_trimRightBy _ _)
    · exact mem_trimRightBy (by decide) (mem_trimRightBy (by decide) (List.mem_cons_of_mem _ hmem))

/-! ## What is read in the description -/

theorem inner_oneLine : '\n' ∉ t.inner := fun h => by
  obtain hbetween | ⟨value, hvalue, hmem⟩ := mem_joinWith h
  · revert hbetween
    decide
  · exact t.values_oneLine value hvalue hmem

variable {t} (h : t.Remains front back)

include h

theorem Remains.back_oneLine : '\n' ∉ back := fun hmem => by
  have hafter := h.back_part.subset hmem
  exact t.after_oneLine (by simpa using hafter)

theorem Remains.oneLine : '\n' ∉ front ++ (t.list ++ back) := by
  have hfront : '\n' ∉ front := fun hmem => by
    have hbefore := h.front_part.subset hmem
    exact t.before_oneLine (by simpa using hbefore)
  have hlist : '\n' ∉ choicesMark ++ [' ', '['] := by decide
  simp only [List.mem_append, not_or] at hlist
  simp [list, hfront, hlist, t.inner_oneLine, h.back_oneLine]

theorem Remains.clear_choices (rest : List Char) : Clear choicesMark front rest :=
  (clear_spaced (x := 'E') (by decide) rfl t.before_no_choices rest).of_suffix h.front_part

omit h in
theorem list_clear (hvalues : ∀ value ∈ t.values, ¬ exampleMark <:+: value) (rest : List Char) :
    Clear exampleMark t.list rest := by
  have hclose : Clear exampleMark [']'] rest := clear_of_head (x := 'E') (by decide) rfl rest
  have hinner : Clear exampleMark t.inner ([']'] ++ rest) :=
    clear_joinWith (x := 'E') (by decide) (by decide) rfl (by decide) hvalues rest
  have hopen : Clear exampleMark [' ', '['] (t.inner ++ [']'] ++ rest) := clear_of_head (x := 'E') (by decide) rfl _
  have hmark : Clear exampleMark choicesMark ([' ', '['] ++ (t.inner ++ [']']) ++ rest) :=
    clear_of_stop (by decide) (by decide) _
  exact hmark.append (hopen.append (hinner.append hclose))

/-- Without an example in a choice there is none in the description. -/
theorem Remains.no_example (hvalues : ∀ value ∈ t.values, ¬ exampleMark <:+: value) :
    ¬ exampleMark <:+: front ++ (t.list ++ back) := by
  have hne : exampleMark ≠ [] := exampleMark_token.nonempty
  have hfront : Clear exampleMark front (t.list ++ back ++ []) :=
    (clear_spaced (x := 'E') (by decide) rfl t.before_no_example _).of_suffix h.front_part
  have hspace : Clear exampleMark [' '] (t.after ++ []) := clear_of_head (x := 'E') (by decide) rfl _
  have hafter : Clear exampleMark (' ' :: t.after) [] := hspace.append (clear_of_absent t.after_no_example)
  have hback : Clear exampleMark back [] :=
    clear_of_absent fun hin => hafter.absent hne (hin.trans h.back_part.isInfix)
  exact (hfront.append ((list_clear hvalues _).append hback)).absent hne

/-- Up to the last bracket of the line all is read as choices. -/
theorem Remains.takeChoices_list {read : List Char}
    (hread : beforeLastBracket? (t.inner ++ ']' :: back) = some read) :
    (takeChoices (front ++ (t.list ++ back))).1 =
      some ((splitOn ',' read).map fun choice => String.ofList (trim choice)) := by
  have hlist : t.list ++ back = choicesMark ++ ' ' :: '[' :: (t.inner ++ ']' :: back) := by simp [list]
  have hfragment := choicesFragment?_append (h.clear_choices (t.list ++ back)) (hlist ▸ choicesHere?_self hread)
  unfold takeChoices
  rw [hfragment]

/-- Without a bracket behind the list, the choices that are listed are read. -/
theorem Remains.takeChoices_exact (hbracket : ']' ∉ t.after) :
    (takeChoices (front ++ (t.list ++ back))).1 = some (t.values.map String.ofList) := by
  have hback : ']' ∉ back := fun hmem => hbracket (by simpa using h.back_part.subset hmem)
  have hread := beforeLastBracket?_append t.inner_oneLine h.back_oneLine hback
  rw [h.takeChoices_list hread]
  have hparts := map_trim_splitOn t.values_nonempty t.values_bare t.values_apart (by decide)
  rw [← inner] at hparts
  conv_rhs => rw [← hparts, List.map_map]
  rfl

/-- With a bracket behind the list, a choice goes on over the end of the list. -/
theorem Remains.takeChoices_bracket (hbracket : ']' ∈ t.after) :
    ∃ choices, (takeChoices (front ++ (t.list ++ back))).1 = some choices ∧
      ∃ choice ∈ choices, ']' ∈ choice.toList := by
  obtain ⟨more, hread⟩ := beforeLastBracket?_over t.inner_oneLine h.back_oneLine (h.bracket hbracket)
  have hover : ']' ∈ t.inner ++ ']' :: more := by simp
  obtain ⟨part, hpart, hmem⟩ := exists_mem_splitOn hover (show ']' ≠ ',' by decide)
  refine ⟨_, h.takeChoices_list hread, String.ofList (trim part), List.mem_map_of_mem hpart, ?_⟩
  rw [String.toList_ofList]
  exact mem_trimBy (by decide) hmem

/-- With an example in a choice, only what is in front of the example is left of the description. -/
theorem Remains.exists_cut (hvalues : ∃ value ∈ t.values, exampleMark <:+: value) : ∃ fragment,
    exampleFragment? (front ++ (t.list ++ back)) = some fragment ∧
      ¬ exampleMark <:+: dropFragment fragment (front ++ (t.list ++ back)) := by
  obtain ⟨value, hvalue, hmark⟩ := hvalues
  have hlist : t.inner <:+: front ++ (t.list ++ back) :=
    ⟨front ++ (choicesMark ++ [' ', '[']), ']' :: back, by simp [list]⟩
  have hin := (hmark.trans (infix_joinWith [',', ' '] hvalue)).trans hlist
  cases hparts : splitAtFirst? exampleMark (front ++ (t.list ++ back)) with
  | none => exact absurd hin (splitAtFirst?_eq_none_iff.mp hparts)
  | some parts =>
    obtain ⟨lead, rest⟩ := parts
    obtain ⟨hwhole, hclear⟩ := of_splitAtFirst? hparts
    have hline : '\n' ∉ rest := fun hmem => h.oneLine (by rw [hwhole]; simp [hmem])
    rw [hwhole]
    refine ⟨_, exampleFragment?_append hclear hline, ?_⟩
    rw [dropFragment_append hclear]
    exact fun hin => hclear.absent exampleMark_token.nonempty (hin.trans (infix_trim lead))

end ChoicesText

/-- The comment is always read, and its field has the choices that are listed just if none of them holds the mark of an
example and no closing bracket stands behind the list. -/
theorem ofComment_choices_iff (t : ChoicesText) : ∃ field,
    Field.ofComment (String.ofList t.content) = .ok (String.ofList t.name, field) ∧ field.type = .string ∧
      (field.choices = some (t.values.map String.ofList) ↔
        (∀ value ∈ t.values, ¬ exampleMark <:+: value) ∧ ']' ∉ t.after) := by
  obtain ⟨parts, front, back, hparts, hname, htype, hdescription, h⟩ := t.exists_description
  have hstring : ValueType.normalize parts.type = .string := by
    rw [htype]
    decide +kernel
  by_cases hvalues : ∀ value ∈ t.values, ¬ exampleMark <:+: value
  · have hfield := ofComment_unexampled hparts hdescription (exampleFragment?_eq_none (h.no_example hvalues))
    rw [hname, hstring] at hfield
    refine ⟨_, hfield, rfl, ?_⟩
    by_cases hbracket : ']' ∈ t.after
    · obtain ⟨choices, hchoices, choice, hchoice, hmem⟩ := h.takeChoices_bracket hbracket
      refine iff_of_false (fun hexact => ?_) fun hfree => hfree.2 hbracket
      obtain rfl := Option.some.inj (hchoices.symm.trans hexact)
      obtain ⟨value, hvalue, rfl⟩ := List.mem_map.mp hchoice
      exact t.values_unbracketed value hvalue (by simpa using hmem)
    · exact iff_of_true (h.takeChoices_exact hbracket) ⟨hvalues, hbracket⟩
  · push Not at hvalues
    obtain ⟨fragment, hexample, hcut⟩ := h.exists_cut hvalues
    have hfield := ofComment_cast hparts hdescription hexample
    have hcast : ∀ text, ValueType.string.cast text = .ok (.str text) := fun _ => rfl
    rw [hname, hstring, hcast, Except.map] at hfield
    refine ⟨_, hfield, rfl, iff_of_false (fun hexact => ?_) fun hfree => ?_⟩
    · obtain ⟨value, hvalue, hmark⟩ := hvalues
      have hchoice := infix_of_takeChoices hexact _ (List.mem_map_of_mem hvalue)
      rw [String.toList_ofList] at hchoice
      exact hcut (hmark.trans hchoice)
    · obtain ⟨value, hvalue, hmark⟩ := hvalues
      exact hfree.1 value hvalue hmark

/-! ## A bracket behind the list -/

namespace Roles

def kind : ChoicesText where
  name := "kind".toList
  values := ["a".toList, "b".toList]
  before := "Role.".toList
  after := "see [docs]".toList
  name_token := by decide +kernel
  values_nonempty := by decide
  values_bare := by decide +kernel
  values_apart := by decide +kernel
  values_unbracketed := by decide +kernel
  values_oneLine := by decide +kernel
  before_no_example := by decide +kernel
  before_no_choices := by decide +kernel
  before_oneLine := by decide +kernel
  after_no_example := by decide +kernel
  after_oneLine := by decide +kernel

/-- The last choice goes on up to the bracket behind the list. -/
theorem ofComment_kind :
    Field.ofComment "kind string Role. Enum: [a, b] see [docs]" =
        .ok ("kind", { type := .string, description := "Role.", choices := some ["a", "b] see [docs"] }) ∧
      ¬ ∀ t : ChoicesText, ∃ field, Field.ofComment (String.ofList t.content) = .ok (String.ofList t.name, field) ∧
        field.choices = some (t.values.map String.ofList) := by
  have hread : Field.ofComment "kind string Role. Enum: [a, b] see [docs]" =
      .ok ("kind", { type := .string, description := "Role.", choices := some ["a", "b] see [docs"] }) := by
    rfl
  refine ⟨hread, fun hexact => ?_⟩
  obtain ⟨field, hfield, hchoices⟩ := hexact kind
  obtain ⟨-, rfl⟩ := Prod.mk.inj (Except.ok.inj (hfield.symm.trans hread))
  exact absurd hchoices (by decide +kernel)

end Roles

end ApiManual
