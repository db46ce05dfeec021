import ApiManual.Proofs.Resource.Fragments

/-!
# Labels of fields

A `Label` is what the comment of a field says: its name, its type, whether it is required, and a
description without an example or choices. `Label.content` writes it down, and `Label.ofComment_content` reads
the field back.
-/

namespace ApiManual

open Text

/-- No blank and no character that frames a description. -/
def isMargin (c : Char) : Bool := isBlank c || isFraming c

/-- The name, type, flag and description of a field, as its comment gives them. -/
structure Label where
  name : List Char
  type : List Char
  required : Bool
  description : List Char
  name_token : Token name
  type_token : Token type
  bare : Bare isMargin description
  /-- Without the flag, the description does not begin with the flag's word. -/
  flagged : required = false → firstToken description ≠ requiredWord
  no_example : ¬ exampleMark <:+: description
  no_choices : ¬ choicesMark <:+: description

namespace Label

variable (label : Label)

/-- What stands behind the type. -/
def ending : List Char :=
  (if label.required then ' ' :: requiredWord else []) ++
    if label.description = [] then [] else ' ' :: label.description

/-- The label as it is written down. -/
def content : List Char := label.name ++ ' ' :: (label.type ++ label.ending)

/-- The field without the fields below it. -/
def field : Field :=
  { type := .normalize (String.ofList label.type), description := String.ofList label.description,
    required := label.required }

/-! ## Margins -/

theorem bare_blank : Bare isBlank label.description where
  head c hc := (Bool.or_eq_false_iff.mp (label.bare.head c hc)).1
  last c hc := (Bool.or_eq_false_iff.mp (label.bare.last c hc)).1

theorem bare_framing : Bare isFraming label.description where
  head c hc := (Bool.or_eq_false_iff.mp (label.bare.head c hc)).2
  last c hc := (Bool.or_eq_false_iff.mp (label.bare.last c hc)).2

/-! ## Reading a label back -/

theorem ofContent_content : TagParts.ofContent (String.ofList label.content) = .ok
    { name := String.ofList label.name, type := String.ofList label.type, required := label.required,
      description := String.ofList label.description } := by
  unfold content ending
  generalize htext : (if label.description = [] then [] else ' ' :: label.description) = text
  have hhead : ∀ c ∈ text.head?, isBlank c = true := by
    subst htext
    split
    · simp
    · simp
      decide
  have hdescription : trim text = label.description := by
    subst htext
    split
    · rename_i hnone
      rw [hnone]
      rfl
    · exact (trim_space _).trans (trimBy_eq_self label.bare_blank)
  have hplain : label.required = false → firstToken (trim text) ≠ requiredWord := by
    rw [hdescription]
    exact label.flagged
  rw [ofContent_written label.name_token label.type_token hhead hplain, hdescription]

/-- The comment of a label declares its field. -/
theorem ofComment_content :
    Field.ofComment (String.ofList label.content) = .ok (String.ofList label.name, label.field) := by
  have hdescription : trimBy isFraming (String.ofList label.description).toList = label.description := by
    rw [String.toList_ofList, trimBy_eq_self label.bare_framing]
  rw [ofComment_unexampled label.ofContent_content hdescription (exampleFragment?_eq_none label.no_example),
    takeChoices_eq_self label.no_choices]
  rfl

end Label

end ApiManual
