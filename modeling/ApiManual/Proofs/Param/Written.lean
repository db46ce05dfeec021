import ApiManual.Proofs.Param.Grammar
import ApiManual.Proofs.Text.Lines
import ApiManual.Proofs.Text.Search

/-!
# Parameter tags that are written down

A `TagText` is what the author of a parameter says: its name, its type, whether it is required, a description and
the text of an example. `TagText.content` writes it down, and `Param.ofTag` reads it back (`ofTag_content`).

* `Marked`: an example mark that does not continue a word stands in the text.
* `splitAtExample?_eq_none_iff`: a text is parted just where there is such a mark.
* `splitAtExample?_append`: a text without one is parted at the mark that is written behind it.
* `TagText.ofContent_content`, `TagText.takeExample_text`: the two steps of reading.
-/

namespace ApiManual

open Text

/-! ## Example marks -/

/-- Whether a text ends in a word character; the empty text goes on as the one in front of it, `inWord`. -/
def endsInWord (inWord : Bool) (cs : List Char) : Bool := (cs.getLast?.map isWordChar).getD inWord

/-- An example mark that does not continue a word stands in the text. -/
def Marked (inWord : Bool) (cs : List Char) : Prop :=
  ∃ before after, cs = before ++ (exampleMark ++ after) ∧ endsInWord inWord before = false

section Marks

variable {inWord : Bool} {c : Char} {cs rest : List Char}

theorem endsInWord_cons (inWord : Bool) (c : Char) (cs : List Char) :
    endsInWord inWord (c :: cs) = endsInWord (isWordChar c) cs := by
  unfold endsInWord
  rw [List.getLast?_cons]
  cases cs.getLast? <;> rfl

theorem not_marked_nil : ¬ Marked inWord [] := by
  rintro ⟨before, after, heq, -⟩
  obtain ⟨-, hmark⟩ := List.append_eq_nil_iff.mp heq.symm
  exact exampleMark_token.nonempty (List.append_eq_nil_iff.mp hmark).1

/-- The mark stands at the front or behind the first character. -/
theorem marked_cons : Marked inWord (c :: cs) ↔
    (inWord = false ∧ exampleMark <+: c :: cs) ∨ Marked (isWordChar c) cs := by
  constructor
  · rintro ⟨before, after, heq, hword⟩
    cases before with
    | nil => exact .inl ⟨hword, after, heq.symm⟩
    | cons d before =>
      obtain ⟨rfl, rfl⟩ := List.cons.inj heq
      exact .inr ⟨before, after, rfl, by rwa [endsInWord_cons] at hword⟩
  · rintro (⟨hword, after, heq⟩ | ⟨before, after, rfl, hword⟩)
    · exact ⟨[], after, heq.symm, hword⟩
    · exact ⟨c :: before, after, (List.cons_append ..).symm, by rwa [endsInWord_cons]⟩

/-- A text is parted just where a mark stands in it. -/
theorem splitAtExample?_eq_none_iff : splitAtExample? inWord cs = none ↔ ¬ Marked inWord cs := by
  induction cs generalizing inWord with
  | nil => simp [splitAtExample?, not_marked_nil]
  | cons c cs ih =>
    rw [splitAtExample?, marked_cons, not_or, ← ih, ← List.isPrefixOf_iff_prefix]
    cases inWord <;> cases exampleMark.isPrefixOf (c :: cs) <;> simp

instance : Decidable (Marked inWord cs) :=
  decidable_of_iff ((splitAtExample? inWord cs).isSome = true) (by
    rw [← Option.ne_none_iff_isSome, Ne, splitAtExample?_eq_none_iff, not_not])

theorem splitAtExample?_mark (rest : List Char) : splitAtExample? false (exampleMark ++ rest) = some ([], rest) := by
  obtain ⟨c, cs, hmark⟩ := List.exists_cons_of_ne_nil exampleMark_token.nonempty
  have hfront : exampleMark.isPrefixOf (exampleMark ++ rest) = true :=
    List.isPrefixOf_iff_prefix.mpr (List.prefix_append ..)
  have hdrop : (exampleMark ++ rest).drop exampleMark.length = rest := List.drop_left
  rw [show exampleMark ++ rest = c :: (cs ++ rest) by rw [hmark, List.cons_append]] at hfront hdrop ⊢
  rw [splitAtExample?, if_pos (by simp [hfront]), hdrop]

/-- A text without a mark is parted at the one that is written behind it. -/
theorem splitAtExample?_append (h : ¬ Marked inWord cs) (rest : List Char) :
    splitAtExample? inWord (cs ++ ' ' :: (exampleMark ++ rest)) = some (cs ++ [' '], rest) := by
  induction cs generalizing inWord with
  | nil =>
    have hword : isWordChar ' ' = false := by decide
    have hfront : exampleMark.isPrefixOf (' ' :: (exampleMark ++ rest)) = false := rfl
    rw [List.nil_append, splitAtExample?, if_neg (by simp [hfront]), hword, splitAtExample?_mark]
    rfl
  | cons c cs ih =>
    rw [marked_cons, not_or, not_and] at h
    have hfront : ¬ (!inWord && exampleMark.isPrefixOf (c :: (cs ++ ' ' :: (exampleMark ++ rest)))) = true := by
      rw [Bool.and_eq_true, List.isPrefixOf_iff_prefix]
      rintro ⟨hword, hmark⟩
      have hmark : exampleMark <+: (c :: cs) ++ ' ' :: (exampleMark ++ rest) := hmark
      exact h.1 (by simpa using hword) (prefix_of_stop (by decide) hmark)
    rw [List.cons_append, splitAtExample?, if_neg hfront, ih h.2]
    rfl

end Marks

/-! ## Tags -/

/-- A parameter as its author describes it. -/
structure TagText where
  name : List Char
  type : List Char
  required : Bool
  description : List Char
  /-- The text of the example. -/
  value : List Char
  name_token : Token name
  type_token : Token type
  description_bare : Bare isBlank description
  value_bare : Bare isBlank value
  /-- Without the flag, the description does not begin with the flag's word. -/
  flagged : required = false → firstToken description ≠ requiredWord
  unmarked : ¬ Marked false description

namespace TagText

variable (t : TagText)

/-- The content of the tag: what is said, with single spaces between. -/
def content : List Char :=
  joinWith [' '] ([t.name, t.type, if t.required then requiredWord else [], t.description,
    exampleMark ++ ' ' :: t.value].filter (· ≠ []))

/-- The description with the space behind it. -/
def lead : List Char := if t.description = [] then [] else t.description ++ [' ']

/-- What stands behind the type and the flag. -/
def text : List Char := t.lead ++ (exampleMark ++ ' ' :: t.value)

theorem content_eq : t.content =
    t.name ++ ' ' :: (t.type ++ ((if t.required then ' ' :: requiredWord else []) ++ ' ' :: t.text)) := by
  have hname := t.name_token.nonempty
  have htype := t.type_token.nonempty
  have hword := requiredWord_token.nonempty
  unfold content text lead
  cases t.required <;> by_cases hdescription : t.description = [] <;>
    simp [hname, htype, hword, hdescription]

/-! ## Reading a tag back -/

theorem lead_append (rest : List Char) : t.lead ++ rest =
    if t.description = [] then rest else t.description ++ ' ' :: rest := by
  unfold lead
  split <;> simp

theorem trim_lead : trim t.lead = t.description := Text.trim_lead t.description_bare

/-- What follows the mark, as far as it is left of the content. -/
def behindMark : List Char := trimRight (' ' :: t.value)

theorem trim_behindMark : trim t.behindMark = t.value := by
  rw [behindMark, trim_trimRight, trim_space]
  exact trimBy_eq_self t.value_bare

theorem behindMark_head : ∀ c ∈ t.behindMark.head?, isBlank c = true := by
  refine head?_trimRight ?_
  simp
  decide

theorem trim_text : trim (' ' :: t.text) = t.lead ++ (exampleMark ++ t.behindMark) := by
  have hlead : trimLeftBy isBlank (' ' :: t.lead) = t.lead :=
    (trimLeft_space t.lead).trans (trimLeftBy_lead t.description_bare)
  have haround := trimBy_around (.of_forall exampleMark_token.solid) exampleMark_token.nonempty
    (' ' :: t.lead) (' ' :: t.value)
  rwa [hlead] at haround

theorem plain (h : t.required = false) : firstToken (trim (' ' :: t.text)) ≠ requiredWord := by
  rw [trim_text, lead_append]
  split
  · rw [firstToken_append exampleMark_token t.behindMark_head]
    decide
  · rename_i hsome
    have hfirst := firstToken_lead hsome (exampleMark ++ t.behindMark)
    rw [Text.lead, if_neg hsome, List.append_assoc] at hfirst
    exact hfirst ▸ t.flagged h

theorem ofContent_content : TagParts.ofContent (String.ofList t.content) = .ok
    { name := String.ofList t.name, type := String.ofList t.type, required := t.required,
      description := String.ofList (trim (' ' :: t.text)) } := by
  have hhead : ∀ c ∈ (' ' :: t.text).head?, isBlank c = true := by
    simp
    decide
  rw [content_eq, ofContent_written t.name_token t.type_token hhead t.plain]

theorem splitAtExample?_text :
    splitAtExample? false (trim (' ' :: t.text)) = some (t.lead, t.behindMark) := by
  rw [trim_text, lead_append, lead]
  split
  · exact splitAtExample?_mark _
  · exact splitAtExample?_append t.unmarked _

theorem takeExample_text {type : ValueType} {v : Json} (hcast : type.cast (String.ofList t.value) = .ok v) :
    takeExample (String.ofList (trim (' ' :: t.text))) type = .ok (String.ofList t.description, some v) := by
  unfold takeExample
  rw [String.toList_ofList, splitAtExample?_text]
  simp only [trim_behindMark, trim_lead, hcast]
  rfl

end TagText

/-- A parameter's tag is read as it was written, with the example cast to the type, and nothing is drawn. -/
theorem ofTag_content (t : TagText) {v : Json}
    (hcast : (ValueType.normalize (String.ofList t.type)).cast (String.ofList t.value) = .ok v) (g : Generator) :
    Param.ofTag (String.ofList t.content) g =
      (.ok (String.ofList t.name,
        { type := .normalize (String.ofList t.type), description := String.ofList t.description,
          required := t.required, value := v }), g) := by
  unfold Param.ofTag
  rw [t.ofContent_content]
  simp only [t.takeExample_text hcast]

/-! ## Marks in the description and in the example -/

namespace Remark

def remark : TagText where
  name := "note[text]".toList
  type := "Str".toList
  required := true
  description := "required CounterExample: none".toList
  value := "see Example: 7".toList
  name_token := by decide +kernel
  type_token := by decide +kernel
  description_bare := by decide +kernel
  value_bare := by decide +kernel
  flagged := by decide
  unmarked := by decide +kernel

theorem ofTag_remark :
    (ValueType.normalize "Str").cast "see Example: 7" = .ok (.str "see Example: 7") ∧
      Param.ofTag "note[text] Str required required CounterExample: none Example: see Example: 7" (.ofSeed 1) =
        (.ok ("note[text]",
          { type := .string, description := "required CounterExample: none", required := true,
            value := .str "see Example: 7" }), .ofSeed 1) := by
  have htype : ValueType.normalize "Str" = .string := by decide +kernel
  have hcast : (ValueType.normalize "Str").cast "see Example: 7" = .ok (.str "see Example: 7") := by
    rw [htype]
    rfl
  exact ⟨hcast, ofTag_content remark hcast (.ofSeed 1)⟩

end Remark

end ApiManual
