import ApiManual.Proofs.Number.Foreign
import ApiManual.Proofs.Resource.Label

/-!
# Fields with an example

The comment of a field may give an example behind the description. The characters that frame a description are cut
off the whole text first, so also off the end of the example: the field has the cast of what is left
(`ofComment_framed`). This is the cast of the example itself just if the example does not end in such a character, or
is a boolean that is the same without them (`ofComment_exampled_iff`).

* `ExampledLabel`: a label and the text of an example.
* `unframed`: an example as it is read.
-/

namespace ApiManual

open Text

/-! ## Examples without the characters that frame them -/

/-- An example without the characters at its end that frame a description. -/
def unframed (value : List Char) : List Char := trim (trimRightBy isFraming value)

section Unframed

variable {value : List Char}

theorem unframed_eq_self_iff (h : Bare isBlank value) :
    unframed value = value ↔ ∀ c ∈ value.getLast?, isFraming c = false := by
  constructor
  · intro hself c hc
    obtain ⟨front, rfl⟩ := List.getLast?_eq_some_iff.mp hc
    by_contra hframing
    rw [Bool.not_eq_false] at hframing
    have hend : ∀ d ∈ [c], isFraming d = true := by simpa using hframing
    have hlength := congrArg List.length hself
    have hcut := ((prefix_trimRightBy isFraming front).length_le)
    have htrim : (unframed (front ++ [c])).length ≤ (trimRightBy isFraming front).length := by
      rw [unframed, trimRightBy_append hend]
      exact ((prefix_trimRightBy _ _).length_le).trans (List.dropWhile_suffix _).length_le
    rw [hlength, List.length_append, List.length_singleton] at htrim
    omega
  · intro hlast
    rw [unframed, trimRightBy_eq_self hlast]
    exact trimBy_eq_self h

theorem trim_trimRightBy_space (value : List Char) : trim (trimRightBy isFraming (' ' :: value)) = unframed value := by
  by_cases h : ∀ c ∈ value, isFraming c = true
  · have hall : ∀ c ∈ ' ' :: value, isFraming c = true := List.forall_mem_cons.mpr ⟨by decide, h⟩
    rw [unframed, trimRightBy_eq_nil h, trimRightBy_eq_nil hall]
  · have hkept : (value.reverse.dropWhile isFraming).isEmpty = false := by
      rw [List.isEmpty_eq_false_iff, ne_eq, List.dropWhile_eq_nil_iff]
      simpa using h
    have hspaced : trimRightBy isFraming (' ' :: value) = ' ' :: trimRightBy isFraming value := by
      unfold trimRightBy
      rw [List.reverse_cons, List.dropWhile_append, hkept]
      simp
    rw [hspaced, trim_space, unframed]

/-- What frames a description, blanks apart, stands in no number. -/
theorem foreign_of_framing {c : Char} (hframing : isFraming c = true) (hblank : isBlank c = false) :
    Number.Foreign c := by
  have hspace : c ≠ ' ' := by
    rintro rfl
    revert hblank
    decide
  simp only [isFraming, Bool.or_eq_true, beq_iff_eq] at hframing
  obtain (rfl | rfl) | rfl := hframing
  · exact absurd rfl hspace
  · exact Number.foreign_hash
  · exact Number.foreign_star

/-- A text that stands for a value without being a number or a truth value stands for itself. -/
theorem cast_of_foreign {type : ValueType} {v : Json} {c : Char} (hc : Number.Foreign c) (hmem : c ∈ value)
    (hcast : type.cast (String.ofList value) = .ok v) (hboolean : type ≠ .boolean) (text : String) :
    type.cast text = .ok (.str text) := by
  cases type with
  | boolean => exact absurd rfl hboolean
  | integer =>
    rw [ValueType.cast, String.toList_ofList, Number.readInteger?_eq_none hc hmem] at hcast
    cases hcast
  | number | float =>
    rw [ValueType.cast, String.toList_ofList, Number.readFloat?_eq_none hc hmem] at hcast
    cases hcast
  | _ => rfl

/-- Without the characters that frame it, an example stands for the same value just if there are none, or it is a
truth value. -/
theorem cast_unframed_iff {type : ValueType} {v : Json} (h : Bare isBlank value)
    (hcast : type.cast (String.ofList value) = .ok v) :
    type.cast (String.ofList (unframed value)) = .ok v ↔ (∀ c ∈ value.getLast?, isFraming c = false) ∨
      (type = .boolean ∧ ValueType.boolean.cast (String.ofList (unframed value)) = .ok v) := by
  constructor
  · intro hsame
    refine or_iff_not_imp_left.mpr fun hlast => ?_
    push Not at hlast
    obtain ⟨c, hc, hframing⟩ := hlast
    have hforeign := foreign_of_framing (by simpa using hframing) (h.last c hc)
    by_cases hboolean : type = .boolean
    · exact ⟨hboolean, hboolean ▸ hsame⟩
    · have hself := cast_of_foreign hforeign (List.mem_of_getLast? hc) hcast hboolean
      rw [hself, Except.ok.injEq] at hsame hcast
      have heq := String.ofList_injective (Json.str.inj (hsame.trans hcast.symm))
      exact absurd ((unframed_eq_self_iff h).mp heq c hc) hframing
  · rintro (hlast | ⟨rfl, hsame⟩)
    · rwa [(unframed_eq_self_iff h).mpr hlast]
    · exact hsame

end Unframed

/-! ## Labels with an example -/

/-- A label with an example of one line behind its description. -/
structure ExampledLabel extends Label where
  /-- The text of the example. -/
  value : List Char
  value_nonempty : value ≠ []
  value_bare : Bare isBlank value
  value_oneLine : '\n' ∉ value

namespace ExampledLabel

variable (t : ExampledLabel)

/-- What stands behind the type and the flag. -/
def text : List Char := ' ' :: (t.description ++ ' ' :: (exampleMark ++ ' ' :: t.value))

/-- The comment: what the label says, then the mark and the example. -/
def content : List Char :=
  t.name ++ ' ' :: (t.type ++ ((if t.required then ' ' :: requiredWord else []) ++ t.text))

theorem trim_text : trim t.text = lead t.description ++ (exampleMark ++ ' ' :: t.value) := by
  have hright : trimRight (' ' :: t.value) = ' ' :: t.value := by
    refine trimRightBy_eq_self ?_
    rw [List.getLast?_cons_of_ne_nil t.value_nonempty]
    exact t.value_bare.last
  have haround := trimBy_around (.of_forall exampleMark_token.solid) exampleMark_token.nonempty
    (' ' :: (t.description ++ [' '])) (' ' :: t.value)
  rw [← trimLeft, ← trimRight, trimLeft_spaced t.bare_blank, hright] at haround
  rw [← haround, trim]
  simp [text]

theorem plain (h : t.required = false) : firstToken (trim t.text) ≠ requiredWord := by
  rw [trim_text]
  by_cases hnone : t.description = []
  · have hspace : ∀ c ∈ (' ' :: t.value).head?, isBlank c = true := by
      simp
      decide
    rw [hnone, lead, if_pos rfl, List.nil_append, firstToken_append exampleMark_token hspace]
    decide
  · rw [firstToken_lead hnone]
    exact t.flagged h

theorem ofContent_content : TagParts.ofContent (String.ofList t.content) = .ok
    { name := String.ofList t.name, type := String.ofList t.type, required := t.required,
      description := String.ofList (lead t.description ++ (exampleMark ++ ' ' :: t.value)) } := by
  have hhead : ∀ c ∈ t.text.head?, isBlank c = true := by
    simp [text]
    decide
  rw [content, ofContent_written t.name_token t.type_token hhead t.plain, trim_text]

/-- The comment declares the field with the example as far as it is left. -/
theorem ofComment_framed : Field.ofComment (String.ofList t.content) =
    (t.field.type.cast (String.ofList (unframed t.value))).map fun v =>
      (String.ofList t.name, { t.field with exampleValue := some v }) := by
  have hclear := clear_lead (x := 'E') (by decide) rfl t.no_example
    (exampleMark ++ trimRightBy isFraming (' ' :: t.value))
  have hdescription :
      trimBy isFraming (String.ofList (lead t.description ++ (exampleMark ++ ' ' :: t.value))).toList =
        lead t.description ++ (exampleMark ++ trimRightBy isFraming (' ' :: t.value)) := by
    rw [String.toList_ofList, trimBy_around (by decide +kernel) exampleMark_token.nonempty,
      trimLeftBy_lead t.bare_framing]
  have hline : '\n' ∉ trimRightBy isFraming (' ' :: t.value) := fun hmem => by
    have hvalue := (prefix_trimRightBy _ _).subset hmem
    exact t.value_oneLine (by simpa using hvalue)
  have hinner : trim ((trimRightBy isFraming (' ' :: t.value)).dropWhile isBlank) = unframed t.value := by
    rw [← trim_trimRightBy_space, trim, trimBy, trimLeftBy, List.dropWhile_idempotent]
    rfl
  rw [ofComment_cast t.ofContent_content hdescription (exampleFragment?_append hclear hline)]
  simp only [hinner, dropFragment_append hclear, trim_lead t.bare_blank, takeChoices_eq_self t.no_choices, Label.field]

end ExampledLabel

/-- A field has the example that its comment gives just if the example does not end in a character that frames a
description, or is a truth value that is the same without them. -/
theorem ofComment_exampled_iff (t : ExampledLabel) {v : Json}
    (hcast : t.field.type.cast (String.ofList t.value) = .ok v) :
    Field.ofComment (String.ofList t.content) =
        .ok (String.ofList t.name, { t.field with exampleValue := some v }) ↔
      (∀ c ∈ t.value.getLast?, isFraming c = false) ∨
        (t.field.type = .boolean ∧ ValueType.boolean.cast (String.ofList (unframed t.value)) = .ok v) := by
  rw [t.ofComment_framed, ← cast_unframed_iff t.value_bare hcast]
  cases t.field.type.cast (String.ofList (unframed t.value)) with
  | error d => simp [Except.map]
  | ok w => simp [Except.map]

/-! ## The names of two languages -/

namespace Language

def cpp : ExampledLabel where
  name := "lang".toList
  type := "STR".toList
  required := true
  description := "required *or* #1: the language".toList
  value := "# of C++, see Example: C".toList
  name_token := by decide +kernel
  type_token := by decide +kernel
  bare := by decide +kernel
  flagged := by decide
  no_example := by decide +kernel
  no_choices := by decide +kernel
  value_nonempty := by decide
  value_bare := by decide +kernel
  value_oneLine := by decide +kernel

theorem type_string : ValueType.normalize "STR" = .string := by decide +kernel

theorem ofComment_cpp :
    (ValueType.normalize "STR").cast "# of C++, see Example: C" = .ok (.str "# of C++, see Example: C") ∧
      Field.ofComment
          "lang STR required required *or* #1: the language Example: # of C++, see Example: C" =
        .ok ("lang",
          { type := .string, description := "required *or* #1: the language", required := true,
            exampleValue := some (.str "# of C++, see Example: C") }) := by
  have hcast : (ValueType.normalize "STR").cast "# of C++, see Example: C" =
      .ok (.str "# of C++, see Example: C") := by
    rw [type_string]
    rfl
  have hlast : ∀ c ∈ cpp.value.getLast?, isFraming c = false := (Option.any_eq_false isFraming _).mp (by decide +kernel)
  have hkept := (ofComment_exampled_iff cpp hcast).mpr (.inl hlast)
  have hfield : cpp.field = { type := .string, description := "required *or* #1: the language", required := true } := by
    rw [Label.field, ← type_string]
    rfl
  rw [hfield] at hkept
  exact ⟨hcast, hkept⟩

def csharp : ExampledLabel where
  name := "lang".toList
  type := "str".toList
  required := false
  description := "The language.".toList
  value := "C#".toList
  name_token := by decide +kernel
  type_token := by decide +kernel
  bare := by decide +kernel
  flagged := by decide
  no_example := by decide +kernel
  no_choices := by decide +kernel
  value_nonempty := by decide
  value_bare := by decide +kernel
  value_oneLine := by decide +kernel

/-- The sign at the end of the example is taken for one that frames the description. -/
theorem ofComment_csharp :
    Field.ofComment "lang str The language. Example: C#" =
        .ok ("lang", { type := .string, description := "The language.", exampleValue := some (.str "C") }) ∧
      ¬ ∀ (t : ExampledLabel) (v : Json), t.field.type.cast (String.ofList t.value) = .ok v →
        Field.ofComment (String.ofList t.content) =
          .ok (String.ofList t.name, { t.field with exampleValue := some v }) := by
  have htype : csharp.field.type = .string := by
    change ValueType.normalize "str" = _
    decide +kernel
  have hframed : Field.ofComment (String.ofList csharp.content) =
      .ok ("lang", { csharp.field with exampleValue := some (.str "C") }) := by
    rw [csharp.ofComment_framed, htype]
    rfl
  constructor
  · have hfield : csharp.field = { type := .string, description := "The language." } := by
      rw [← htype]
      rfl
    rw [hfield] at hframed
    exact hframed
  · intro hkept
    have hwhole := hkept csharp (.str "C#") (by rw [htype]; rfl)
    have hsame := hwhole.symm.trans hframed
    simp at hsame

end Language

end ApiManual
