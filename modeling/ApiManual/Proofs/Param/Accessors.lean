import ApiManual.Param.Nested
import ApiManual.Proofs.Text.Search

/-!
# The spellings of a nested name

Behind its first key, a nested name has accessors. Each takes one step into a value, to what stands under a key or to
the first element, and is written behind a dot or between square brackets. `segments_spelled`: a name is read as its
first key and the keys of its steps, however these are written.

* `Accessor.Step`, `Accessor`: where an accessor leads, and how it is written.
* `unbracket`: what becomes of a character where the name has brackets. The pass over adjacent brackets adds nothing
  to those over single ones (`replaceAll_brackets`).
* `spelled_unbracket`: without brackets, every spelling is the one with dots.
-/

namespace ApiManual

open Text

/-! ## Names -/

/-- The characters that part the keys of a name. -/
def nameMarks : List Char := ['.', '[', ']']

/-- A key that can stand in a name. -/
structure KeyText where
  chars : List Char
  nonempty : chars ≠ [] := by decide
  ne_star : chars ≠ ['*'] := by decide
  unmarked : ∀ mark ∈ nameMarks, mark ∉ chars := by simp [nameMarks]

/-- Where an accessor leads. -/
inductive Accessor.Step where
  | under (key : KeyText)
  | first

/-- How a step is written. -/
inductive Accessor where
  | dotted (step : Accessor.Step)
  | bracketed (step : Accessor.Step)
  /-- Brackets with nothing between them, for the first element. -/
  | brackets

namespace Accessor

def Step.chars : Step → List Char
  | under key => key.chars
  | first => ['*']

/-- The key that the step is read as. -/
def Step.key : Step → String
  | under key => String.ofList key.chars
  | first => "0"

def step : Accessor → Step
  | dotted step | bracketed step => step
  | brackets => .first

/-- What is written behind the dot or between the brackets. -/
def inner : Accessor → List Char
  | dotted step | bracketed step => step.chars
  | brackets => []

def chars : Accessor → List Char
  | dotted step => '.' :: step.chars
  | bracketed step => '[' :: (step.chars ++ [']'])
  | brackets => ['[', ']']

end Accessor

def spelledChars (head : KeyText) (accessors : List Accessor) : List Char :=
  head.chars ++ accessors.flatMap Accessor.chars

/-- The name that is a first key with accessors written behind it, one after the other. -/
def spelled (head : KeyText) (accessors : List Accessor) : String := String.ofList (spelledChars head accessors)

/-! ## Taking brackets off -/

/-- What becomes of a character of a name that has brackets. -/
def unbracket (c : Char) : List Char := if c = '[' then ['.'] else if c = ']' then [] else [c]

/-- A part of a name as a key. -/
def segmentKey (part : List Char) : String := if part = ['*'] ∨ part = [] then "0" else String.ofList part

/-- Brackets are taken off character by character: adjacent ones come to the same as single ones. -/
theorem replaceAll_brackets (cs : List Char) :
    replaceAll [']'] [] (replaceAll ['['] ['.'] (replaceAll [']', '['] ['.'] cs)) = cs.flatMap unbracket := by
  have hsingle : ∀ c, (if c = '[' then ['.'] else [c]).flatMap (fun c => if c = ']' then [] else [c]) =
      unbracket c := by
    intro c
    unfold unbracket
    split <;> simp
  have hadjacent : ['.'].flatMap unbracket = [']', '['].flatMap unbracket := rfl
  rw [replaceAll_singleton '[', replaceAll_singleton ']', List.flatMap_assoc]
  simp only [hsingle]
  exact flatMap_replaceAll (List.cons_ne_nil _ _) hadjacent cs

theorem segments_eq (name : String) : segments name =
    (splitOn '.' (if '[' ∈ name.toList then name.toList.flatMap unbracket else name.toList)).map segmentKey := by
  simp only [segments, replaceAll_brackets, List.contains_iff_mem]
  rfl

/-- A text without brackets stays as it is. -/
theorem flatMap_unbracket {cs : List Char} (hopen : '[' ∉ cs) (hclosed : ']' ∉ cs) : cs.flatMap unbracket = cs := by
  have hkeep : ∀ c ∈ cs, unbracket c = [c] := by
    intro c hc
    have hne : c ≠ '[' := fun heq => hopen (heq ▸ hc)
    have hne' : c ≠ ']' := fun heq => hclosed (heq ▸ hc)
    rw [unbracket, if_neg hne, if_neg hne']
  rw [List.flatMap_congr hkeep, List.flatMap_singleton']

/-! ## Accessors -/

namespace Accessor

section Steps

variable (step : Step)

theorem Step.unmarked : ∀ mark ∈ nameMarks, mark ∉ step.chars := by
  cases step with
  | under key => exact key.unmarked
  | first => simp [nameMarks, chars]

theorem Step.chars_unbracket : step.chars.flatMap unbracket = step.chars :=
  flatMap_unbracket (step.unmarked '[' (by decide)) (step.unmarked ']' (by decide))

theorem Step.segmentKey_chars : segmentKey step.chars = step.key := by
  cases step with
  | under key =>
    have hkey : ¬ (key.chars = ['*'] ∨ key.chars = []) := by simp [key.ne_star, key.nonempty]
    exact if_neg hkey
  | first => rfl

end Steps

variable (accessor : Accessor)

theorem inner_undotted : '.' ∉ accessor.inner := by
  cases accessor with
  | dotted step | bracketed step => exact step.unmarked '.' (by decide)
  | brackets => exact List.not_mem_nil

theorem segmentKey_inner : segmentKey accessor.inner = accessor.step.key := by
  cases accessor with
  | dotted step | bracketed step => exact step.segmentKey_chars
  | brackets => rfl

/-- In either notation, a dot and the inner text are left. -/
theorem chars_unbracket : accessor.chars.flatMap unbracket = '.' :: accessor.inner := by
  cases accessor with
  | dotted step =>
    rw [chars, List.flatMap_cons, step.chars_unbracket]
    rfl
  | bracketed step =>
    rw [chars, List.flatMap_cons, List.flatMap_append, step.chars_unbracket]
    simp [unbracket, inner]
  | brackets => rfl

/-- An accessor that closes a bracket opens one. -/
theorem opens_of_closes (h : ']' ∈ accessor.chars) : '[' ∈ accessor.chars := by
  cases accessor with
  | dotted step => simp [chars, step.unmarked ']' (by decide)] at h
  | bracketed step | brackets => exact List.mem_cons_self

end Accessor

/-! ## Reading spelled names -/

section Spelled

variable (head : KeyText) (accessors : List Accessor)

/-- Without its brackets, a name is spelled with dots alone. -/
theorem spelled_unbracket : (spelledChars head accessors).flatMap unbracket =
    joinWith ['.'] (head.chars :: accessors.map Accessor.inner) := by
  have hhead : head.chars.flatMap unbracket = head.chars := (Accessor.Step.under head).chars_unbracket
  rw [spelledChars, List.flatMap_append, hhead, List.flatMap_assoc, joinWith_cons, List.flatMap_map]
  exact congrArg (head.chars ++ ·) (List.flatMap_congr fun accessor _ => accessor.chars_unbracket)

theorem unclosed_of_unopened (h : '[' ∉ spelledChars head accessors) : ']' ∉ spelledChars head accessors := by
  intro hclosed
  rcases List.mem_append.mp hclosed with hhead | haccessors
  · exact head.unmarked ']' (by decide) hhead
  · obtain ⟨accessor, hmem, hcloses⟩ := List.mem_flatMap.mp haccessors
    exact h (List.mem_append_right _ (List.mem_flatMap.mpr ⟨accessor, hmem, accessor.opens_of_closes hcloses⟩))

/-- A name is read as its first key and the keys of its steps, whichever way each of these is written. -/
theorem segments_spelled : segments (spelled head accessors) =
    String.ofList head.chars :: accessors.map fun accessor => accessor.step.key := by
  have hflat : (if '[' ∈ spelledChars head accessors then (spelledChars head accessors).flatMap unbracket
      else spelledChars head accessors) = joinWith ['.'] (head.chars :: accessors.map Accessor.inner) := by
    split
    · exact spelled_unbracket head accessors
    · rename_i hopen
      rw [← spelled_unbracket, flatMap_unbracket hopen (unclosed_of_unopened head accessors hopen)]
  have hundotted : ∀ part ∈ head.chars :: accessors.map Accessor.inner, '.' ∉ part := by
    simp only [List.forall_mem_cons, List.forall_mem_map]
    exact ⟨head.unmarked '.' (by decide), fun accessor _ => accessor.inner_undotted⟩
  have hhead : segmentKey head.chars = String.ofList head.chars := (Accessor.Step.under head).segmentKey_chars
  rw [segments_eq, spelled, String.toList_ofList, hflat, splitOn_joinWith (List.cons_ne_nil _ _) hundotted,
    List.map_cons, List.map_map, hhead]
  exact congrArg _ (List.map_congr_left fun accessor _ => accessor.segmentKey_inner)

end Spelled

example : spelled { chars := ['i', 't', 'e', 'm', 's'] } [.bracketed .first, .brackets, .dotted .first,
    .bracketed (.under { chars := ['i', 'd'] })] = "items[*][].*[id]" := by decide +kernel

example : segments "items[*][].*[id]" = ["items", "0", "0", "0", "id"] := by decide +kernel

end ApiManual
