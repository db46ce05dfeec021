import ApiManual.Proofs.Text.Tokens
import ApiManual.Resource.Outline

/-!
# The lines of tags and of closing brackets

`TagLine` and `CloserLine` give the two kinds of lines that open and end something in the source of a resource,
each by its parts. The readers of single lines decide them (`fieldLine?_eq_some_iff`, `isCloser_iff`), and no line
is of both kinds (`fieldLine?_of_isCloser`).
-/

namespace ApiManual

open Text

/-- The line of a tag: its sign and `@responseParam`, and its content behind at least one blank. -/
inductive TagLine (content line : List Char) : Prop where
  | mk (indent : List Char) (sign : Char) (gap space tail : List Char) (hindent : Blanks indent)
      (hsign : sign = '#' ∨ sign = '*') (hgap : Blanks gap) (hspace : Blanks space) (apart : space ≠ [])
      (htail : Blanks tail) (bare : Bare isBlank content) (unbroken : '\n' ∉ content)
      (hline : line = indent ++ sign :: (gap ++ (fieldMark ++ (space ++ content ++ tail))))

/-- The line of a closing bracket, with or without a comma. -/
inductive CloserLine (line : List Char) : Prop where
  | mk (indent : List Char) (bracket : Char) (gap comma tail : List Char) (hindent : Blanks indent)
      (hbracket : bracket = ']' ∨ bracket = '\x7d') (hgap : Blanks gap) (hcomma : comma = [] ∨ comma = [','])
      (htail : Blanks tail) (hline : line = indent ++ bracket :: (gap ++ comma ++ tail))

section Lines

variable {line text content : List Char}

theorem lineText?_eq_some_iff : lineText? line = some text ↔ trim line = text ∧ '\n' ∉ text := by
  unfold lineText?
  by_cases hbroken : '\n' ∈ trim line
  · simp only [List.contains_eq_mem, hbroken, decide_true, if_true]
    refine iff_of_false (by simp) ?_
    rintro ⟨rfl, hunbroken⟩
    exact hunbroken hbroken
  · simp only [List.contains_eq_mem, hbroken, decide_false, Bool.false_eq_true, if_false, Option.some.injEq]
    constructor
    · rintro rfl
      exact ⟨rfl, hbroken⟩
    · exact fun h => h.1

/-- Behind a blank, what trimming leaves of a text is set off from it, even if nothing is left. -/
theorem exists_apart {rest : List Char} (h : rest.head?.any isBlank = true) :
    ∃ space tail, Blanks space ∧ space ≠ [] ∧ Blanks tail ∧ rest = space ++ trim rest ++ tail := by
  obtain ⟨left, right, hleft, hright, hrest⟩ := exists_trim rest
  by_cases hnone : trim rest = []
  · have hblanks : Blanks rest := by
      rw [hrest, hnone, List.append_nil]
      exact fun c hc => (List.mem_append.mp hc).elim (hleft c) (hright c)
    refine ⟨rest, [], hblanks, ?_, by decide, by rw [hnone]; simp⟩
    rintro rfl
    exact Bool.false_ne_true h
  · refine ⟨left, right, hleft, ?_, hright, hrest⟩
    rintro rfl
    rw [hrest, List.nil_append, List.head?_append_of_ne_nil _ hnone] at h
    obtain ⟨c, hc, hblank⟩ := (Option.any_eq_true ..).mp h
    exact Bool.false_ne_true (((bare_trim rest).head c hc).symm.trans hblank)

theorem fieldMark_token : Token fieldMark := by decide +kernel

theorem fieldLine?_eq_some_iff : fieldLine? line = some content ↔ TagLine content line := by
  constructor
  · intro h
    unfold fieldLine? at h
    split at h
    · cases h
    · rename_i sign cs hline
      simp only at h
      split at h
      · rename_i hmark
        obtain ⟨hsign, hprefix, hblank⟩ := hmark
        obtain ⟨htrim, hunbroken⟩ := lineText?_eq_some_iff.mp h
        obtain ⟨indent, hindent, hcut⟩ := exists_trimLeft line
        obtain ⟨gap, hgap, hcut'⟩ := exists_trimLeft cs
        obtain ⟨rest, hrest⟩ := List.isPrefixOf_iff_prefix.mp hprefix
        rw [← hrest, List.drop_left] at hblank htrim
        obtain ⟨space, tail, hspace, hne, htail, hparts⟩ := exists_apart hblank
        refine ⟨indent, sign, gap, space, tail, hindent, hsign, hgap, hspace, hne, htail, htrim ▸ bare_trim rest,
          hunbroken, ?_⟩
        rw [hcut, hline, hcut', ← hrest, hparts, htrim]
      · cases h
  · rintro ⟨indent, sign, gap, space, tail, hindent, hsign, hgap, hspace, hne, htail, hbare, hunbroken, rfl⟩
    have hblank : (space ++ content ++ tail).head?.any isBlank = true := by
      obtain ⟨c, space, rfl⟩ := List.exists_cons_of_ne_nil hne
      simpa using hspace c List.mem_cons_self
    have htext : lineText? (space ++ content ++ tail) = some content :=
      lineText?_eq_some_iff.mpr ⟨trim_padded hbare hspace htail, hunbroken⟩
    unfold fieldLine?
    rw [trimLeft_padded hindent (by obtain rfl | rfl := hsign <;> simp <;> decide)]
    simp only
    rw [trimLeft_padded hgap fieldMark_token.head, List.drop_left, if_pos]
    · exact htext
    · exact ⟨hsign, List.isPrefixOf_iff_prefix.mpr (List.prefix_append ..), hblank⟩

theorem isCloser_iff : isCloser line = true ↔ CloserLine line := by
  constructor
  · intro h
    unfold isCloser at h
    split at h
    · rename_i bracket cs hline
      simp only [Bool.and_eq_true, Bool.or_eq_true, beq_iff_eq] at h
      obtain ⟨hbracket, hcomma⟩ := h
      obtain ⟨indent, tail, hindent, htail, hcut⟩ := exists_trim line
      obtain ⟨gap, tail', hgap, htail', hparts⟩ := exists_trim cs
      have hblanks : Blanks (tail' ++ tail) := fun c hc => (List.mem_append.mp hc).elim (htail' c) (htail c)
      refine ⟨indent, bracket, gap, trim cs, tail' ++ tail, hindent, hbracket, hgap, hcomma, hblanks, ?_⟩
      have hbehind : gap ++ trim cs ++ (tail' ++ tail) = cs ++ tail := by
        rw [← List.append_assoc, ← hparts]
      rw [hbehind, ← List.cons_append, ← hline, ← List.append_assoc]
      exact hcut
    · cases h
  · rintro ⟨indent, bracket, gap, comma, tail, hindent, hbracket, hgap, hcomma, htail, rfl⟩
    have htoken : Token [bracket] := by obtain rfl | rfl := hbracket <;> decide
    have hbare : Bare isBlank comma := by obtain rfl | rfl := hcomma <;> decide
    have hline : trim (indent ++ bracket :: (gap ++ comma ++ tail)) = bracket :: trimRight (gap ++ comma ++ tail) :=
      trim_token hindent htoken (gap ++ comma ++ tail)
    have hbehind : trim (trimRight (gap ++ comma ++ tail)) = comma := by
      rw [trim_trimRight, trim_padded hbare hgap htail]
    unfold isCloser
    rw [hline]
    simp only [hbehind]
    obtain rfl | rfl := hbracket <;> obtain rfl | rfl := hcomma <;> rfl

theorem trimLeft_head_of_isCloser (h : isCloser line = true) :
    (trimLeft line).head? = some ']' ∨ (trimLeft line).head? = some '\x7d' := by
  obtain ⟨indent, bracket, gap, comma, tail, hindent, hbracket, -, -, -, rfl⟩ := isCloser_iff.mp h
  rw [trimLeft_padded hindent (by obtain rfl | rfl := hbracket <;> simp <;> decide)]
  simpa using hbracket

theorem trimLeft_head_of_fieldLine? (h : fieldLine? line = some content) :
    (trimLeft line).head? = some '#' ∨ (trimLeft line).head? = some '*' := by
  obtain ⟨indent, sign, gap, space, tail, hindent, hsign, -, -, -, -, -, -, rfl⟩ := fieldLine?_eq_some_iff.mp h
  rw [trimLeft_padded hindent (by obtain rfl | rfl := hsign <;> simp <;> decide)]
  simpa using hsign

theorem fieldLine?_of_isCloser (h : isCloser line = true) : fieldLine? line = none := by
  cases hfield : fieldLine? line with
  | none => rfl
  | some content =>
    have hf := trimLeft_head_of_fieldLine? hfield
    obtain hc | hc := trimLeft_head_of_isCloser h <;> rw [hc] at hf <;> exact absurd hf (by decide)

end Lines

end ApiManual
