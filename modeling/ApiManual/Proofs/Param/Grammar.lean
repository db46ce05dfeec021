import ApiManual.Param.Tag
import ApiManual.Proofs.Text.Tokens

/-!
# The grammar of parameter tags

A tag's content is read token by token: the name, the type, and `required` if that is the third one. The
description is what stands behind them, without blanks at its ends.

* `TagParts.Reads`: the parts of a content by its tokens, or its refusal.
* `ofContent_layout`: a content with a name and a type between blanks.
* `takeRequired_flagged`, `takeRequired_plain`: what stands behind the type, with the word and without it.
* `ofContent_reads`: every content is read by its tokens.
-/

namespace ApiManual

open Text

theorem requiredWord_token : Token requiredWord := by decide +kernel

theorem exampleMark_token : Token exampleMark := by decide +kernel

/-! ## Behind the type -/

section Ending

variable {gap tail rest : List Char}

theorem takeRequired_flagged (hgap : Blanks gap) (hrest : ∀ c ∈ rest.head?, isBlank c = true) :
    takeRequired (trim (gap ++ (requiredWord ++ rest))) = (true, trim rest) := by
  have hhead := head?_trimRight hrest
  unfold takeRequired
  rw [trim_token hgap requiredWord_token, firstToken_append requiredWord_token hhead,
    afterToken_append requiredWord_token hhead, trimLeft_trimRight, if_pos rfl]

theorem takeRequired_plain (h : firstToken (trim tail) ≠ requiredWord) :
    takeRequired (trim tail) = (false, trim tail) := if_neg h

/-- The word stands behind the type or another text does, if any. -/
theorem flagged_or_plain (tail : List Char) :
    (∃ gap rest, tail = gap ++ (requiredWord ++ rest) ∧ Blanks gap ∧ ∀ c ∈ rest.head?, isBlank c = true) ∨
      (tokens tail).head? ≠ some requiredWord ∧ firstToken (trim tail) ≠ requiredWord := by
  by_cases hblank : Blanks tail
  · have htrim : trim tail = [] := trimBy_eq_nil hblank
    rw [tokens_blanks hblank, htrim]
    exact .inr ⟨by simp, by decide⟩
  · obtain ⟨gap, token, rest, rfl, hgap, htoken, hrest⟩ := exists_token hblank
    by_cases hword : token = requiredWord
    · exact .inl ⟨gap, rest, by rw [hword], hgap, hrest⟩
    · rw [tokens_cons hgap htoken hrest, trim_token hgap htoken, firstToken_append htoken (head?_trimRight hrest)]
      exact .inr ⟨by simpa using hword, hword⟩

end Ending

/-! ## Contents with a name and a type -/

section Layout

variable {lead name gap type tail : List Char} (hlead : Blanks lead) (hname : Token name) (hgap : Blanks gap)
  (apart : gap ≠ []) (htype : Token type) (htail : ∀ c ∈ tail.head?, isBlank c = true)

include hgap apart in
theorem head?_gap (rest : List Char) : ∀ c ∈ (gap ++ rest).head?, isBlank c = true := by
  rw [List.head?_append_of_ne_nil _ apart]
  exact fun c hc => hgap c (List.mem_of_mem_head? hc)

include hlead hname hgap apart htype htail

/-- A name and a type between blanks are the first parts of a tag; the others are read from what stands behind. -/
theorem ofContent_layout : TagParts.ofContent (String.ofList (lead ++ (name ++ (gap ++ (type ++ tail))))) = .ok
    { name := String.ofList name, type := String.ofList type, required := (takeRequired (trim tail)).1,
      description := String.ofList (takeRequired (trim tail)).2 } := by
  have htrim : trim (lead ++ (name ++ (gap ++ (type ++ tail)))) = name ++ (gap ++ (type ++ trimRight tail)) := by
    have hlast : ∀ c ∈ (gap ++ type).getLast?, isBlank c = false := by
      rw [List.getLast?_append_of_ne_nil _ htype.nonempty]
      exact htype.last
    rw [trim_token hlead hname, ← List.append_assoc, trimRight, trimRightBy_append_of_last hlast, List.append_assoc]
    rfl
  have hbehind := head?_gap hgap apart (type ++ trimRight tail)
  have hskip : trimLeft (gap ++ (type ++ trimRight tail)) = type ++ trimRight tail := trimLeft_padded hgap htype.head
  unfold TagParts.ofContent TagParts.ofTrimmed?
  simp only [String.toList_ofList, htrim, firstToken_append hname hbehind, afterToken_append hname hbehind, hskip,
    firstToken_append htype (head?_trimRight htail), afterToken_append htype (head?_trimRight htail),
    trimLeft_trimRight]
  simp [hname.nonempty, htype.nonempty]

theorem tokens_layout : tokens (lead ++ (name ++ (gap ++ (type ++ tail)))) = name :: type :: tokens tail := by
  rw [tokens_cons hlead hname (head?_gap hgap apart _), tokens_cons hgap htype htail]

end Layout

/-- A name, a type and the flag, written with single spaces in front of some text, are read back. -/
theorem ofContent_written {name type text : List Char} {required : Bool} (hname : Token name) (htype : Token type)
    (htext : ∀ c ∈ text.head?, isBlank c = true) (hplain : required = false → firstToken (trim text) ≠ requiredWord) :
    TagParts.ofContent
        (String.ofList (name ++ ' ' :: (type ++ ((if required then ' ' :: requiredWord else []) ++ text)))) =
      .ok { name := String.ofList name, type := String.ofList type, required,
            description := String.ofList (trim text) } := by
  have hspace : Blanks [' '] := by decide
  have htail : ∀ c ∈ ((if required then ' ' :: requiredWord else []) ++ text).head?, isBlank c = true := by
    cases required with
    | false => exact htext
    | true => exact head?_gap hspace (by simp) (requiredWord ++ text)
  have hblanks : Blanks [] := by simp [Blanks]
  have hparts := ofContent_layout hblanks hname hspace (by simp) htype htail
  rw [List.nil_append, List.singleton_append] at hparts
  rw [hparts]
  cases required with
  | false => rw [if_neg Bool.false_ne_true, List.nil_append, takeRequired_plain (hplain rfl)]
  | true =>
    have hflagged := takeRequired_flagged hspace htext
    rw [List.singleton_append] at hflagged
    rw [if_pos rfl, List.cons_append, hflagged]

/-! ## All contents -/

/-- How a content is read. -/
inductive TagParts.Reads (content : List Char) : Except Defect TagParts → Prop where
  /-- A content without a name and a type is refused. -/
  | refused (few : (tokens content).length < 2) : Reads content (.error (.tagGrammar (String.ofList (trim content))))
  /-- The first tokens are the name, the type and the word `required`, if it is there; the description is what
  stands behind them. -/
  | parts {parts : TagParts} (rest : List (List Char)) (front tail : List Char)
      (leads : tokens content = parts.name.toList :: parts.type.toList :: rest)
      (required : parts.required = true ↔ rest.head? = some requiredWord)
      (cut : content = front ++ tail) (apart : ∀ c ∈ tail.head?, isBlank c = true)
      (taken : tokens front =
        parts.name.toList :: parts.type.toList :: if parts.required then [requiredWord] else [])
      (description : parts.description.toList = trim tail) : Reads content (.ok parts)

section Contents

variable {lead name gap type rest tail : List Char}

/-- A content without tokens, or with a single one, is refused. -/
theorem ofContent_few {cs : List Char} (h : afterToken (trim cs) = []) :
    TagParts.ofContent (String.ofList cs) = .error (.tagGrammar (String.ofList (trim cs))) := by
  unfold TagParts.ofContent TagParts.ofTrimmed?
  simp [h, trimLeft, trimLeftBy, firstToken]

/-- A content with a name and a type is read by its tokens. -/
theorem reads_layout (hlead : Blanks lead) (hname : Token name) (hgap : Blanks gap) (apart : gap ≠ [])
    (htype : Token type) (htail : ∀ c ∈ tail.head?, isBlank c = true) :
    TagParts.Reads (lead ++ (name ++ (gap ++ (type ++ tail))))
      (TagParts.ofContent (String.ofList (lead ++ (name ++ (gap ++ (type ++ tail)))))) := by
  have hleads := tokens_layout hlead hname hgap apart htype htail
  have hend : ∀ c ∈ ([] : List Char).head?, isBlank c = true := by simp
  have hfront : tokens (lead ++ (name ++ (gap ++ type))) = [name, type] := by
    simpa using tokens_layout hlead hname hgap apart htype hend
  rw [ofContent_layout hlead hname hgap apart htype htail]
  rcases flagged_or_plain tail with ⟨gap', rest, rfl, hgap', hrest⟩ | ⟨htokens, hword⟩
  · rw [takeRequired_flagged hgap' hrest]
    have hword : tokens (gap' ++ requiredWord) = [requiredWord] := by
      simpa using tokens_cons hgap' requiredWord_token hend
    have happart := head?_gap hgap' (gap_ne_nil requiredWord_token htail) requiredWord
    refine .parts (tokens (gap' ++ (requiredWord ++ rest)))
      (lead ++ (name ++ (gap ++ (type ++ (gap' ++ requiredWord))))) rest
      (by simpa using hleads) ?_ (by simp) hrest ?_ (by simp)
    · simp [tokens_cons hgap' requiredWord_token hrest]
    · rw [tokens_layout hlead hname hgap apart htype happart, hword]
      simp
  · rw [takeRequired_plain hword]
    exact .parts (tokens tail) (lead ++ (name ++ (gap ++ type))) tail
      (by simpa using hleads) (by simpa using htokens) (by simp) htail (by simpa using hfront) (by simp)

/-- Every content is read by its tokens: the first two are the name and the type, `required` counts as the third, and
the description is what stands behind them; with fewer than two tokens it is refused. -/
theorem ofContent_reads (content : String) : TagParts.Reads content.toList (TagParts.ofContent content) := by
  obtain ⟨cs, rfl⟩ : ∃ cs, content = String.ofList cs := ⟨content.toList, String.ofList_toList.symm⟩
  rw [String.toList_ofList]
  by_cases hblank : Blanks cs
  · have htrim : trim cs = [] := trimBy_eq_nil hblank
    rw [ofContent_few (by rw [htrim]; rfl)]
    exact .refused (by simp [tokens_blanks hblank])
  obtain ⟨lead, name, after, rfl, hlead, hname, hafter⟩ := exists_token hblank
  by_cases hsingle : Blanks after
  · have hright : trimRight after = [] := trimRightBy_eq_nil hsingle
    have htrim : trim (lead ++ (name ++ after)) = name ++ [] := by rw [trim_token hlead hname, hright]
    rw [ofContent_few (by rw [htrim, afterToken_append hname (by simp)])]
    exact .refused (by simp [tokens_cons hlead hname hafter, tokens_blanks hsingle])
  obtain ⟨gap, type, tail, rfl, hgap, htype, htail⟩ := exists_token hsingle
  exact reads_layout hlead hname hgap (gap_ne_nil htype hafter) htype htail

end Contents

end ApiManual
